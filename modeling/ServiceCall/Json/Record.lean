import ServiceCall.Json.Scan
/-!
# Records in JSON

A record is written as an object of named members or as an array of its fields in order.
`Record.read` walks a document once, hands every field to `set`, skips members of other
names, refuses a name that comes twice, and leaves it to the caller which fields may be
missing.
-/

namespace ServiceCall.Json

namespace Document

/-- A text. -/
def text : Document → Except Category String
  | .fault f => .error f.category
  | .string s => s.read
  | .number n => do
    let _ ← n.read
    .error .unfit
  | _ => .error .unfit

/-- A text, or null. -/
def text? : Document → Except Category (Option String)
  | .null => .ok none
  | d => (text d).map some

/-- The items of an array, each read the same way. -/
def listOf (item : Document → Except Category α) : Document → Except Category (List α)
  | .array items stop => do
    let vs ← items.mapM item
    readEnd stop
    return vs
  | .fault f => .error f.category
  | .string s => do
    let _ ← s.read
    .error .unfit
  | .number n => do
    let _ ← n.read
    .error .unfit
  | _ => .error .unfit

end Document

/-- How a record is built: its field names in order, and what taking a field's document does
to the state. -/
structure Record (σ : Type) where
  names : List String
  set : String → Document → σ → Except Category σ

namespace Record

variable {σ : Type}

/-- Reads members in the order of the text. `seen` holds the names that have come already. -/
def readMembers (r : Record σ) : List String → List (RawString × Document) → σ →
    Except Category σ
  | _, [], s => .ok s
  | seen, (k, v) :: rest, s => do
    let key ← k.read
    if key ∈ r.names then
      if key ∈ seen then .error .unfit
      else
        let s ← r.set key v s
        readMembers r (key :: seen) rest s
    else
      v.skip
      readMembers r seen rest s

/-- Reads items as the fields of the given names. An item too many is no JSON of a record. -/
def readItems (r : Record σ) : List String → List Document → Option Fault → σ →
    Except Category σ
  | _, [], stop, s => do
    Document.readEnd stop
    return s
  | [], _ :: _, _, _ => .error .malformed
  | name :: names, v :: rest, stop, s => do
    let s ← r.set name v s
    readItems r names rest stop s

/-- Reads a record from its empty state. -/
def read (r : Record σ) (start : σ) : Document → Except Category σ
  | .object members stop => do
    let s ← r.readMembers [] members start
    Document.readEnd stop
    return s
  | .array items stop => r.readItems r.names items stop start
  | .fault f => .error f.category
  | .string s => do
    let _ ← s.read
    .error .unfit
  | .number n => do
    let _ ← n.read
    .error .unfit
  | _ => .error .unfit

end Record

end ServiceCall.Json
