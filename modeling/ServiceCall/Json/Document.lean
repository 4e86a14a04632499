import ServiceCall.Json.Value
import ServiceCall.Number.Literal
import ServiceCall.Text.Utf8
/-!
# JSON documents

A document is a JSON text as far as it can be read. Where the text breaks off or breaks
the grammar, the document holds a fault, and everything before the fault is kept. What
is wrong with a text then depends on what it is read for: a reader walks the document
in the order of the text and stops at the first thing that does not suit it. A value
that nobody reads is only held to the grammar, so in it a number may be out of range
and an escape may be half a surrogate pair.
-/

namespace ServiceCall.Json

/-- What is wrong with a text: it is no JSON, it ends too early, or its value has another
shape than the one asked for. -/
inductive Category where
  | malformed
  | unfinished
  | unfit
  deriving DecidableEq, Repr

/-- What a reader says of the bytes of a text that it does not take. The words are its own. -/
abbrev Wording := Bytes → String

/-- Why a text goes no further. A number that is cut short is told apart, because it only
counts as unfinished to someone who reads it. -/
inductive Fault where
  | malformed
  | unfinished
  | unfinishedNumber
  deriving DecidableEq, Repr, Inhabited

def Fault.category : Fault → Category
  | .malformed => .malformed
  | .unfinished | .unfinishedNumber => .unfinished

/-- What a fault counts as in a value that is skipped. -/
def Fault.skipped : Fault → Category
  | .unfinished => .unfinished
  | .malformed | .unfinishedNumber => .malformed

/-- A part of a string: a character, half of a surrogate pair, or bytes that are no
character. -/
inductive Piece where
  | char (c : Char)
  | surrogate (leading : Bool)
  | stray
  deriving DecidableEq, Repr

/-- The content of a string as far as it was read. -/
structure RawString where
  pieces : List Piece
  fault : Option Fault
  deriving DecidableEq, Repr

/-- The digits of a number. -/
structure RawNumber where
  negative : Bool
  whole : List Char
  fraction : Option (List Char)
  exponent : Option (Bool × List Char)
  deriving DecidableEq, Repr

/-- A text as far as it was read. An array or object that is not closed after its last part
holds the fault that stands there. -/
inductive Document where
  | fault (f : Fault)
  | null
  | bool (b : Bool)
  | number (n : RawNumber)
  | string (s : RawString)
  | array (items : List Document) (stop : Option Fault)
  | object (members : List (RawString × Document)) (stop : Option Fault)
  deriving Repr, Inhabited

/-! ## Reading a document -/

/-- The text of a string. Half a surrogate pair is a fault where it stands, unless the text
ends right after the leading half; stray bytes are only seen at the closing quote. -/
def RawString.read (s : RawString) : Except Category String :=
  go s.pieces
where
  go : List Piece → Except Category String
    | [] =>
      match s.fault with
      | some f => .error f.category
      | none =>
        if s.pieces.any (· == .stray) then .error .malformed
        else .ok (String.ofList (s.pieces.filterMap fun
          | .char c => some c
          | _ => none))
    | [.surrogate true] =>
      if s.fault = some .unfinished then .error .unfinished else .error .malformed
    | .surrogate _ :: _ => .error .malformed
    | _ :: rest => go rest

namespace RawNumber

/-- Digits are taken into the significand as long as it fits 64 bits. -/
def significand : Nat → List Char → Nat × List Char
  | n, [] => (n, [])
  | n, c :: rest =>
    let m := 10 * n + (digit? c).getD 0
    if m < 0x10000000000000000 then significand m rest else (n, c :: rest)

/-- Scales a double by a power of ten in rounded steps of at most `10 ^ 308`; none if it
overflows. -/
def scale : Nat → Double → Int → Option Double
  | 0, x, _ => some x
  | fuel + 1, x, e =>
    let power (k : Nat) : Double := Floating.ofQuotient .double false (Nat.pow 10 k) 1
    if 308 < e then if x.isZero then some x else none
    else if 0 ≤ e then
      let y := x.scaleUp (power e.toNat)
      if y.isInfinite then none else some y
    else if -308 ≤ e then some (x.scaleDown (power (-e).toNat))
    else if x.isZero then some x
    else scale fuel (x.scaleDown (power 308)) (e + 308)

/-- The double of a significand and a power of ten. -/
def double? (negative : Bool) (significand : Nat) (e : Int) : Option Json :=
  (scale 8 (Floating.ofInt .double significand) e).map fun x => .float { x with negative }

/-- The value of a number. Digits that do not fit the significand are dropped. -/
def read (n : RawNumber) : Except Category Json :=
  let (m, dropped) := significand 0 n.whole
  let e : Int := dropped.length
  let (m, e) := match n.fraction with
    | none => (m, e)
    | some ds =>
      let (m, rest) := significand m ds
      (m, e - (ds.length - rest.length))
  let e := match n.exponent with
    | none => e
    | some (true, ds) => e - digitsValue ds
    | some (false, ds) => e + digitsValue ds
  let plain := n.fraction.isNone && n.exponent.isNone && dropped.isEmpty
  if plain && !n.negative then .ok (.integer m)
  else if plain && m ≠ 0 && m ≤ 0x8000000000000000 then .ok (.integer (-m))
  else match double? n.negative m e with
    | some v => .ok v
    | none => .error .malformed

end RawNumber

namespace Document

mutual

/-- The first fault of a document that is skipped. -/
def skip : Document → Except Category Unit
  | .fault f => .error f.skipped
  | .null | .bool _ | .number _ => .ok ()
  | .string s => skipString s
  | .array items stop => do
    skipItems items
    skipEnd stop
  | .object members stop => do
    skipMembers members
    skipEnd stop

def skipItems : List Document → Except Category Unit
  | [] => .ok ()
  | v :: rest => do
    skip v
    skipItems rest

def skipMembers : List (RawString × Document) → Except Category Unit
  | [] => .ok ()
  | (k, v) :: rest => do
    skipString k
    skip v
    skipMembers rest

def skipString (s : RawString) : Except Category Unit :=
  match s.fault with
  | some f => .error f.skipped
  | none => .ok ()

def skipEnd (stop : Option Fault) : Except Category Unit :=
  match stop with
  | some f => .error f.skipped
  | none => .ok ()

end

/-- The fault behind the last part of a container. -/
def readEnd : Option Fault → Except Category Unit
  | some f => .error f.category
  | none => .ok ()

mutual

/-- The value of a document; containers may be nested to the given depth. -/
def readValue : Nat → Document → Except Category Json
  | _, .fault f => .error f.category
  | _, .null => .ok .null
  | _, .bool b => .ok (.bool b)
  | _, .number n => n.read
  | _, .string s => s.read.map .string
  | 0, .array _ _ => .error .malformed
  | 0, .object _ _ => .error .malformed
  | depth + 1, .array items stop => do
    let vs ← readItems depth items
    readEnd stop
    return .array vs
  | depth + 1, .object members stop => do
    let ms ← readMembers depth members
    readEnd stop
    return ofMembers ms

def readItems : Nat → List Document → Except Category (List Json)
  | _, [] => .ok []
  | depth, v :: rest => do
    let v ← readValue depth v
    let vs ← readItems depth rest
    return v :: vs

def readMembers : Nat → List (RawString × Document) → Except Category (List (String × Json))
  | _, [] => .ok []
  | depth, (k, v) :: rest => do
    let k ← k.read
    let v ← readValue depth v
    let ms ← readMembers depth rest
    return (k, v) :: ms

end

/-- The depth to which containers may be nested in a text. -/
def maxDepth : Nat := 127

end Document

end ServiceCall.Json
