import ServiceCall.Wire.Varint
/-!
# Raw records

A raw record is what stands on the wire, as a list of fields in the order in which they
stand there. Reading needs to know of every field how it is written and, for a nested
record, its type; a `Layout` says so. Fields that a layout does not know are kept in the
form their key announces; where reading is strict each of them needs a level of nesting.
-/

namespace ServiceCall.Wire

/-- A value on the wire. -/
inductive Raw where
  | varint (n : Nat)
  | fixed64 (n : Nat)
  | fixed32 (n : Nat)
  | text (s : String)
  | bytes (b : Bytes)
  | packed (items : List Raw)
  | record (fields : List (Nat × Raw))
  | group (fields : List (Nat × Raw))
  deriving Repr, Inhabited

/-- A record on the wire: field numbers with values. -/
abbrev RawRecord := List (Nat × Raw)

/-- How a field is written. -/
inductive Slot where
  | varint
  | fixed64
  | fixed32
  | text
  | bytes
  | record (type : String)
  | group (type : String)
  /-- A record that is one entry of a map: only what stands under 1 and 2 counts. It may stand
  behind any key, and is a level of nesting only if it is said to be. -/
  | entry (type : String) (counted : Bool)
  deriving DecidableEq, Repr

/-- What a layout knows of a field: how a value is written, whether a run of values may stand in
one field, and the name that a fault inside the field bears. -/
structure FieldSlot where
  slot : Slot
  packable : Bool
  place : Option String
  deriving DecidableEq, Repr

/-- The fields of every type of record by their numbers, and whether reading is strict. -/
structure Layout where
  field? : String → Nat → Option FieldSlot
  strict : Bool

/-- What a field stands in. -/
inductive Within where
  | record (type : String)
  | entry (type : String)
  /-- A group that no layout knows. -/
  | unknown (strict : Bool)
  deriving DecidableEq, Repr

/-- What is known of a field. -/
def Within.slot? (layout : Layout) (number : Nat) : Within → Option FieldSlot
  | record type => layout.field? type number
  | entry type => if number = 1 ∨ number = 2 then layout.field? type number else none
  | unknown _ => none

/-- A field that is not known needs a level of nesting. -/
def Within.isStrict (layout : Layout) : Within → Bool
  | record _ => layout.strict
  | entry _ => true
  | unknown strict => strict

/-- The wire type of a value. -/
def Slot.wireType : Slot → WireType
  | varint => .varint
  | fixed64 => .sixtyFourBit
  | fixed32 => .thirtyTwoBit
  | text | bytes | record _ | entry _ _ => .lengthDelimited
  | group _ => .startGroup

/-- A value may stand behind a key of the wire type. -/
def Slot.accepts (s : Slot) (t : WireType) : Bool :=
  match s with
  | entry _ _ => true
  | s => t == s.wireType

/-! ## Writing -/

namespace Raw

def wireType : Raw → WireType
  | varint _ => .varint
  | fixed64 _ => .sixtyFourBit
  | fixed32 _ => .thirtyTwoBit
  | text _ | bytes _ | packed _ | record _ => .lengthDelimited
  | group _ => .startGroup

mutual

/-- The bytes of a value behind its key. The end of a group is the matter of its field. -/
def write : Raw → Bytes
  | varint n => writeVarint n
  | fixed64 n => writeFixed 8 n
  | fixed32 n => writeFixed 4 n
  | text s => writeDelimited (utf8 s)
  | bytes b => writeDelimited b
  | packed items => writeDelimited (writeItems items)
  | record fields => writeDelimited (writeFields fields)
  | group fields => writeFields fields

def writeItems : List Raw → Bytes
  | [] => []
  | v :: rest => write v ++ writeItems rest

/-- The bytes of a record. -/
def writeFields : List (Nat × Raw) → Bytes
  | [] => []
  | (number, v) :: rest =>
    writeKey number v.wireType ++ write v ++
      (if v.wireType = .startGroup then writeKey number .endGroup else []) ++ writeFields rest

end

end Raw

/-! ## Reading -/

/-- The depth to which records may be nested. -/
def maxDepth : Nat := 100

mutual

/-- Reads fields until no more than `limit` bytes are left, or up to the end of a group. -/
def readFields (layout : Layout) : Nat → Within → Nat → Nat → Option Nat → Bytes →
    Except Fault (RawRecord × Bytes)
  | 0, _, _, _, _, _ => .error .exceeded
  | fuel + 1, place, depth, limit, group, s =>
    if group.isNone ∧ s.length ≤ limit then
      if s.length = limit then .ok ([], s) else .error .exceeded
    else do
      let (number, t, rest) ← readKey s
      if group.isSome ∧ t = .endGroup then
        if group = some number then .ok ([], rest) else .error .endGroup
      else
        let (v, rest) ← readField layout fuel place depth number t rest
        let (more, rest) ← readFields layout fuel place depth limit group rest
        return ((number, v) :: more, rest)

/-- Reads the value of a field behind its key. -/
def readField (layout : Layout) : Nat → Within → Nat → Nat → WireType → Bytes →
    Except Fault (Raw × Bytes)
  | 0, _, _, _, _, _ => .error .exceeded
  | fuel + 1, place, depth, number, t, s =>
    match place.slot? layout number with
    | none =>
      if place.isStrict layout ∧ depth = 0 then .error .tooDeep
      else readUnknown layout fuel (place.isStrict layout) depth number t s
    | some ⟨slot, packable, place⟩ =>
      Except.mapError (Fault.inField place)
        (if packable ∧ t = .lengthDelimited then do
          let (n, rest) ← readVarint s
          if rest.length < n then .error .underflow
          else
            let (items, rest) ← readItems layout fuel slot (rest.length - n) rest
            return (.packed items, rest)
        else if slot.accepts t then readSlot layout fuel depth slot number s
        else .error (.mismatch t slot.wireType))

/-- Reads a run of numbers until no more than `limit` bytes are left. -/
def readItems (layout : Layout) : Nat → Slot → Nat → Bytes → Except Fault (List Raw × Bytes)
  | 0, _, _, _ => .error .exceeded
  | fuel + 1, slot, limit, s =>
    if s.length ≤ limit then
      if s.length = limit then .ok ([], s) else .error .exceeded
    else do
      let (v, rest) ← readSlot layout fuel 0 slot 0 s
      let (more, rest) ← readItems layout fuel slot limit rest
      return (v :: more, rest)

/-- Reads one value. -/
def readSlot (layout : Layout) : Nat → Nat → Slot → Nat → Bytes → Except Fault (Raw × Bytes)
  | 0, _, _, _, _ => .error .exceeded
  | fuel + 1, depth, slot, number, s =>
    match slot with
    | .varint => do
      let (n, rest) ← readVarint s
      return (.varint n, rest)
    | .fixed64 => do
      let (n, rest) ← readFixed 8 s
      return (.fixed64 n, rest)
    | .fixed32 => do
      let (n, rest) ← readFixed 4 s
      return (.fixed32 n, rest)
    | .bytes => do
      let (b, rest) ← readDelimited s
      return (.bytes b, rest)
    | .text => do
      let (b, rest) ← readDelimited s
      match Utf8.decode? b with
      | some t => return (.text t, rest)
      | none => .error .notUtf8
    | .record type =>
      match depth with
      | 0 => .error .tooDeep
      | depth + 1 => do
        let (n, rest) ← readVarint s
        if rest.length < n then .error .underflow
        else
          let (fields, rest) ←
            readFields layout fuel (.record type) depth (rest.length - n) none rest
          return (.record fields, rest)
    | .group type =>
      match depth with
      | 0 => .error .tooDeep
      | depth + 1 => do
        let (fields, rest) ← readFields layout fuel (.record type) depth 0 (some number) s
        return (.group fields, rest)
    | .entry type counted =>
      if counted ∧ depth = 0 then .error .tooDeep
      else do
        let (n, rest) ← readVarint s
        if rest.length < n then .error .underflow
        else
          let inner := if counted then depth - 1 else depth
          let (fields, rest) ←
            readFields layout fuel (.entry type) inner (rest.length - n) none rest
          return (.record fields, rest)

/-- Reads the value of a field that is not known. -/
def readUnknown (layout : Layout) : Nat → Bool → Nat → Nat → WireType → Bytes →
    Except Fault (Raw × Bytes)
  | 0, _, _, _, _, _ => .error .exceeded
  | fuel + 1, strict, depth, number, t, s =>
    match t with
    | .varint => do
      let (n, rest) ← readVarint s
      return (.varint n, rest)
    | .sixtyFourBit => do
      let (n, rest) ← readFixed 8 s
      return (.fixed64 n, rest)
    | .thirtyTwoBit => do
      let (n, rest) ← readFixed 4 s
      return (.fixed32 n, rest)
    | .lengthDelimited => do
      let (b, rest) ← readDelimited s
      return (.bytes b, rest)
    | .startGroup =>
      match depth with
      | 0 => .error .tooDeep
      | depth + 1 => do
        let (fields, rest) ← readFields layout fuel (.unknown strict) depth 0 (some number) s
        return (.group fields, rest)
    | .endGroup => .error (if strict then .endGroup else .mismatch .endGroup .startGroup)

end

/-- Reads a record of a type from all the bytes. -/
def read (layout : Layout) (type : String) (s : Bytes) : Except Fault RawRecord :=
  (readFields layout (4 * s.length + 4) (.record type) maxDepth 0 none s).map (·.1)

end ServiceCall.Wire
