import ServiceCall.Schema.Pool
/-!
# Messages on the wire

A message is written as the raw record of its fields and of those its type does not know,
both by ascending number. Reading merges raw fields into a message one after the other: the
last value of a scalar counts, nested messages are merged, lists grow, and setting one field
of a oneof unsets the others.
-/

namespace ServiceCall

open Wire (Raw RawRecord)

/-! ## Values -/

namespace Scalar

/-- The value that stands on the wire. -/
def ofRaw (s : Scalar) (r : Raw) : Value :=
  match s, r with
  | .int64, .varint n => .integer (Wire.toSigned 64 n)
  | .uint64, .varint n => .integer n
  | .int32, .varint n => .integer (Wire.toSigned 32 n)
  | .uint32, .varint n => .integer (n % 0x100000000 : Nat)
  | .sint32, .varint n => .integer (Wire.unzigzag (n % 0x100000000))
  | .sint64, .varint n => .integer (Wire.unzigzag n)
  | .bool, .varint n => .bool (n ≠ 0)
  | .fixed64, .fixed64 n => .integer n
  | .sfixed64, .fixed64 n => .integer (Wire.toSigned 64 n)
  | .double, .fixed64 n => .double (Floating.ofBits _ n)
  | .fixed32, .fixed32 n => .integer n
  | .sfixed32, .fixed32 n => .integer (Wire.toSigned 32 n)
  | .float, .fixed32 n => .single (Floating.ofBits _ n)
  | .string, .text t => .text t
  | .bytes, .bytes b => .bytes b
  | s, _ => s.fallback

/-- How a value stands on the wire. -/
def toRaw (s : Scalar) (v : Value) : Raw :=
  match s, v with
  | .int64, .integer i | .uint64, .integer i | .int32, .integer i => .varint (Wire.ofSigned 64 i)
  | .uint32, .integer i => .varint (Wire.ofSigned 32 i)
  | .sint32, .integer i | .sint64, .integer i => .varint (Wire.zigzag i)
  | .bool, .bool b => .varint (if b then 1 else 0)
  | .fixed64, .integer i | .sfixed64, .integer i => .fixed64 (Wire.ofSigned 64 i)
  | .double, .double x => .fixed64 x.toBits
  | .fixed32, .integer i | .sfixed32, .integer i => .fixed32 (Wire.ofSigned 32 i)
  | .float, .single x => .fixed32 x.toBits
  | .string, .text t => .text t
  | .bytes, .bytes b => .bytes b
  | _, _ => .varint 0

end Scalar

namespace Value

/-- Two map keys are the same. -/
def sameKey : Value → Value → Bool
  | .bool a, .bool b => a == b
  | .integer a, .integer b => a == b
  | .text a, .text b => a == b
  | _, _ => false

/-- Puts an entry into a map; the value of a key that is there is replaced. -/
def insertEntry (key value : Value) : List (Value × Value) → List (Value × Value)
  | [] => [(key, value)]
  | (k, v) :: rest =>
    if sameKey key k then (k, value) :: rest else (k, v) :: insertEntry key value rest

end Value

/-- Two scalars are the same; zeros of either sign are, and no two not-a-numbers are. -/
def Value.sameScalar : Value → Value → Bool
  | .bool a, .bool b => a == b
  | .integer a, .integer b => a == b
  | .single a, .single b => !a.isNaN && (a == b || (a.isZero && b.isZero))
  | .double a, .double b => !a.isNaN && (a == b || (a.isZero && b.isZero))
  | .text a, .text b => a == b
  | .bytes a, .bytes b => a == b
  | _, _ => false

/-- The value counts as unset in a field that has to tell no difference. -/
def Field.isDefault (p : Pool) (f : Field) : Value → Bool
  | .list items => items.isEmpty
  | .map entries => entries.isEmpty
  | .record _ => false
  | v => v.sameScalar (p.fieldDefault f)

namespace Message

/-- A field is set. -/
def has (p : Pool) (m : Message) (f : Field) : Bool :=
  match m.get? f.number with
  | some v => f.hasPresence || !f.isDefault p v
  | none => false

/-- The value of a field, which is its default if it is unset. -/
def value (p : Pool) (m : Message) (f : Field) : Value := (m.get? f.number).getD (p.fieldDefault f)

/-- The message with a field set and with the other fields of its oneof unset. -/
def put (p : Pool) (m : Message) (f : Field) (v : Value) : Message :=
  match f.oneofIndex with
  | some i =>
    (m.clear (((p.messageType m.type).oneofNumbers i).filter (· ≠ f.number))).set f.number v
  | none => m.set f.number v

/-! ## Reading -/

/-- The value of a number, a text or bytes. -/
def scalarValue (f : Field) (r : Raw) : Value :=
  match f.kind, r with
  | .scalar s, r => s.ofRaw r
  | .enumeration _, .varint n => .integer (Wire.toSigned 32 n)
  | _, _ => .integer 0

/-- The items of a list. -/
def itemsOf : Value → List Value
  | .list items => items
  | _ => []

/-- The entries of a map. -/
def entriesOf : Value → List (Value × Value)
  | .map entries => entries
  | _ => []

/-- The message that a nested record is merged into: a new one for a list or a map, any other
field's own one. -/
def recordBase (f : Field) (old : Value) : Message :=
  match old with
  | .record m => if f.isRepeated then .empty f.kind.name else m
  | _ => .empty f.kind.name

/-- The value of a field after a nested message has come. -/
def putRecord (p : Pool) (f : Field) (old : Value) (m : Message) : Value :=
  match p.mapEntry? f with
  | some entry =>
    let part (number : Nat) : Value := ((entry.field? number).map (m.value p)).getD (.bool false)
    .map (Value.insertEntry (part 1) (part 2) (entriesOf old))
  | none => if f.isRepeated then .list (itemsOf old ++ [.record m]) else .record m

/-- The value of a field after a scalar has come. -/
def putScalar (f : Field) (old : Value) (r : Raw) : Value :=
  if f.isRepeated then .list (itemsOf old ++ [scalarValue f r]) else scalarValue f r

mutual

/-- The value of a field after a raw value has come. -/
def mergeValue (p : Pool) (f : Field) (old : Value) : Raw → Value
  | .packed items => .list (itemsOf old ++ items.map (scalarValue f))
  | .record fields => putRecord p f old (mergeFields p (recordBase f old) fields)
  | .group fields => putRecord p f old (mergeFields p (recordBase f old) fields)
  | .varint n => putScalar f old (.varint n)
  | .fixed64 n => putScalar f old (.fixed64 n)
  | .fixed32 n => putScalar f old (.fixed32 n)
  | .text s => putScalar f old (.text s)
  | .bytes b => putScalar f old (.bytes b)

/-- Merges raw fields into a message, in their order. -/
def mergeFields (p : Pool) (m : Message) : List (Nat × Raw) → Message
  | [] => m
  | (number, r) :: rest =>
    match p.field? m.type number with
    | none => mergeFields p (mk m.type m.fields (m.unknown ++ [(number, r)])) rest
    | some f => mergeFields p (m.put p f (mergeValue p f (m.value p f) r)) rest

end

/-- The message of a type that stands on the wire. -/
def decode (p : Pool) (type : String) (bytes : Bytes) : Except Wire.Fault Message :=
  (Wire.read p.layout type bytes).map (mergeFields p (.empty type))

/-! ## Writing -/

/-- A scalar or the number of an enum value on the wire. -/
def rawScalar (k : Kind) (v : Value) : Raw :=
  match k, v with
  | .scalar s, v => s.toRaw v
  | .enumeration _, .integer i => .varint (Wire.ofSigned 64 i)
  | _, _ => .varint 0

/-- Puts raw fields together by ascending number. -/
def mergeByNumber : RawRecord → RawRecord → RawRecord
  | [], us => us
  | fs, [] => fs
  | (n, f) :: fs, (k, u) :: us =>
    if n ≤ k then (n, f) :: mergeByNumber fs ((k, u) :: us)
    else (k, u) :: mergeByNumber ((n, f) :: fs) us
  termination_by fs us => fs.length + us.length

/-- Raw fields in ascending order of their numbers. -/
def byNumber (r : RawRecord) : RawRecord := r.mergeSort fun a b => a.1 ≤ b.1

/-- The raw fields of a value, none if it counts as unset. -/
def present (p : Pool) (f : Field) (v : Value) (raws : List Raw) : RawRecord :=
  if f.hasPresence || !f.isDefault p v then raws.map fun r => (f.number, r) else []

mutual

/-- The raw record of a message. -/
def toRaw (p : Pool) : Message → RawRecord
  | mk type fields unknown => mergeByNumber (rawFields p type fields) (byNumber unknown)

/-- The raw fields of fields that are set. -/
def rawFields (p : Pool) (type : String) : List (Nat × Value) → RawRecord
  | [] => []
  | (number, v) :: rest =>
    (match p.field? type number with
      | none => []
      | some f => present p f v (rawValues p f v)) ++ rawFields p type rest

/-- The raw values of a field: one, or one for each item if they are not one run. -/
def rawValues (p : Pool) (f : Field) : Value → List Raw
  | .list items =>
    if f.isPacked then [.packed (rawItems p f items)] else rawItems p f items
  | .map entries => rawEntries p f entries
  | .record m => [match f.kind with
    | .group _ => .group (toRaw p m)
    | _ => .record (toRaw p m)]
  | .bool b => [rawScalar f.kind (.bool b)]
  | .integer i => [rawScalar f.kind (.integer i)]
  | .single x => [rawScalar f.kind (.single x)]
  | .double x => [rawScalar f.kind (.double x)]
  | .text s => [rawScalar f.kind (.text s)]
  | .bytes b => [rawScalar f.kind (.bytes b)]

/-- The raw values of the items of a list. -/
def rawItems (p : Pool) (f : Field) : List Value → List Raw
  | [] => []
  | v :: rest => rawValues p f v ++ rawItems p f rest

/-- The raw values of the entries of a map. -/
def rawEntries (p : Pool) (f : Field) : List (Value × Value) → List Raw
  | [] => []
  | (k, v) :: rest =>
    let entry := p.messageType f.kind.name
    .record
      ((match entry.field? 1 with
        | some g => present p g k (rawValues p g k)
        | none => []) ++
      (match entry.field? 2 with
        | some g => present p g v (rawValues p g v)
        | none => [])) :: rawEntries p f rest

end

/-- The bytes of a message. -/
def encode (p : Pool) (m : Message) : Bytes := Raw.writeFields (toRaw p m)

end Message

end ServiceCall
