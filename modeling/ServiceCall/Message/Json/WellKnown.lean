import ServiceCall.Message.Json.Scalar
import ServiceCall.Message.Wire
import ServiceCall.WellKnown.Basic
import ServiceCall.WellKnown.FieldMask
import ServiceCall.WellKnown.Held
/-!
# Well-known types in JSON

Every well-known type but the one that holds messages of any type: a JSON value is turned
into the raw record of the message and read from there by the type that the pool has under the
name, so what is nested too deep for the wire is refused. A message is brought to the wire by
that type and read from there as the well-known type proper.
-/

namespace ServiceCall

open Wire (Raw RawRecord)

/-! ## Reading -/

/-- The raw fields of two counts, those that are zero left out. -/
def countsToRaw (seconds nanos : Int) : RawRecord :=
  (if seconds = 0 then [] else [(1, .varint (Wire.ofSigned 64 seconds))]) ++
    (if nanos = 0 then [] else [(2, .varint (Wire.ofSigned 64 nanos))])

/-- The raw record of a message of a well-known type. -/
def WellKnown.rawOfJson (w : WellKnown) (v : Json) : Except MappingFault RawRecord :=
  match w with
  | .timestamp =>
    match v with
    | .string s => do
      let t ← (Timestamp.read s).mapError .timestamp
      return countsToRaw t.seconds t.nanos
    | v => .error (.kind v .timestamp)
  | .duration =>
    match v with
    | .string s => do
      let d ← (Duration.read s).mapError .duration
      return countsToRaw d.seconds d.nanos
    | v => .error (.kind v .duration)
  | .fieldMask =>
    match v with
    | .string s =>
      match FieldMask.read? s with
      | some paths => .ok (paths.map fun path => (1, .text path))
      | none => .error .fieldMask
    | v => .error (.kind v .fieldMask)
  | .struct =>
    match v with
    | .object members => .ok (Json.membersToRaw members)
    | v => .error (.kind v .object)
  | .listValue =>
    match v with
    | .array items => .ok (Json.itemsToRaw items)
    | v => .error (.kind v .list)
  | .value => .ok v.toRaw
  | .empty =>
    match v with
    | .object [] => .ok []
    | .object _ => .error .notEmpty
    | v => .error (.kind v .emptyObject)
  | .wrapper s => do
    let value ← s.ofJson v
    return if value.sameScalar s.fallback then [] else [(1, s.toRaw value)]
  | .any => .error (.kind v .object)

/-- The message of a type that a raw record stands for. -/
def Message.ofRaw (p : Pool) (type : String) (r : RawRecord) : Except MappingFault Message :=
  (Message.decode p type (Raw.writeFields r)).mapError .wire

/-! ## Writing -/

namespace WellKnown

/-- The raw record of a message, read in the way in which its well-known type is written. -/
def recordOf (p : Pool) (m : Message) : Except MappingFault RawRecord :=
  (Wire.read layout m.type (m.encode p)).mapError .wire

/-- The last number under a field's number, as a signed one; zero if there is none. -/
def integerIn (bits number : Nat) (r : RawRecord) : Int :=
  ((r.filterMap fun
    | (n, .varint v) => if n = number then some (Wire.toSigned bits v) else none
    | _ => none).getLast?).getD 0

/-- The texts under a field's number. -/
def textsIn (number : Nat) (r : RawRecord) : List String :=
  r.filterMap fun
    | (n, .text t) => if n = number then some t else none
    | _ => none

/-- The bytes under a field's number. -/
def bytesIn (number : Nat) (r : RawRecord) : Bytes :=
  ((r.filterMap fun
    | (n, .bytes b) => if n = number then some b else none
    | _ => none).getLast?).getD []

/-- The JSON form of a wrapped scalar. A number that is not finite is null. -/
def wrappedJson (s : Scalar) (r : RawRecord) : Json :=
  match ((r.filter (·.1 = 1)).getLast?.map fun f => s.ofRaw f.2).getD s.fallback with
  | .double x => if x.isFinite then .float x else .null
  | .single x => if x.isFinite then .float (x.convert Format.double) else .null
  | v => s.toJson v

/-- The JSON form of what a message holds. -/
def heldJson (v : Held) : Except MappingFault Json :=
  match v.toJson? with
  | some j => .ok j
  | none => .error .notFinite

/-- The JSON form of a message of a well-known type. -/
def toJson (p : Pool) (w : WellKnown) (m : Message) : Except MappingFault Json :=
  match w with
  | .timestamp => do
    let r ← recordOf p m
    match Timestamp.text? ⟨integerIn 64 1 r, integerIn 32 2 r⟩ with
    | some t => return .string t
    | none => .error (.timestamp .range)
  | .duration => do
    let r ← recordOf p m
    match Duration.text? ⟨integerIn 64 1 r, integerIn 32 2 r⟩ with
    | some t => return .string t
    | none => .error (.duration .range)
  | .fieldMask => do
    match FieldMask.text? (textsIn 1 (← recordOf p m)) with
    | some t => return .string t
    | none => .error .maskPath
  | .struct => do heldJson (.object (Held.putMembers [] (← recordOf p m)))
  | .listValue => do heldJson (.list (Held.putItems [] (← recordOf p m)))
  | .value => do heldJson (Held.putAll .null (← recordOf p m))
  | .wrapper s => do return wrappedJson s (← recordOf p m)
  | .empty | .any => .ok (.object [])

end WellKnown

end ServiceCall
