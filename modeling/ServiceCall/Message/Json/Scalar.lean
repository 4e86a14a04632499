import ServiceCall.Message.Json.Fault
import ServiceCall.Schema.Kind
/-!
# Scalars in JSON

The JSON forms of numbers, texts, byte strings and truth values. Integers may be given as
whole floating-point numbers and as texts, floating-point numbers as texts too; integers of
64 bits and numbers that are not finite are written as texts.
-/

namespace ServiceCall

namespace IntegerRange

/-- The integer of a floating-point number. The bounds are rounded to such numbers before the
comparison, and a number beyond the greatest integer counts as that one. -/
def ofDouble (r : IntegerRange) (x : Double) : Except MappingFault Int :=
  if !x.isIntegral then .error .notIntegral
  else if x.geInt r.least && x.leInt (Floating.ofInt Format.double r.greatest).truncate then
    .ok (min x.truncate r.greatest)
  else .error .range

/-- The integer of a JSON value. -/
def ofJson (r : IntegerRange) (expected : Expected) : Json → Except MappingFault Int
  | .integer i =>
    if i < r.least then .error (.integer .tooSmall)
    else if r.greatest < i then .error (.integer .tooLarge)
    else .ok i
  | .float x => r.ofDouble x
  | .string s => (r.read s.toList).mapError .integer
  | v => .error (.kind v expected)

end IntegerRange

namespace Floating

/-- The greatest single-precision number: 24 bits set above 104 bits clear. -/
def largestSingle : Int := 0xFFFFFF00000000000000000000000000

/-- The single-precision number of a double; one beyond the greatest of them has none. -/
def narrow (x : Double) : Except MappingFault Single :=
  if x.geInt (-largestSingle) && x.leInt largestSingle then
    .ok (x.convert Format.single)
  else .error .range

/-- The number of a JSON value. -/
def ofJson (f : Format) (narrow : Double → Except MappingFault (Floating f))
    (expected : Expected) : Json → Except MappingFault (Floating f)
  | .integer i => .ok (ofInt f i)
  | .float x => narrow x
  | .string s => (read f s.toList).mapError .literal
  | v => .error (.kind v expected)

/-- The JSON form of a double. -/
def toJson (x : Double) : Json :=
  if x.isFinite then .float x
  else if x.isNaN then .string "NaN"
  else if x.negative then .string "-Infinity"
  else .string "Infinity"

end Floating

namespace Scalar

/-- The value that a JSON value stands for. -/
def ofJson (s : Scalar) (v : Json) : Except MappingFault Value :=
  match s with
  | .double => .double <$> Floating.ofJson Format.double .ok .double v
  | .float => .single <$> Floating.ofJson Format.single Floating.narrow .float v
  | .int32 | .sint32 | .sfixed32 => .integer <$> IntegerRange.int32.ofJson .int32 v
  | .uint32 | .fixed32 => .integer <$> IntegerRange.uint32.ofJson .uint32 v
  | .int64 | .sint64 | .sfixed64 => .integer <$> IntegerRange.int64.ofJson .int64 v
  | .uint64 | .fixed64 => .integer <$> IntegerRange.uint64.ofJson .uint64 v
  | .bool =>
    match v with
    | .bool b => .ok (.bool b)
    | v => .error (.kind v .bool)
  | .string =>
    match v with
    | .string t => .ok (.text t)
    | v => .error (.kind v .string)
  | .bytes =>
    match v with
    | .string t => .bytes <$> (Base64.decode t).mapError .base64
    | v => .error (.kind v .bytes)

/-- The key that the key of a JSON object stands for. -/
def ofKey (s : Scalar) (key : String) : Except MappingFault Value :=
  let integer (r : IntegerRange) : Except MappingFault Value :=
    .integer <$> (r.read key.toList).mapError .integer
  match s with
  | .int32 | .sint32 | .sfixed32 => integer .int32
  | .uint32 | .fixed32 => integer .uint32
  | .int64 | .sint64 | .sfixed64 => integer .int64
  | .uint64 | .fixed64 => integer .uint64
  | .bool =>
    if key = "true" then .ok (.bool true)
    else if key = "false" then .ok (.bool false)
    else .error .booleanKey
  | .double | .float | .string | .bytes => .ok (.text key)

/-- Integers of the type are written as texts. -/
def isWide : Scalar → Bool
  | .int64 | .sint64 | .sfixed64 | .uint64 | .fixed64 => true
  | _ => false

/-- The JSON form of a value. -/
def toJson (s : Scalar) : Value → Json
  | .bool b => .bool b
  | .integer i => if s.isWide then .string (toString i) else .integer i
  | .single x => Floating.toJson (x.convert Format.double)
  | .double x => Floating.toJson x
  | .text t => .string t
  | .bytes b => .string (Base64.encode b)
  | .record _ | .list _ | .map _ => .null

end Scalar

namespace Value

/-- The key of a JSON object that a map key is written as. -/
def keyText : Value → String
  | .bool b => if b then "true" else "false"
  | .integer i => toString i
  | .text t => t
  | _ => ""

end Value

end ServiceCall
