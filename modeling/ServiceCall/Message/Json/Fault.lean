import ServiceCall.Json.Value
import ServiceCall.Number.Literal
import ServiceCall.Number.Shortest
import ServiceCall.Text.Base64
import ServiceCall.Text.Hidden
import ServiceCall.WellKnown.Time
import ServiceCall.Wire.Varint
/-!
# Why a message and a JSON value do not fit

The reasons for which a JSON value is refused as a message of a type, and those for which a
message has no JSON form, with their wordings.
-/

namespace ServiceCall

/-- What a JSON value should have been. -/
inductive Expected where
  | double
  | float
  | int32
  | uint32
  | int64
  | uint64
  | bool
  | string
  | bytes
  | enumeration
  | object
  | list
  | null
  | emptyObject
  | timestamp
  | duration
  | fieldMask
  deriving DecidableEq, Repr

def Expected.text : Expected → String
  | double => "a 64-bit floating point value"
  | float => "a 32-bit floating point value"
  | int32 => "a 32-bit signed integer"
  | uint32 => "a 32-bit unsigned integer or decimal string"
  | int64 => "a 64-bit signed integer or decimal string"
  | uint64 => "a 64-bit unsigned integer or decimal string"
  | bool => "a boolean"
  | string => "a string"
  | bytes => "a base64-encoded string"
  | enumeration => "a string or integer"
  | object => "a map"
  | list => "a list"
  | null => "null"
  | emptyObject => "an empty map"
  | timestamp => "a rfc3339 timestamp string"
  | duration => "a duration string"
  | fieldMask => "a field mask string"

/-- What a JSON value is, in the wording of an error. -/
def Json.kindText : Json → String
  | null => "null"
  | bool true => "boolean \x60true\x60"
  | bool false => "boolean \x60false\x60"
  | integer i => "integer \x60" ++ toString i ++ "\x60"
  | float x => "floating point \x60" ++ x.plainText ++ "\x60"
  | string s => "string " ++ Text.escaped s
  | array _ => "sequence"
  | object _ => "map"

/-- Why a JSON value is no message, or a message has no JSON form. -/
inductive MappingFault where
  | kind (found : Json) (expected : Expected)
  /-- The value was set aside until the type that it belongs to was known. -/
  | setAside (found : Json) (expected : Expected)
  | integer (f : IntegerFault)
  /-- A floating-point number with a fraction, for an integer. -/
  | notIntegral
  /-- A floating-point number out of the range of the field. -/
  | range
  | literal (f : Floating.LiteralFault)
  | base64 (f : Base64.Fault)
  | enumValue (name : String)
  /-- A text that is not the name of the null value. -/
  | notNull
  /-- A map key that is no boolean. -/
  | booleanKey
  | unknownField (key : String)
  | oneof (name : String)
  | notEmpty
  | timestamp (f : Timestamp.Fault)
  | duration (f : Duration.Fault)
  | fieldMask
  | noTypeUrl
  | typeUrl (url : String)
  | unknownMessage (name : String)
  | noPayload
  | wire (f : Wire.Fault)
  /-- A field mask with a path that camel case would not keep. -/
  | maskPath
  /-- A number that JSON cannot write. -/
  | notFinite

def MappingFault.message : MappingFault → String
  | kind found expected => "invalid type: " ++ found.kindText ++ ", expected " ++ expected.text
  | setAside found expected => "Invalid type " ++
    (match found with
      | .null => "unit value"
      | v => v.kindText) ++ ". Expected " ++ expected.text
  | integer f => f.message
  | notIntegral => "expected integer value"
  | range => "float value out of range"
  | literal f => f.message
  | base64 f => "invalid base64: " ++ f.message
  | enumValue name => "unrecognized enum value '" ++ name ++ "'"
  | notNull => "expected null"
  | booleanKey => "provided string was not \x60true\x60 or \x60false\x60"
  | unknownField key => "unrecognized field name '" ++ key ++ "'"
  | oneof name => "multiple fields provided for oneof '" ++ name ++ "'"
  | notEmpty => "unexpected value in map"
  | timestamp f => f.message
  | duration f => f.message
  | fieldMask => "invalid field mask"
  | noTypeUrl => "expected '@type' field"
  | typeUrl url => "unsupported type url '" ++ url ++ "': missing at least one '/'"
  | unknownMessage name => "message '" ++ name ++ "' not found"
  | noPayload => "expected 'value' field"
  | wire f => "error decoding: " ++ f.message
  | maskPath => "cannot roundtrip field name through camelcase"
  | notFinite => "cannot serialize non-finite double in google.protobuf.Value"

/-- The fault in a value that was set aside. -/
def MappingFault.later : MappingFault → MappingFault
  | kind found expected => setAside found expected
  | f => f

end ServiceCall
