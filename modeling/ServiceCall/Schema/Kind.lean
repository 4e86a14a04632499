import ServiceCall.Message.Value
/-!
# Kinds of fields

The scalar types with their names and the way each is written, and the kinds of fields:
scalars, enums, messages, and messages that are written as groups.
-/

namespace ServiceCall

/-- The scalar types. -/
inductive Scalar where
  | double
  | float
  | int64
  | uint64
  | int32
  | fixed64
  | fixed32
  | bool
  | string
  | bytes
  | uint32
  | sfixed32
  | sfixed64
  | sint32
  | sint64
  deriving DecidableEq, Repr

namespace Scalar

def name : Scalar → String
  | double => "double"
  | float => "float"
  | int64 => "int64"
  | uint64 => "uint64"
  | int32 => "int32"
  | fixed64 => "fixed64"
  | fixed32 => "fixed32"
  | bool => "bool"
  | string => "string"
  | bytes => "bytes"
  | uint32 => "uint32"
  | sfixed32 => "sfixed32"
  | sfixed64 => "sfixed64"
  | sint32 => "sint32"
  | sint64 => "sint64"

/-- How a value is written. -/
def slot : Scalar → Wire.Slot
  | double | fixed64 | sfixed64 => .fixed64
  | float | fixed32 | sfixed32 => .fixed32
  | string => .text
  | bytes => .bytes
  | int64 | uint64 | int32 | bool | uint32 | sint32 | sint64 => .varint

/-- Texts and byte strings cannot be packed. -/
def isPackable : Scalar → Bool
  | string | bytes => false
  | _ => true

/-- The value of a field that is not set. -/
def fallback : Scalar → Value
  | double => .double (Floating.zero _ false)
  | float => .single (Floating.zero _ false)
  | bool => .bool false
  | string => .text ""
  | bytes => .bytes []
  | int64 | uint64 | int32 | fixed64 | fixed32 | uint32 | sfixed32 | sfixed64 | sint32 | sint64 =>
    .integer 0

end Scalar

/-- What the values of a field are. Types are named by their full names. -/
inductive Kind where
  | scalar (s : Scalar)
  | enumeration (name : String)
  | message (name : String)
  | group (name : String)
  deriving DecidableEq, Repr, Inhabited

namespace Kind

/-- The text of a kind: a scalar's name or a type's full name. -/
def name : Kind → String
  | scalar s => s.name
  | enumeration n | message n | group n => n

/-- How a value is written. -/
def slot : Kind → Wire.Slot
  | scalar s => s.slot
  | enumeration _ => .varint
  | message n => .record n
  | group n => .group n

def isPackable : Kind → Bool
  | scalar s => s.isPackable
  | enumeration _ => true
  | message _ | group _ => false

end Kind

end ServiceCall
