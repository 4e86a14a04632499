import ServiceCall.Schema.Kind
/-!
# Well-known types

The message types that have a form of their own in JSON, known by their full names.
-/

namespace ServiceCall

/-- The well-known message types. -/
inductive WellKnown where
  | any
  | timestamp
  | duration
  | fieldMask
  | struct
  | value
  | listValue
  | empty
  /-- A message with one scalar field. -/
  | wrapper (s : Scalar)
  deriving DecidableEq, Repr

namespace WellKnown

/-- The types with their full names. -/
def table : List (String × WellKnown) :=
  [("google.protobuf.Any", any),
    ("google.protobuf.Timestamp", timestamp),
    ("google.protobuf.Duration", duration),
    ("google.protobuf.FieldMask", fieldMask),
    ("google.protobuf.Struct", struct),
    ("google.protobuf.Value", value),
    ("google.protobuf.ListValue", listValue),
    ("google.protobuf.Empty", empty),
    ("google.protobuf.DoubleValue", wrapper .double),
    ("google.protobuf.FloatValue", wrapper .float),
    ("google.protobuf.Int64Value", wrapper .int64),
    ("google.protobuf.UInt64Value", wrapper .uint64),
    ("google.protobuf.Int32Value", wrapper .int32),
    ("google.protobuf.UInt32Value", wrapper .uint32),
    ("google.protobuf.BoolValue", wrapper .bool),
    ("google.protobuf.StringValue", wrapper .string),
    ("google.protobuf.BytesValue", wrapper .bytes)]

/-- The well-known type of a full name. -/
def ofName? (name : String) : Option WellKnown := table.lookup name

/-- The full name of the message that holds any JSON value. -/
def valueName : String := "google.protobuf.Value"

/-- The full name of the enum whose one value is null. -/
def nullName : String := "google.protobuf.NullValue"

end WellKnown

end ServiceCall

/-! ## The records of well-known types

How the well-known types are written, whatever a pool declares under their names: the form
that they have in JSON is taken from records read in this way. A fault inside a field bears
the field's name, except in the wrappers. -/

namespace ServiceCall.WellKnown

open Wire (FieldSlot Slot)

/-- A field with a name. -/
def named (name : String) (slot : Slot) : FieldSlot := ⟨slot, false, some name⟩

/-- The name of the entries of an object. -/
def entryName : String := "google.protobuf.Struct.FieldsEntry"

/-- The full name of the message that holds a list. -/
def listName : String := "google.protobuf.ListValue"

/-- The full name of the message that holds an object. -/
def structName : String := "google.protobuf.Struct"

/-- The fields of a type. All fields of a value are one oneof, whose name a fault bears. -/
def slot? : WellKnown → Nat → Option FieldSlot
  | timestamp, 1 => some (named "Timestamp.seconds" .varint)
  | timestamp, 2 => some (named "Timestamp.nanos" .varint)
  | duration, 1 => some (named "Duration.seconds" .varint)
  | duration, 2 => some (named "Duration.nanos" .varint)
  | fieldMask, 1 => some (named "FieldMask.paths" .text)
  | struct, 1 => some (named "Struct.fields" (.entry entryName true))
  | value, 1 => some (named "Value.kind" .varint)
  | value, 2 => some (named "Value.kind" .fixed64)
  | value, 3 => some (named "Value.kind" .text)
  | value, 4 => some (named "Value.kind" .varint)
  | value, 5 => some (named "Value.kind" (.record structName))
  | value, 6 => some (named "Value.kind" (.record listName))
  | listValue, 1 => some (named "ListValue.values" (.record valueName))
  | any, 1 => some (named "Any.type_url" .text)
  | any, 2 => some (named "Any.value" .bytes)
  | wrapper s, 1 => some ⟨s.slot, false, none⟩
  | _, _ => none

/-- How records of well-known types are written. -/
def layout : Wire.Layout where
  field? := fun type number =>
    match ofName? type with
    | some w => w.slot? number
    | none =>
      if type ≠ entryName then none
      else match number with
        | 1 => some ⟨.text, false, none⟩
        | 2 => some ⟨.record valueName, false, none⟩
        | _ => none
  strict := true

end ServiceCall.WellKnown

/-! ## Type addresses

A message of any type says its type by an address; the type's full name stands behind the
last slash. -/

namespace ServiceCall.TypeUrl

/-- What stands behind the last slash, if there is one. -/
def afterSlash? : List Char → Option (List Char)
  | [] => none
  | c :: rest =>
    match afterSlash? rest with
    | some name => some name
    | none => if c = '/' then some rest else none

/-- The full name that an address gives. -/
def typeName? (url : String) : Option String := (afterSlash? url.toList).map String.ofList

end ServiceCall.TypeUrl
