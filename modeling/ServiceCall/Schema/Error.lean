/-!
# Errors of file sets

Why a set of files cannot be added to a pool, and the text that says so.
-/

namespace ServiceCall

/-- Why a file set is refused. -/
inductive SchemaError where
  | undecodable
  | duplicateFile (name : String)
  /-- The name is defined before: in the same file, or in the named one. -/
  | duplicateName (name : String) (file : Option String)
  | camelCaseConflict (first second : String)
  | emptyEnum
  | firstEnumValue
  | missingImport (name : String)
  | importIndex
  | fieldNumber (n : Int)
  | reservedNumber (n first last : Int)
  | extensionNumber (n first last : Int)
  | missingTypeName (path : List Nat)
  | undefined (name : String)
  | notMessage (name : String)
  | notType (name : String)
  | shadowed (name resolved : String)
  | defaultValue (value type : String)
  | oneofIndex
  | numberUsed (n : Int)
  | jsonNameUsed (name : String)
  | reservedEnumNumber (n first last : Int)
  | enumNumberUsed (n : Int)
  | noExtensionNumber (message : String) (n : Int)
  deriving DecidableEq, Repr

namespace SchemaError

def quoted (s : String) : String := "'" ++ s ++ "'"

def range (first last : Int) : String := quoted (toString first ++ " to " ++ toString last)

def message : SchemaError → String
  | undecodable => "failed to decode file descriptor set"
  | duplicateFile name => "a different file named " ++ quoted name ++ " has already been added"
  | duplicateName name none => "name " ++ quoted name ++ " is defined twice"
  | duplicateName name (some file) =>
    "name " ++ quoted name ++ " is already defined in file " ++ quoted file
  | camelCaseConflict first second =>
    "camel-case name of field " ++ quoted first ++ " conflicts with field " ++ quoted second
  | emptyEnum => "enums must have at least one value"
  | firstEnumValue => "the first value for proto3 enums must be 0"
  | missingImport name => "imported file " ++ quoted name ++ " has not been added"
  | importIndex => "invalid import index"
  | fieldNumber n => "invalid field number " ++ quoted (toString n)
  | reservedNumber n first last =>
    "field number " ++ quoted (toString n) ++ " conflicts with reserved range " ++ range first last
  | extensionNumber n first last =>
    "field number " ++ quoted (toString n) ++ " conflicts with extension range " ++ range first last
  | missingTypeName path =>
    "missing required field at [" ++ ", ".intercalate (path.map toString) ++ "]"
  | undefined name => "name " ++ quoted name ++ " is not defined"
  | notMessage name => quoted name ++ " is not a message type"
  | notType name => quoted name ++ " is not a message or enum type"
  | shadowed name resolved =>
    quoted name ++ " resolves to " ++ quoted resolved ++ ", which is not defined"
  | defaultValue value type =>
    "invalid default value " ++ quoted value ++ " for type " ++ quoted type
  | oneofIndex => "invalid oneof index"
  | numberUsed n => "field number " ++ quoted (toString n) ++ " is already used"
  | jsonNameUsed name => "a field with JSON name " ++ quoted name ++ " is already defined"
  | reservedEnumNumber n first last =>
    "enum number " ++ quoted (toString n) ++ " conflicts with reserved range " ++ range first last
  | enumNumberUsed n => "enum number " ++ quoted (toString n) ++ " has already been used"
  | noExtensionNumber name n =>
    "message " ++ quoted name ++ " does not define " ++ quoted (toString n) ++
      " as an extension number"

end SchemaError

end ServiceCall
