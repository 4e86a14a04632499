import ServiceCall.Schema.Resolve
import ServiceCall.Schema.Source
/-!
# The pool of the standard types

The files that every pool of a host knows, with those in which a compiler writes about files, and
the pool that they make.
-/

namespace ServiceCall.Standard

/-! ## The standard types

The files that every pool of a host knows: wrappers, times, structures and the other types
that come with the language.
-/

/-- A field of a type given by its number. -/
def field (code : Int) (name : String) (number : Int) : Source.Field where
  name
  number
  label := .optional
  typeCode := code
  typeName := ""
  extendee := none
  defaultValue := none
  oneofIndex := none
  jsonName := none
  packed := none
  proto3Optional := false

def double : String → Int → Source.Field := field 1
def float : String → Int → Source.Field := field 2
def int64 : String → Int → Source.Field := field 3
def uint64 : String → Int → Source.Field := field 4
def int32 : String → Int → Source.Field := field 5
def bool : String → Int → Source.Field := field 8
def text : String → Int → Source.Field := field 9
def bytes : String → Int → Source.Field := field 12
def uint32 : String → Int → Source.Field := field 13

/-- A field of a message type. -/
def nested (type name : String) (number : Int) : Source.Field :=
  { field 11 name number with typeName := ".google.protobuf." ++ type }

/-- A field of an enum type. -/
def choice (type name : String) (number : Int) : Source.Field :=
  { field 14 name number with typeName := ".google.protobuf." ++ type }

/-- The field as a list. -/
def many (f : Source.Field) : Source.Field := { f with label := .repeated }

/-- The field in the first oneof. -/
def within (f : Source.Field) : Source.Field := { f with oneofIndex := some 0 }

/-- A message with fields. -/
def message (name : String) (fields : List Source.Field) : Source.MessageType where
  name
  fields
  oneofs := []
  messages := []
  enums := []
  extensions := []
  extensionRanges := []
  reserved := []
  mapEntry := false

/-- An enum with values. -/
def choices (name : String) (values : List (String × Int)) : Source.Enumeration where
  name
  values := values.map fun (n, i) => ⟨n, i⟩
  reserved := []
  allowAlias := false

/-- A file of the package. -/
def file (name : String) (dependencies : List String) (messages : List Source.MessageType)
    (enums : List Source.Enumeration) : Source.File where
  name := "google/protobuf/" ++ name ++ ".proto"
  package := "google.protobuf"
  dependencies := dependencies.map fun d => "google/protobuf/" ++ d ++ ".proto"
  publicDependencies := []
  weakDependencies := []
  messages
  enums
  services := []
  extensions := []
  edition := .proto3
  options := []

def any : Source.File := file "any" [] [message "Any" [text "type_url" 1, bytes "value" 2]] []

def sourceContext : Source.File :=
  file "source_context" [] [message "SourceContext" [text "file_name" 1]] []

def typeFile : Source.File :=
  file "type" ["any", "source_context"]
    [message "Type" [text "name" 1, many (nested "Field" "fields" 2), many (text "oneofs" 3),
      many (nested "Option" "options" 4), nested "SourceContext" "source_context" 5,
      choice "Syntax" "syntax" 6],
    { message "Field" [choice "Field.Kind" "kind" 1, choice "Field.Cardinality" "cardinality" 2,
        int32 "number" 3, text "name" 4, text "type_url" 6, int32 "oneof_index" 7,
        bool "packed" 8, many (nested "Option" "options" 9), text "json_name" 10,
        text "default_value" 11] with
      enums := [
        choices "Kind" [("TYPE_UNKNOWN", 0), ("TYPE_DOUBLE", 1), ("TYPE_FLOAT", 2),
          ("TYPE_INT64", 3), ("TYPE_UINT64", 4), ("TYPE_INT32", 5), ("TYPE_FIXED64", 6),
          ("TYPE_FIXED32", 7), ("TYPE_BOOL", 8), ("TYPE_STRING", 9), ("TYPE_GROUP", 10),
          ("TYPE_MESSAGE", 11), ("TYPE_BYTES", 12), ("TYPE_UINT32", 13), ("TYPE_ENUM", 14),
          ("TYPE_SFIXED32", 15), ("TYPE_SFIXED64", 16), ("TYPE_SINT32", 17),
          ("TYPE_SINT64", 18)],
        choices "Cardinality" [("CARDINALITY_UNKNOWN", 0), ("CARDINALITY_OPTIONAL", 1),
          ("CARDINALITY_REQUIRED", 2), ("CARDINALITY_REPEATED", 3)]] },
    message "Enum" [text "name" 1, many (nested "EnumValue" "enumvalue" 2),
      many (nested "Option" "options" 3), nested "SourceContext" "source_context" 4,
      choice "Syntax" "syntax" 5],
    message "EnumValue" [text "name" 1, int32 "number" 2, many (nested "Option" "options" 3)],
    message "Option" [text "name" 1, nested "Any" "value" 2]]
    [choices "Syntax" [("SYNTAX_PROTO2", 0), ("SYNTAX_PROTO3", 1)]]

def api : Source.File :=
  file "api" ["source_context", "type"]
    [message "Api" [text "name" 1, many (nested "Method" "methods" 2),
      many (nested "Option" "options" 3), text "version" 4,
      nested "SourceContext" "source_context" 5, many (nested "Mixin" "mixins" 6),
      choice "Syntax" "syntax" 7],
    message "Method" [text "name" 1, text "request_type_url" 2, bool "request_streaming" 3,
      text "response_type_url" 4, bool "response_streaming" 5,
      many (nested "Option" "options" 6), choice "Syntax" "syntax" 7],
    message "Mixin" [text "name" 1, text "root" 2]] []

def duration : Source.File :=
  file "duration" [] [message "Duration" [int64 "seconds" 1, int32 "nanos" 2]] []

def empty : Source.File := file "empty" [] [message "Empty" []] []

def fieldMask : Source.File := file "field_mask" [] [message "FieldMask" [many (text "paths" 1)]] []

def struct : Source.File :=
  file "struct" []
    [{ message "Struct" [many (nested "Struct.FieldsEntry" "fields" 1)] with
      messages := [{ message "FieldsEntry" [text "key" 1, nested "Value" "value" 2] with
        mapEntry := true }] },
    { message "Value" [within (choice "NullValue" "null_value" 1),
        within (double "number_value" 2), within (text "string_value" 3),
        within (bool "bool_value" 4), within (nested "Struct" "struct_value" 5),
        within (nested "ListValue" "list_value" 6)] with
      oneofs := ["kind"] },
    message "ListValue" [many (nested "Value" "values" 1)]]
    [choices "NullValue" [("NULL_VALUE", 0)]]

def timestamp : Source.File :=
  file "timestamp" [] [message "Timestamp" [int64 "seconds" 1, int32 "nanos" 2]] []

def wrappers : Source.File :=
  file "wrappers" []
    [message "DoubleValue" [double "value" 1], message "FloatValue" [float "value" 1],
    message "Int64Value" [int64 "value" 1], message "UInt64Value" [uint64 "value" 1],
    message "Int32Value" [int32 "value" 1], message "UInt32Value" [uint32 "value" 1],
    message "BoolValue" [bool "value" 1], message "StringValue" [text "value" 1],
    message "BytesValue" [bytes "value" 1]] []

/-! ## The types that describe files

The messages in which a compiler writes about files, and those in which it talks to its
plugins.
-/

/-- The field with a default. -/
def fallback (value : String) (f : Source.Field) : Source.Field :=
  { f with defaultValue := some value }

/-- The field must be set. -/
def required (f : Source.Field) : Source.Field := { f with label := .required }

/-- The options that no compiler interprets yet. -/
def uninterpreted : Source.Field := many (nested "UninterpretedOption" "uninterpreted_option" 999)

/-- Options, which users may extend. -/
def options (name : String) (fields : List Source.Field) : Source.MessageType :=
  { message name (fields ++ [uninterpreted]) with extensionRanges := [⟨1000, 536870912⟩] }

/-- Lists of numbers that are written as one run. -/
def packed (f : Source.Field) : Source.Field := { f with label := .repeated, packed := some true }

def range (fields : List Source.Field) (name : String) : Source.MessageType :=
  message name ([int32 "start" 1, int32 "end" 2] ++ fields)

def fileTypes : List Source.MessageType := [
  message "FileDescriptorSet" [many (nested "FileDescriptorProto" "file" 1)],
  message "FileDescriptorProto" [text "name" 1, text "package" 2, many (text "dependency" 3),
    many (int32 "public_dependency" 10), many (int32 "weak_dependency" 11),
    many (nested "DescriptorProto" "message_type" 4),
    many (nested "EnumDescriptorProto" "enum_type" 5),
    many (nested "ServiceDescriptorProto" "service" 6),
    many (nested "FieldDescriptorProto" "extension" 7), nested "FileOptions" "options" 8,
    nested "SourceCodeInfo" "source_code_info" 9, text "syntax" 12],
  { message "DescriptorProto" [text "name" 1, many (nested "FieldDescriptorProto" "field" 2),
      many (nested "FieldDescriptorProto" "extension" 6),
      many (nested "DescriptorProto" "nested_type" 3),
      many (nested "EnumDescriptorProto" "enum_type" 4),
      many (nested "DescriptorProto.ExtensionRange" "extension_range" 5),
      many (nested "OneofDescriptorProto" "oneof_decl" 8), nested "MessageOptions" "options" 7,
      many (nested "DescriptorProto.ReservedRange" "reserved_range" 9),
      many (text "reserved_name" 10)] with
    messages := [range [nested "ExtensionRangeOptions" "options" 3] "ExtensionRange",
      range [] "ReservedRange"] },
  options "ExtensionRangeOptions" [],
  { message "FieldDescriptorProto" [text "name" 1, int32 "number" 3,
      choice "FieldDescriptorProto.Label" "label" 4, choice "FieldDescriptorProto.Type" "type" 5,
      text "type_name" 6, text "extendee" 2, text "default_value" 7, int32 "oneof_index" 9,
      text "json_name" 10, nested "FieldOptions" "options" 8, bool "proto3_optional" 17] with
    enums := [
      choices "Type" [("TYPE_DOUBLE", 1), ("TYPE_FLOAT", 2), ("TYPE_INT64", 3),
        ("TYPE_UINT64", 4), ("TYPE_INT32", 5), ("TYPE_FIXED64", 6), ("TYPE_FIXED32", 7),
        ("TYPE_BOOL", 8), ("TYPE_STRING", 9), ("TYPE_GROUP", 10), ("TYPE_MESSAGE", 11),
        ("TYPE_BYTES", 12), ("TYPE_UINT32", 13), ("TYPE_ENUM", 14), ("TYPE_SFIXED32", 15),
        ("TYPE_SFIXED64", 16), ("TYPE_SINT32", 17), ("TYPE_SINT64", 18)],
      choices "Label" [("LABEL_OPTIONAL", 1), ("LABEL_REQUIRED", 2), ("LABEL_REPEATED", 3)]] },
  message "OneofDescriptorProto" [text "name" 1, nested "OneofOptions" "options" 2],
  { message "EnumDescriptorProto" [text "name" 1,
      many (nested "EnumValueDescriptorProto" "value" 2), nested "EnumOptions" "options" 3,
      many (nested "EnumDescriptorProto.EnumReservedRange" "reserved_range" 4),
      many (text "reserved_name" 5)] with
    messages := [range [] "EnumReservedRange"] },
  message "EnumValueDescriptorProto" [text "name" 1, int32 "number" 2,
    nested "EnumValueOptions" "options" 3],
  message "ServiceDescriptorProto" [text "name" 1,
    many (nested "MethodDescriptorProto" "method" 2), nested "ServiceOptions" "options" 3],
  message "MethodDescriptorProto" [text "name" 1, text "input_type" 2, text "output_type" 3,
    nested "MethodOptions" "options" 4, fallback "false" (bool "client_streaming" 5),
    fallback "false" (bool "server_streaming" 6)]]

def optionTypes : List Source.MessageType := [
  { options "FileOptions" [text "java_package" 1, text "java_outer_classname" 8,
      fallback "false" (bool "java_multiple_files" 10),
      bool "java_generate_equals_and_hash" 20,
      fallback "false" (bool "java_string_check_utf8" 27),
      fallback "SPEED" (choice "FileOptions.OptimizeMode" "optimize_for" 9), text "go_package" 11,
      fallback "false" (bool "cc_generic_services" 16),
      fallback "false" (bool "java_generic_services" 17),
      fallback "false" (bool "py_generic_services" 18),
      fallback "false" (bool "php_generic_services" 42), fallback "false" (bool "deprecated" 23),
      fallback "true" (bool "cc_enable_arenas" 31), text "objc_class_prefix" 36,
      text "csharp_namespace" 37, text "swift_prefix" 39, text "php_class_prefix" 40,
      text "php_namespace" 41, text "php_metadata_namespace" 44, text "ruby_package" 45] with
    enums := [choices "OptimizeMode" [("SPEED", 1), ("CODE_SIZE", 2), ("LITE_RUNTIME", 3)]]
    reserved := [⟨38, 39⟩] },
  { options "MessageOptions" [fallback "false" (bool "message_set_wire_format" 1),
      fallback "false" (bool "no_standard_descriptor_accessor" 2),
      fallback "false" (bool "deprecated" 3), bool "map_entry" 7] with
    reserved := [⟨4, 5⟩, ⟨5, 6⟩, ⟨6, 7⟩, ⟨8, 9⟩, ⟨9, 10⟩] },
  { options "FieldOptions" [fallback "STRING" (choice "FieldOptions.CType" "ctype" 1),
      bool "packed" 2, fallback "JS_NORMAL" (choice "FieldOptions.JSType" "jstype" 6),
      fallback "false" (bool "lazy" 5), fallback "false" (bool "deprecated" 3),
      fallback "false" (bool "weak" 10)] with
    enums := [choices "CType" [("STRING", 0), ("CORD", 1), ("STRING_PIECE", 2)],
      choices "JSType" [("JS_NORMAL", 0), ("JS_STRING", 1), ("JS_NUMBER", 2)]]
    reserved := [⟨4, 5⟩] },
  options "OneofOptions" [],
  { options "EnumOptions" [bool "allow_alias" 2, fallback "false" (bool "deprecated" 3)] with
    reserved := [⟨5, 6⟩] },
  options "EnumValueOptions" [fallback "false" (bool "deprecated" 1)],
  options "ServiceOptions" [fallback "false" (bool "deprecated" 33)],
  { options "MethodOptions" [fallback "false" (bool "deprecated" 33),
      fallback "IDEMPOTENCY_UNKNOWN"
        (choice "MethodOptions.IdempotencyLevel" "idempotency_level" 34)] with
    enums := [choices "IdempotencyLevel" [("IDEMPOTENCY_UNKNOWN", 0), ("NO_SIDE_EFFECTS", 1),
      ("IDEMPOTENT", 2)]] },
  { message "UninterpretedOption" [many (nested "UninterpretedOption.NamePart" "name" 2),
      text "identifier_value" 3, uint64 "positive_int_value" 4, int64 "negative_int_value" 5,
      double "double_value" 6, bytes "string_value" 7, text "aggregate_value" 8] with
    messages := [message "NamePart" [required (text "name_part" 1),
      required (bool "is_extension" 2)]] },
  { message "SourceCodeInfo" [many (nested "SourceCodeInfo.Location" "location" 1)] with
    messages := [message "Location" [packed (int32 "path" 1), packed (int32 "span" 2),
      text "leading_comments" 3, text "trailing_comments" 4,
      many (text "leading_detached_comments" 6)]] },
  { message "GeneratedCodeInfo" [many (nested "GeneratedCodeInfo.Annotation" "annotation" 1)] with
    messages := [message "Annotation" [packed (int32 "path" 1), text "source_file" 2,
      int32 "begin" 3, int32 "end" 4]] }]

def descriptor : Source.File :=
  { file "descriptor" [] (fileTypes ++ optionTypes) [] with edition := .proto2 }

def plugin : Source.File :=
  { file "compiler/plugin" ["descriptor"]
      [message "Version" [int32 "major" 1, int32 "minor" 2, int32 "patch" 3, text "suffix" 4],
      message "CodeGeneratorRequest" [many (text "file_to_generate" 1), text "parameter" 2,
        many (nested "FileDescriptorProto" "proto_file" 15),
        nested "compiler.Version" "compiler_version" 3],
      { message "CodeGeneratorResponse" [text "error" 1, uint64 "supported_features" 2,
          many (nested "compiler.CodeGeneratorResponse.File" "file" 15)] with
        messages := [message "File" [text "name" 1, text "insertion_point" 2, text "content" 15,
          nested "GeneratedCodeInfo" "generated_code_info" 16]]
        enums := [choices "Feature" [("FEATURE_NONE", 0), ("FEATURE_PROTO3_OPTIONAL", 1)]] }] []
    with
    package := "google.protobuf.compiler"
    edition := .proto2 }

/-- The standard files, each behind those it imports. -/
def files : List Source.File :=
  [any, sourceContext, typeFile, api, descriptor, duration, empty, fieldMask, struct, timestamp,
    wrappers, plugin]

end ServiceCall.Standard

namespace ServiceCall.Pool

/-! ## The pool of the standard types -/

/-- The pool of a set of files; the pool without definitions if the set is refused. -/
def ofFiles (set : List Source.File) : Pool := (empty.add set).toOption.getD empty

/-- The pool that holds the standard files. -/
def standard : Pool := ofFiles Standard.files

end ServiceCall.Pool
