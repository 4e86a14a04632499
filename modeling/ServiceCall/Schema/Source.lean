import ServiceCall.Wire.Raw
/-!
# Compiled files

What a compiler writes about its sources: files with messages, enums, services and
extensions, every type that a field or method refers to still by a name. `FileSet.read`
takes a set of files from its bytes. Options are read as far as they are known here, and kept
beside the files for those who know more of them.
-/

namespace ServiceCall.Source

/-- How often a field occurs. -/
inductive Label where
  | optional
  | required
  | repeated
  deriving DecidableEq, Repr, Inhabited

/-- A field or an extension as it is declared. -/
structure Field where
  name : String
  number : Int
  label : Label
  /-- The number of the declared type. -/
  typeCode : Int
  typeName : String
  /-- The message that an extension is for. A field that is none may name one all the same. -/
  extendee : Option String
  defaultValue : Option String
  oneofIndex : Option Int
  jsonName : Option String
  /-- Whether values are to be packed, if that is said. -/
  packed : Option Bool
  proto3Optional : Bool
  deriving Repr, Inhabited

/-- A range of numbers from `first` up to but without `stop`. -/
structure NumberRange where
  first : Int
  stop : Int
  deriving DecidableEq, Repr

/-- A value of an enum. -/
structure EnumValue where
  name : String
  number : Int
  deriving DecidableEq, Repr, Inhabited

/-- An enum as it is declared. Its reserved ranges include their last numbers. -/
structure Enumeration where
  name : String
  values : List EnumValue
  reserved : List NumberRange
  allowAlias : Bool
  deriving Repr, Inhabited

/-- A message as it is declared. -/
structure MessageType where
  name : String
  fields : List Field
  oneofs : List String
  messages : List MessageType
  enums : List Enumeration
  extensions : List Field
  extensionRanges : List NumberRange
  reserved : List NumberRange
  mapEntry : Bool
  deriving Inhabited

/-- A method as it is declared. -/
structure Method where
  name : String
  input : String
  output : String
  clientStreaming : Bool
  serverStreaming : Bool
  deriving Repr, Inhabited

/-- A service as it is declared. -/
structure Service where
  name : String
  methods : List Method
  deriving Repr, Inhabited

/-- The two versions of the language. They differ in what is checked and in defaults. -/
inductive Edition where
  | proto2
  | proto3
  deriving DecidableEq, Repr, Inhabited

/-- A compiled file. -/
structure File where
  name : String
  package : String
  dependencies : List String
  publicDependencies : List Int
  weakDependencies : List Int
  messages : List MessageType
  enums : List Enumeration
  services : List Service
  extensions : List Field
  edition : Edition
  /-- The options of the file and of what it declares, each with the name of its type. -/
  options : List (String × Wire.RawRecord)
  deriving Inhabited

/-! ## Reading the parts of a raw record -/

open Wire (Raw RawRecord FieldSlot Slot)

/-- All values of a field, runs taken apart. -/
def valuesOf (r : RawRecord) (number : Nat) : List Raw :=
  (r.filter (·.1 = number)).flatMap fun (_, v) =>
    match v with
    | .packed items => items
    | v => [v]

/-- The value of a field that occurs once: the last one counts. -/
def value? (r : RawRecord) (number : Nat) : Option Raw := (valuesOf r number).getLast?

def texts (r : RawRecord) (number : Nat) : List String :=
  (valuesOf r number).filterMap fun
    | .text s => some s
    | _ => none

def text? (r : RawRecord) (number : Nat) : Option String := (texts r number).getLast?

def text (r : RawRecord) (number : Nat) : String := (text? r number).getD ""

def integers (r : RawRecord) (number : Nat) : List Int :=
  (valuesOf r number).filterMap fun
    | .varint n => some (Wire.toSigned 32 n)
    | _ => none

def integer? (r : RawRecord) (number : Nat) : Option Int := (integers r number).getLast?

def integer (r : RawRecord) (number : Nat) : Int := (integer? r number).getD 0

def flag? (r : RawRecord) (number : Nat) : Option Bool :=
  match value? r number with
  | some (.varint n) => some (n ≠ 0)
  | _ => none

def flag (r : RawRecord) (number : Nat) : Bool := (flag? r number).getD false

def records (r : RawRecord) (number : Nat) : List RawRecord :=
  (valuesOf r number).filterMap fun
    | .record fields => some fields
    | _ => none

/-- A nested record that occurs once: its occurrences are merged. -/
def record? (r : RawRecord) (number : Nat) : Option RawRecord :=
  match records r number with
  | [] => none
  | rs => some rs.flatten

/-! ## The parts of a file set -/

namespace Field

def ofRecord (r : RawRecord) : Field where
  name := text r 1
  number := integer r 3
  label := match integer r 4 with
    | 2 => .required
    | 3 => .repeated
    | _ => .optional
  typeCode := integer r 5
  typeName := text r 6
  extendee := text? r 2
  defaultValue := text? r 7
  oneofIndex := integer? r 9
  jsonName := text? r 10
  packed := (record? r 8).bind (flag? · 2)
  proto3Optional := flag r 17

end Field

def NumberRange.ofRecord (r : RawRecord) : NumberRange := ⟨integer r 1, integer r 2⟩

def EnumValue.ofRecord (r : RawRecord) : EnumValue := ⟨text r 1, integer r 2⟩

def Enumeration.ofRecord (r : RawRecord) : Enumeration where
  name := text r 1
  values := (records r 2).map EnumValue.ofRecord
  reserved := (records r 4).map NumberRange.ofRecord
  allowAlias := match record? r 3 with
    | some options => flag options 2
    | none => false

/-- The message of a record; messages may be nested to the given depth. -/
def MessageType.ofRecord : Nat → RawRecord → MessageType
  | 0, _ => default
  | depth + 1, r => {
      name := text r 1
      fields := (records r 2).map Field.ofRecord
      oneofs := (records r 8).map fun o => text o 1
      messages := (records r 3).map (MessageType.ofRecord depth)
      enums := (records r 4).map Enumeration.ofRecord
      extensions := (records r 6).map Field.ofRecord
      extensionRanges := (records r 5).map NumberRange.ofRecord
      reserved := (records r 9).map NumberRange.ofRecord
      mapEntry := match record? r 7 with
        | some options => flag options 7
        | none => false }

def Method.ofRecord (r : RawRecord) : Method :=
  ⟨text r 1, text r 2, text r 3, flag r 5, flag r 6⟩

def Service.ofRecord (r : RawRecord) : Service := ⟨text r 1, (records r 2).map Method.ofRecord⟩

/-! ## The layout of a file set -/

/-- A field that occurs once. -/
def once (s : Slot) : FieldSlot := ⟨s, false, none⟩

/-- Numbers that may stand in a run. -/
def many : FieldSlot := ⟨.varint, true, none⟩

/-- The fields of the records of a file set: its numbers, its lists of numbers, its texts and its
nested records. -/
structure Columns where
  varints : List Nat
  runs : List Nat
  texts : List Nat
  nested : List (Nat × String)

/-- The type of the nested record under a number. -/
def Columns.nested? (c : Columns) (number : Nat) : Option String :=
  (c.nested.find? (·.1 = number)).map (·.2)

def Columns.slot? (c : Columns) (number : Nat) : Option FieldSlot :=
  if c.varints.contains number then some (once .varint)
  else if c.runs.contains number then some many
  else if c.texts.contains number then some (once .text)
  else (c.nested? number).map fun t => once (.record t)

/-- Options, all of which may hold what no compiler has interpreted. -/
def optionColumns (varints : List Nat) (texts : List Nat) (nested : List (Nat × String)) :
    Columns :=
  ⟨varints, [], texts, (999, "UninterpretedOption") :: nested⟩

/-- The fields of the options of a type. -/
def options? : String → Option Columns
  | "FileOptions" =>
    some (optionColumns [9, 10, 16, 17, 18, 20, 23, 27, 31, 42]
      [1, 8, 11, 36, 37, 39, 40, 41, 44, 45] [(50, "FeatureSet")])
  | "MessageOptions" => some (optionColumns [1, 2, 3, 7, 11] [] [(12, "FeatureSet")])
  | "FieldOptions" =>
    some { optionColumns [1, 2, 3, 5, 6, 10, 15, 16, 17] []
        [(20, "EditionDefault"), (21, "FeatureSet")] with
      runs := [19] }
  | "OneofOptions" => some (optionColumns [] [] [(1, "FeatureSet")])
  | "EnumOptions" => some (optionColumns [2, 3, 6] [] [(7, "FeatureSet")])
  | "EnumValueOptions" => some (optionColumns [1, 3] [] [(2, "FeatureSet")])
  | "ServiceOptions" => some (optionColumns [33] [] [(34, "FeatureSet")])
  | "MethodOptions" => some (optionColumns [33, 34] [] [(35, "FeatureSet")])
  | "ExtensionRangeOptions" =>
    some (optionColumns [3] [] [(2, "Declaration"), (50, "FeatureSet")])
  | _ => none

/-- The fields of the records of a type. -/
def columns (type : String) : Columns :=
  match type with
  | "FileSet" => ⟨[], [], [], [(1, "File")]⟩
  | "File" =>
    ⟨[14], [10, 11], [1, 2, 3, 12], [(4, "Message"), (5, "Enum"), (6, "Service"), (7, "Field"),
      (8, "FileOptions"), (9, "SourceInfo")]⟩
  | "Message" =>
    ⟨[], [], [1, 10], [(2, "Field"), (3, "Message"), (4, "Enum"), (5, "ExtensionRange"),
      (6, "Field"), (7, "MessageOptions"), (8, "Oneof"), (9, "Range")]⟩
  | "Range" => ⟨[1, 2], [], [], []⟩
  | "ExtensionRange" => ⟨[1, 2], [], [], [(3, "ExtensionRangeOptions")]⟩
  | "Field" => ⟨[3, 4, 5, 9, 17], [], [1, 2, 6, 7, 10], [(8, "FieldOptions")]⟩
  | "Oneof" => ⟨[], [], [1], [(2, "OneofOptions")]⟩
  | "Enum" => ⟨[], [], [1, 5], [(2, "EnumValue"), (3, "EnumOptions"), (4, "Range")]⟩
  | "EnumValue" => ⟨[2], [], [1], [(3, "EnumValueOptions")]⟩
  | "Service" => ⟨[], [], [1], [(2, "Method"), (3, "ServiceOptions")]⟩
  | "Method" => ⟨[5, 6], [], [1, 2, 3], [(4, "MethodOptions")]⟩
  | "FeatureSet" => ⟨[1, 2, 3, 4, 5, 6], [], [], []⟩
  | "EditionDefault" => ⟨[3], [], [2], []⟩
  | "Declaration" => ⟨[1, 5, 6], [], [2, 3], []⟩
  | "UninterpretedOption" => ⟨[4, 5], [], [3, 8], [(2, "NamePart")]⟩
  | "NamePart" => ⟨[2], [], [1], []⟩
  | "SourceInfo" => ⟨[], [], [], [(1, "Location")]⟩
  | "Location" => ⟨[], [1, 2], [3, 4, 6], []⟩
  | type => (options? type).getD ⟨[], [], [], []⟩

/-- How the records of a file set are written. -/
def layout : Wire.Layout where
  field? := fun type number =>
    if type = "UninterpretedOption" ∧ number = 6 then some (once .fixed64)
    else if type = "UninterpretedOption" ∧ number = 7 then some (once .bytes)
    else (columns type).slot? number
  strict := true

/-! ## Files -/

mutual

/-- The options in a value of a type. -/
def optionsIn (type : Option String) : Raw → List (String × RawRecord)
  | .record fields =>
    match type with
    | some type => if (options? type).isSome then [(type, fields)] else optionsAmong type fields
    | none => []
  | _ => []

/-- The options among the fields of a record of a type. -/
def optionsAmong (type : String) : List (Nat × Raw) → List (String × RawRecord)
  | [] => []
  | (number, v) :: rest =>
    optionsIn ((columns type).nested? number) v ++ optionsAmong type rest

end

def File.ofRecord (r : RawRecord) : File where
  name := text r 1
  package := text r 2
  dependencies := texts r 3
  publicDependencies := integers r 10
  weakDependencies := integers r 11
  messages := (records r 4).map (MessageType.ofRecord Wire.maxDepth)
  enums := (records r 5).map Enumeration.ofRecord
  services := (records r 6).map Service.ofRecord
  extensions := (records r 7).map Field.ofRecord
  edition := if text r 12 = "proto3" then .proto3 else .proto2
  options := optionsAmong "File" r

/-- The files of a set. -/
def FileSet.read (bytes : Bytes) : Except Wire.Fault (List File) :=
  (Wire.read layout "FileSet" bytes).map fun r => (records r 1).map File.ofRecord

end ServiceCall.Source
