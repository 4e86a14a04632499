import ServiceCall.Schema.Kind
import ServiceCall.Schema.Source
/-!
# Pools of definitions

A pool holds the files that were added to it, every name they define, and the messages,
enums, services and extensions among these with all references resolved. Definitions are
found by their full names.
-/

namespace ServiceCall

/-- The full name of a name inside a scope; the outermost scope has no name. -/
def nameWithin (scope name : String) : String :=
  if scope.isEmpty then name else scope ++ "." ++ name

/-- What a full name stands for. -/
inductive DefinitionKind where
  | package
  | message
  | field
  | oneof
  | enumeration
  | enumValue
  | service
  | method
  | extension
  deriving DecidableEq, Repr

/-- A definition can hold others, so its name can be the first part of a longer one. -/
def DefinitionKind.isParent : DefinitionKind → Bool
  | .package | .message | .enumeration | .service => true
  | _ => false

/-- A name with what it stands for and the file that defines it. -/
structure Definition where
  name : String
  kind : DefinitionKind
  file : String
  deriving DecidableEq, Repr

/-- A field of a message, or an extension. -/
structure Field where
  name : String
  fullName : String
  number : Nat
  jsonName : String
  kind : Kind
  isRepeated : Bool
  /-- Being unset is told apart from holding the default. -/
  hasPresence : Bool
  /-- A list is written as one run. -/
  isPacked : Bool
  /-- The place of the field's oneof among those of the message. -/
  oneofIndex : Option Nat
  /-- The declared default. -/
  declaredDefault : Option Value
  deriving Inhabited

/-- A message type. -/
structure MessageType where
  name : String
  fullName : String
  /-- The fields in the order of their declaration. -/
  declared : List Field
  /-- The names of the oneofs. -/
  oneofs : List String
  isMapEntry : Bool
  /-- The numbers that extensions may have. -/
  extensionRanges : List Source.NumberRange
  /-- The numbers that neither fields nor extensions may have. -/
  reserved : List Source.NumberRange
  deriving Inhabited

/-- A value of an enum. -/
abbrev EnumValue := Source.EnumValue

/-- An enum type. -/
structure EnumType where
  name : String
  fullName : String
  values : List EnumValue
  deriving Inhabited

/-- A method of a service. -/
structure Method where
  name : String
  fullName : String
  /-- The full names of the input and output types. -/
  input : String
  output : String
  clientStreaming : Bool
  serverStreaming : Bool
  deriving DecidableEq, Repr, Inhabited

/-- A service. -/
structure Service where
  name : String
  fullName : String
  methods : List Method
  deriving DecidableEq, Repr, Inhabited

/-- A field that extends a message. -/
structure Extension where
  field : Field
  /-- The full name of the extended message. -/
  extendee : String
  deriving Inhabited

/-- A file with what other files may see through it. -/
structure PoolFile where
  name : String
  dependencies : List String
  publicDependencies : List String
  deriving DecidableEq, Repr

/-- A pool. -/
structure Pool where
  files : List PoolFile
  names : List Definition
  messages : List MessageType
  enums : List EnumType
  services : List Service
  extensions : List Extension
  deriving Inhabited

namespace Pool

/-- The pool without definitions. -/
def empty : Pool := ⟨[], [], [], [], [], []⟩

/-- The message type that a resolved reference names. -/
def referredMessage? (p : Pool) (fullName : String) : Option MessageType :=
  p.messages.find? (·.fullName == fullName)

/-- The enum that a resolved reference names. -/
def referredEnum? (p : Pool) (fullName : String) : Option EnumType :=
  p.enums.find? (·.fullName == fullName)

/-- A name may be looked up with a dot in front. -/
def bareName (name : String) : String :=
  match name.toList with
  | '.' :: rest => String.ofList rest
  | _ => name

def message? (p : Pool) (name : String) : Option MessageType := p.referredMessage? (bareName name)

def enum? (p : Pool) (name : String) : Option EnumType := p.referredEnum? (bareName name)

def service? (p : Pool) (name : String) : Option Service :=
  p.services.find? (·.fullName == bareName name)

/-- The message type of a full name; one without fields if there is none. -/
def messageType (p : Pool) (fullName : String) : MessageType :=
  (p.referredMessage? fullName).getD ⟨fullName, fullName, [], [], false, [], []⟩

/-- The entry type of a map field. -/
def mapEntry? (p : Pool) (f : Field) : Option MessageType :=
  match f.isRepeated, f.kind with
  | true, .message name | true, .group name => (p.referredMessage? name).filter (·.isMapEntry)
  | _, _ => none

def isMap (p : Pool) (f : Field) : Bool := (p.mapEntry? f).isSome

/-- A repeated field that is no map. -/
def isList (p : Pool) (f : Field) : Bool := f.isRepeated && !p.isMap f

/-- The extensions of a message type. -/
def extensionsOf (p : Pool) (type : String) : List Field :=
  (p.extensions.filter (·.extendee == type)).map (·.field)

/-- The value of a kind that is not set: an enum's is its first value. -/
def kindDefault (p : Pool) : Kind → Value
  | .scalar s => s.fallback
  | .enumeration name =>
    match p.referredEnum? name with
    | some ⟨_, _, v :: _⟩ => .integer v.number
    | _ => .integer 0
  | .message name | .group name => .record (.empty name)

/-- The value of a field that is not set. -/
def fieldDefault (p : Pool) (f : Field) : Value :=
  if p.isMap f then .map []
  else if f.isRepeated then .list []
  else match f.declaredDefault with
    | some v => v
    | none => p.kindDefault f.kind

end Pool

namespace MessageType

/-- Puts a field into the ascending order of numbers. -/
def insertField (f : Field) : List Field → List Field
  | [] => [f]
  | g :: rest => if f.number < g.number then f :: g :: rest else g :: insertField f rest

/-- The fields in ascending order of their numbers. -/
def fields (t : MessageType) : List Field := t.declared.foldr insertField []

/-- The field of a number. -/
def field? (t : MessageType) (number : Nat) : Option Field :=
  t.declared.find? (·.number == number)

/-- The numbers of the fields of a oneof. -/
def oneofNumbers (t : MessageType) (index : Nat) : List Nat :=
  (t.declared.filter (·.oneofIndex == some index)).map (·.number)

end MessageType

namespace EnumType

/-- The first value of a number. -/
def valueOf? (e : EnumType) (number : Int) : Option EnumValue := e.values.find? (·.number == number)

/-- The value of a name. -/
def valueNamed? (e : EnumType) (name : String) : Option EnumValue := e.values.find? (·.name == name)

end EnumType

namespace Pool

/-- The field of a number: of the message type itself, or an extension of it. -/
def field? (p : Pool) (type : String) (number : Nat) : Option Field :=
  (p.messageType type).field? number <|> (p.extensionsOf type).find? (·.number == number)

/-- How the fields of messages are written. -/
def layout (p : Pool) : Wire.Layout where
  field? := fun type number =>
    (p.field? type number).map fun f =>
      ⟨if p.isMap f then .entry f.kind.name false else f.kind.slot,
        f.isRepeated && f.kind.isPackable, none⟩
  strict := false

end Pool

end ServiceCall
