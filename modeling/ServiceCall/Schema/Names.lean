import ServiceCall.Schema.Error
import ServiceCall.Schema.Pool
/-!
# The names of a file set

Every package, message, field, oneof, enum, enum value, service, method and extension takes
its full name in one table, in a fixed order; only packages share names. The name of an
enum's value stands beside the enum and not below it.
-/

namespace ServiceCall.Names

/-- A step that adds names of a file to a table. -/
abbrev Step := List Definition → Except SchemaError (List Definition)

/-- Adds a name. -/
def add (file : String) (kind : DefinitionKind) (name : String) : Step := fun table =>
  match table.find? (·.name == name) with
  | none => .ok (table ++ [⟨name, kind, file⟩])
  | some d =>
    if kind = .package ∧ d.kind = .package then .ok table
    else .error (.duplicateName name (if d.file = file then none else some d.file))

/-- Adds what every item of a list defines. -/
def each (items : List α) (step : α → Step) : Step := fun table =>
  items.foldlM (fun table item => step item table) table

/-- The name by which fields of a message are told apart: small letters without underscores. -/
def squashed (name : String) : String :=
  String.ofList ((name.toList.filter (· ≠ '_')).map Char.toLower)

/-- Two fields whose names differ only in case and underscores. -/
def camelCaseConflict? : List Source.Field → List Source.Field → Option (String × String)
  | _, [] => none
  | seen, f :: rest =>
    match seen.find? fun g => squashed g.name == squashed f.name with
    | some g => some (g.name, f.name)
    | none => camelCaseConflict? (seen ++ [f]) rest

/-- Adds an enum and its values. -/
def enumeration (edition : Source.Edition) (file scope : String) (e : Source.Enumeration) : Step :=
  fun table => do
    let table ← add file .enumeration (nameWithin scope e.name) table
    match e.values with
    | [] => .error .emptyEnum
    | v :: _ =>
      if edition ≠ .proto2 ∧ v.number ≠ 0 then .error .firstEnumValue
      else each e.values (fun v => add file .enumValue (nameWithin scope v.name)) table

mutual

/-- Adds a message and what it holds. -/
def message (edition : Source.Edition) (file scope : String) : Source.MessageType → Step
  | ⟨name, fields, oneofs, messages, enums, extensions, _, _, _⟩ => fun table => do
    let full := nameWithin scope name
    let table ← add file .message full table
    if edition ≠ .proto2 then
      match camelCaseConflict? [] fields with
      | some (a, b) => .error (.camelCaseConflict a b)
      | none => .ok ()
    let table ← each oneofs (fun o => add file .oneof (nameWithin full o)) table
    let table ← each fields (fun f => add file .field (nameWithin full f.name)) table
    let table ← messageList edition file full messages table
    let table ← each enums (enumeration edition file full) table
    each extensions (fun x => add file .extension (nameWithin full x.name)) table

def messageList (edition : Source.Edition) (file scope : String) : List Source.MessageType → Step
  | [] => fun table => .ok table
  | m :: rest => fun table => do
    let table ← message edition file scope m table
    messageList edition file scope rest table

end

/-- Adds a service and its methods. -/
def service (file scope : String) (s : Source.Service) : Step := fun table => do
  let full := nameWithin scope s.name
  let table ← add file .service full table
  each s.methods (fun m => add file .method (nameWithin full m.name)) table

/-- What stands before each dot of a text, and the whole text last. -/
def beforeDots (before : List Char) : List Char → List (List Char)
  | [] => [before]
  | '.' :: rest => before :: beforeDots (before ++ ['.']) rest
  | c :: rest => beforeDots (before ++ [c]) rest

/-- The packages that a package's name passes through, itself last. -/
def packages (package : String) : List String :=
  if package.isEmpty then [] else (beforeDots [] package.toList).map String.ofList

/-- Adds the names of a file. -/
def file (f : Source.File) : Step := fun table => do
  let table ← each (packages f.package) (add f.name .package) table
  let table ← messageList f.edition f.name f.package f.messages table
  let table ← each f.enums (enumeration f.edition f.name f.package) table
  let table ← each f.services (service f.name f.package) table
  each f.extensions (fun x => add f.name .extension (nameWithin f.package x.name)) table

/-- Adds the names of files. A file that has the name of one before it is refused when its
turn comes. -/
def files : List String → List Source.File → Step
  | _, [] => fun table => .ok table
  | seen, f :: rest => fun table =>
    if f.name ∈ seen then .error (.duplicateFile f.name)
    else do
      let table ← file f table
      files (f.name :: seen) rest table

/-! ## The definitions -/

mutual

/-- The enums that a message holds, at any depth. -/
def enumsOf (scope : String) : Source.MessageType → List EnumType
  | ⟨name, _, _, messages, enums, _, _, _, _⟩ =>
    enumTypes (nameWithin scope name) enums ++ enumsOfList (nameWithin scope name) messages

def enumsOfList (scope : String) : List Source.MessageType → List EnumType
  | [] => []
  | m :: rest => enumsOf scope m ++ enumsOfList scope rest

/-- The enum types of declared enums. -/
def enumTypes (scope : String) (enums : List Source.Enumeration) : List EnumType :=
  enums.map fun e => ⟨e.name, nameWithin scope e.name, e.values⟩

end

mutual

/-- The messages that a message holds with itself, each with its full name. -/
def messagesOf (scope : String) : Source.MessageType → List (String × Source.MessageType)
  | ⟨name, fields, oneofs, messages, enums, extensions, extensionRanges, reserved, mapEntry⟩ =>
    (nameWithin scope name,
      ⟨name, fields, oneofs, messages, enums, extensions, extensionRanges, reserved, mapEntry⟩) ::
      messagesOfList (nameWithin scope name) messages

def messagesOfList (scope : String) :
    List Source.MessageType → List (String × Source.MessageType)
  | [] => []
  | m :: rest => messagesOf scope m ++ messagesOfList scope rest

end

end ServiceCall.Names
