import ServiceCall.Disk.Path
import ServiceCall.Json.Printer
import ServiceCall.Json.Record
/-!
# Configuration

Everything a client needs besides the address of the description. Each field has a default,
some of them taken from the environment; a configuration written by `print?` names every
field, so what `parse` reads back does not depend on the environment.
-/

namespace ServiceCall

/-- What a program is told about the user that runs it. -/
structure Environment where
  /-- The variables with their values, which are texts of bytes. -/
  vars : List (String × String)
  /-- The home directory that the system has on record for the user, if it has any. -/
  home : Option Path

/-- The value of a variable. -/
def Environment.get? (env : Environment) (name : String) : Option String :=
  Json.member? name env.vars

/-- Reads a path. -/
def Path.ofDocument (v : Json.Document) : Except Json.Category Path := v.text.map Path.ofText

/-- The program that turns a description into sources, with its leading arguments. -/
structure GeneratorCommand where
  program : Path
  arguments : List String
  deriving DecidableEq, Repr

/-- The settings of a client. -/
structure Configuration where
  /-- The directory below which every endpoint has its workspace. -/
  workspaceRoot : Path
  /-- The directories the compiler looks for imports in. -/
  includePaths : List Path
  /-- The compiler. -/
  protoc : Path
  generator : GeneratorCommand
  /-- Where calls go, if not to the address of the description. -/
  serviceAddress : Option String
  deriving DecidableEq, Repr

namespace GeneratorCommand

/-- The generator when none is configured. -/
def default : GeneratorCommand := ⟨"wsdl2proto", []⟩

/-- The fields as far as they are given. -/
structure Given where
  program : Option Path
  arguments : Option (List String)

/-- The command with its defaults filled in. -/
def Given.complete (g : Given) : GeneratorCommand :=
  ⟨g.program.getD default.program, g.arguments.getD default.arguments⟩

/-- How a command is read. -/
def record : Json.Record Given where
  names := ["program", "args"]
  set
    | "program", v, g => do return { g with program := some (← Path.ofDocument v) }
    | "args", v, g => do return { g with arguments := some (← v.listOf Json.Document.text) }
    | _, _, g => .ok g

def ofDocument (v : Json.Document) : Except Json.Category GeneratorCommand :=
  (record.read ⟨none, none⟩ v).map Given.complete

/-- A command as JSON. -/
def toJson (g : GeneratorCommand) : Json :=
  .object [("program", .string g.program.shown), ("args", .array (g.arguments.map .string))]

end GeneratorCommand

namespace Configuration

/-- The directory for temporary files. -/
def temporaryDirectory (env : Environment) : Path := (env.get? "TMPDIR").getD "/tmp"

/-- The compiler when none is configured. -/
def defaultProtoc (env : Environment) : Path :=
  match env.get? "PROTOC" with
  | some p => if p.isEmpty then "protoc" else p
  | none => "protoc"

/-- The settings when nothing is configured. -/
def default (env : Environment) : Configuration where
  workspaceRoot := Path.join (temporaryDirectory env) "org/hsweb/request/ws"
  includePaths := []
  protoc := defaultProtoc env
  generator := .default
  serviceAddress := none

/-- The fields as far as they are given. -/
structure Given where
  workspaceRoot : Option Path
  includePaths : Option (List Path)
  protoc : Option Path
  generator : Option GeneratorCommand
  serviceAddress : Option (Option String)

/-- Nothing is given. -/
def Given.none : Given := ⟨.none, .none, .none, .none, .none⟩

/-- The settings with their defaults filled in. -/
def Given.complete (env : Environment) (g : Given) : Configuration where
  workspaceRoot := g.workspaceRoot.getD (default env).workspaceRoot
  includePaths := g.includePaths.getD (default env).includePaths
  protoc := g.protoc.getD (default env).protoc
  generator := g.generator.getD (default env).generator
  serviceAddress := g.serviceAddress.getD (default env).serviceAddress

/-- How settings are read. -/
def record : Json.Record Given where
  names := ["workspace_root", "include_paths", "protoc", "generator", "service_address"]
  set
    | "workspace_root", v, g => do return { g with workspaceRoot := some (← Path.ofDocument v) }
    | "include_paths", v, g => do
      return { g with includePaths := some (← v.listOf Path.ofDocument) }
    | "protoc", v, g => do return { g with protoc := some (← Path.ofDocument v) }
    | "generator", v, g => do return { g with generator := some (← GeneratorCommand.ofDocument v) }
    | "service_address", v, g => do return { g with serviceAddress := some (← v.text?) }
    | _, _, g => .ok g

def ofDocument (env : Environment) (v : Json.Document) : Except Json.Category Configuration :=
  (record.read Given.none v).map (Given.complete env)

/-- The settings a JSON text gives. -/
def parse (env : Environment) (s : String) : Except Json.Category Configuration :=
  Json.readText (ofDocument env) (Json.symbols s)

/-- Settings as JSON, every field named. -/
def toJson (c : Configuration) : Json :=
  .object [
    ("workspace_root", .string c.workspaceRoot.shown),
    ("include_paths", .array (c.includePaths.map fun p => .string p.shown)),
    ("protoc", .string c.protoc.shown),
    ("generator", c.generator.toJson),
    ("service_address", match c.serviceAddress with
      | some a => .string a
      | none => .null)]

/-- A text stands for each of the paths. -/
def isText (c : Configuration) : Bool :=
  c.workspaceRoot.isText && c.includePaths.all Path.isText && c.protoc.isText &&
    c.generator.program.isText

/-- The text settings are kept as. There is none for a path that no text stands for. -/
def print? (c : Configuration) : Option String := if c.isText then some c.toJson.compact else none

end Configuration

end ServiceCall
