import ServiceCall.CommandLine.Basic
import ServiceCall.Configuration
import ServiceCall.Disk.Basic
/-!
# Settings for a command line

The settings of a file, which need not exist, with what the command line says put over them.
Include directories are added to those of the file; everything else takes its place. A file
that is there and cannot be understood is an error, whatever the command line says, and so is the lack
of a home directory if no file is named.
-/

namespace ServiceCall

/-- Why there are no settings. -/
inductive SettingsError where
  /-- No file is named, and there is no home directory to look for one in. -/
  | homeless
  | unreadable (file : Path) (cause : IoError)
  /-- The text is not understood, which the reader of JSON puts in its own words. -/
  | invalid (file : Path) (category : Json.Category) (cause : String)
  deriving DecidableEq, Repr

namespace SettingsError

def message : SettingsError → String
  | homeless => "Could not determine config directory"
  | unreadable file _ => "Failed to read '" ++ file.shown ++ "'"
  | invalid file _ _ => "Invalid configuration in '" ++ file.shown ++ "'"

/-- The message, and that of the cause if there is one. -/
def chain (e : SettingsError) : List String :=
  match e with
  | homeless => [e.message]
  | unreadable _ cause => [e.message, cause.message]
  | invalid _ _ cause => [e.message, cause]

end SettingsError

namespace Configuration

/-- The home directory: the one that a variable names, or the one on record. -/
def homeDirectory? (env : Environment) : Option Path :=
  match env.get? "HOME" with
  | some home => if home.isEmpty then env.home else some home
  | none => env.home

/-- The directory for settings of all programs of a user with a home directory. -/
def settingsDirectory (env : Environment) (home : Path) : Path :=
  match env.get? "XDG_CONFIG_HOME" with
  | some dir => if Path.isAbsolute dir then dir else Path.join home ".config"
  | none => Path.join home ".config"

/-- The file for settings when none is named. There is none for a user without a home directory. -/
def defaultFile? (env : Environment) : Option Path :=
  (homeDirectory? env).map fun home => Path.join (settingsDirectory env home) "wsreq/config.json"

/-- The file for settings. -/
def settingsFile (env : Environment) (l : CommandLine) : Except SettingsError Path :=
  match l.config with
  | some file => .ok file
  | none =>
    match defaultFile? env with
    | some file => .ok file
    | none => .error .homeless

/-- The text of a file. -/
def readText (d : Disk) (file : Path) : Except IoError String := do
  match Utf8.decode? (← d.read file) with
  | some s => .ok s
  | none => .error .notUtf8

/-- The settings of a file. -/
def load (wording : Json.Wording) (env : Environment) (d : Disk) (file : Path) :
    Except SettingsError Configuration :=
  if !d.pathExists file then .ok (default env)
  else match readText d file with
    | .error e => .error (.unreadable file e)
    | .ok s => (parse env s).mapError fun c => .invalid file c (wording (utf8 s))

/-- Settings with what a command line says put over them. -/
def override (c : Configuration) (l : CommandLine) : Configuration where
  workspaceRoot := l.workspaceRoot.getD c.workspaceRoot
  includePaths := c.includePaths ++ l.includePaths
  protoc := l.protoc.getD c.protoc
  generator :=
    { program := l.generator.getD c.generator.program
      arguments := if l.generatorArgs.isEmpty then c.generator.arguments else l.generatorArgs }
  serviceAddress := l.serviceAddress <|> c.serviceAddress

/-- The settings for a command line. -/
def resolve (wording : Json.Wording) (env : Environment) (d : Disk) (l : CommandLine) :
    Except SettingsError Configuration := do
  let file ← settingsFile env l
  return override (← load wording env d file) l

end Configuration

end ServiceCall
