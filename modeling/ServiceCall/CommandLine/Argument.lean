import ServiceCall.Json.Scan
import ServiceCall.Text.Likeness
/-!
# What a command line is made of

A command line descends through levels: the program itself, its commands, and theirs. Every
level knows options, which are found by their names, positions, which are filled by words in
order, and commands, by which it is left.
-/

namespace ServiceCall.CommandLine

/-- Why a command line is refused, or answered on the spot. -/
inductive UsageError where
  | help
  | version
  /-- Nothing is given where a command should be. -/
  | bare
  | missingCommand
  | missingArgument
  | unknownArgument
  | invalidCommand
  /-- An argument stands twice, or beside one that excludes it. -/
  | conflict
  /-- A value is missing, or empty where it may not be. -/
  | noValue
  /-- A value does not have the form it should have. -/
  | badValue
  /-- A value for an option that takes none. -/
  | needlessValue
  deriving DecidableEq, Repr

/-- Asking for help or for the version is no failure. -/
def UsageError.exitCode : UsageError → Nat
  | help | version => 0
  | _ => 2

/-- What a word can be the value of. -/
inductive Argument where
  | address
  | config
  | workspaceRoot
  | includePath
  | protoc
  | generator
  | generatorArg
  | serviceAddress
  | verbose
  | help
  | version
  /-- The interface to describe. -/
  | described
  | method
  /-- The positional arguments of a call. -/
  | values
  | body
  | interface
  | service
  deriving DecidableEq, Repr

/-- The form of a value. -/
inductive Form where
  /-- There is none. -/
  | mark
  | text
  /-- A path, which is not empty. -/
  | path
  | json
  deriving DecidableEq, Repr

/-- A value of some form. -/
inductive Operand where
  | mark
  | text (s : String)
  | json (v : Json)

namespace Argument

def form : Argument → Form
  | verbose | help | version => .mark
  | config | workspaceRoot | includePath | protoc | generator => .path
  | values | body => .json
  | _ => .text

/-- The argument may be given more than once. -/
def isRepeatable : Argument → Bool
  | includePath | generatorArg | values => true
  | _ => false

/-- Whatever comes next is the option's value, even if it looks like an option. -/
def takesAnything (a : Argument) : Bool := a = generatorArg

/-- The name behind two hyphens. -/
def long? : Argument → Option String
  | config => some "config"
  | workspaceRoot => some "workspace-root"
  | includePath => some "include"
  | protoc => some "protoc"
  | generator => some "generator"
  | generatorArg => some "generator-arg"
  | serviceAddress => some "service-address"
  | verbose => some "verbose"
  | help => some "help"
  | version => some "version"
  | body => some "body"
  | interface => some "interface"
  | service => some "service"
  | _ => none

/-- The letter behind one hyphen. -/
def short? : Argument → Option Char
  | includePath => some 'I'
  | verbose => some 'v'
  | help => some 'h'
  | version => some 'V'
  | _ => none

/-- Reads a value. -/
def read (a : Argument) (s : String) : Except UsageError Operand :=
  match a.form with
  | .mark => .ok .mark
  | .text => .ok (.text s)
  | .path => if s.isEmpty then .error .noValue else .ok (.text s)
  | .json => ((Json.parse s).map .json).mapError fun _ => .badValue

end Argument

/-- A level of the command line. -/
inductive Level where
  | program
  | list
  | interfaces
  | services
  | describe
  | call
  deriving DecidableEq, Repr

namespace Level

/-- The options that every level knows. -/
def everywhere : List Argument :=
  [.config, .workspaceRoot, .includePath, .protoc, .generator, .generatorArg, .serviceAddress,
    .verbose, .help]

/-- The options that a level knows. -/
def options : Level → List Argument
  | program => .version :: everywhere
  | call => [.body, .interface, .service] ++ everywhere
  | _ => everywhere

/-- The positions of a level, in order. -/
def positions : Level → List Argument
  | program => [.address]
  | describe => [.described]
  | call => [.method, .values]
  | _ => []

/-- The commands by which a level is left, with the levels they lead to. -/
def commands : Level → List (String × Level)
  | program => [("list", list), ("describe", describe), ("call", call)]
  | list => [("interfaces", interfaces), ("services", services)]
  | _ => []

/-- The command that explains the others. -/
def helpCommand : String := "help"

/-- The names of the commands of a level. -/
def commandNames (l : Level) : List String :=
  if l.commands.isEmpty then [] else l.commands.map (·.1) ++ [helpCommand]

/-- The option of a long name. -/
def long? (l : Level) (name : String) : Option Argument :=
  l.options.find? fun a => a.long? = some name

/-- The option of a letter. -/
def short? (l : Level) (letter : Char) : Option Argument :=
  l.options.find? fun a => a.short? = some letter

/-- There is help on what words name, one below the other. -/
def explains (l : Level) : List String → Bool
  | [] => true
  | w :: rest =>
    match l.commands.lookup w with
    | some below => below.explains rest
    | none => l.commandNames.contains w && rest.isEmpty

/-- Why a word that has no position is refused. A word that resembles a command is taken for
one; behind two hyphens only a command itself is told from one. -/
def refusal (l : Level) (trailing : Bool) (w : String) : UsageError :=
  if trailing && l.commandNames.contains w then .unknownArgument
  else if l.commandNames.any (fun name => Text.isLike w.toList name.toList) then .invalidCommand
  else if !l.commandNames.isEmpty && l.positions.isEmpty then .invalidCommand
  else .unknownArgument

end Level

end ServiceCall.CommandLine
