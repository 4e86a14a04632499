import ServiceCall.Client.Basic
import ServiceCall.CommandLine.Level
/-!
# Command lines

What a command line asks for. The levels are read one inside the other: what is wrong with a
command is found before what is wrong in front of it. An option that every level knows has
the values of the innermost level at which it is given, and only those.
-/

namespace ServiceCall

/-- A call as it is asked for. -/
structure CallRequest where
  /-- The interface and the service, which are named together or not at all. -/
  target : Option (String × String)
  method : Option String
  args : List Json
  /-- The whole input. -/
  body : Option Json

/-- What is asked for. -/
inductive Command where
  | list (kind : SymbolKind)
  | describe (interface : String)
  | call (r : CallRequest)

/-- A command line. -/
structure CommandLine where
  /-- The address of the description. -/
  address : String
  config : Option Path
  workspaceRoot : Option Path
  includePaths : List Path
  protoc : Option Path
  generator : Option Path
  generatorArgs : List String
  serviceAddress : Option String
  verbose : Bool
  command : Command

namespace CommandLine

/-- The interface and the service of a call. -/
def target (g : Given) : Except UsageError (Option (String × String)) :=
  match g.text? .interface, g.text? .service with
  | some interface, some service => .ok (some (interface, service))
  | none, none => .ok none
  | _, _ => .error .missingArgument

/-- The call that a level asks for. -/
def callRequest (g : Given) : Except UsageError CallRequest :=
  if g.has .values ∧ g.has .body then .error .conflict
  else (target g).map fun t => ⟨t, g.text? .method, g.values .values, g.value? .body⟩

/-- What the innermost level asks for. -/
def commandOf (l : Level) (g : Given) : Except UsageError Command :=
  match l with
  | .interfaces => .ok (.list .interface)
  | .services => .ok (.list .service)
  | .describe =>
    match g.text? .described with
    | some interface => .ok (.describe interface)
    | none => .error .missingArgument
  | .call => (callRequest g).map .call
  | .program | .list => .error (if g.isEmpty then .bare else .missingCommand)

/-- Reads words from a level on: what is given at every level, the outermost first, and what
is asked for. -/
def readLevels (l : Level) (r : Reading) : List String → Except UsageError (List Given × Command)
  | [] => do
    let g ← r.settled
    let c ← commandOf l g
    return ([g], c)
  | w :: rest =>
    match r.command? l w with
    | some name =>
      match l.commands.lookup name with
      | none => .error (if l.explains rest then .help else .invalidCommand)
      | some below => do
        let (gs, c) ← readLevels below .start rest
        let g ← r.settled
        return (g :: gs, c)
    | none => do readLevels l (← r.take l w) rest

/-- The texts given for an argument at the innermost level that has any. -/
def innermost (gs : List Given) (a : Argument) : List String :=
  ((gs.map (·.texts a)).reverse.find? (!·.isEmpty)).getD []

/-- Reads a command line. -/
def parse (words : List String) : Except UsageError CommandLine := do
  let (gs, command) ← readLevels .program .start words
  match innermost gs .address with
  | [] => .error .missingArgument
  | address :: _ =>
    let text? (a : Argument) : Option String := (innermost gs a).head?
    let path? (a : Argument) : Option Path := (text? a).map Path.ofText
    return {
      address
      config := path? .config
      workspaceRoot := path? .workspaceRoot
      includePaths := (innermost gs .includePath).map Path.ofText
      protoc := path? .protoc
      generator := path? .generator
      generatorArgs := innermost gs .generatorArg
      serviceAddress := text? .serviceAddress
      verbose := gs.any (·.has .verbose)
      command }

end CommandLine

end ServiceCall
