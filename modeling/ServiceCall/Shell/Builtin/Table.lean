import ServiceCall.Shell.Builtin.Control
import ServiceCall.Shell.Builtin.Variable
/-!
# The builtin commands by name
-/

namespace ServiceCall.Shell.Builtin

/-- What a name is to a shell. -/
inductive Meaning where
  | keyword
  | alias (text : String)
  | special
  | builtin
  | function
  | program (path : String)
  deriving DecidableEq, Repr

/-- Sets and shows aliases. -/
def alias' : Builtin := fun _ _ args => do
  let show' (name text : String) : Act Unit := say (name ++ "=" ++ quoted text)
  done 0
  if args.isEmpty then
    for (name, text) in (← get).aliases do show' name text
  for a in args do
    let name := String.ofList (a.toList.takeWhile (· ≠ '='))
    match a.toList.drop name.length with
    | _ :: text => modify fun s => { s with
        aliases := (name, String.ofList text) :: s.aliases.filter (·.1 ≠ name) }
    | [] =>
      match (← get).aliases.lookup name with
      | some text => show' name text
      | none =>
        let _ ← Act.emit 2 ("alias: " ++ a ++ " not found\n").toList
        done 1

/-- Takes aliases back. -/
def unalias : Builtin := fun _ _ args => do
  let (os, names) ← parsed "a" args
  done 0
  unless os.isEmpty do modify fun s => { s with aliases := [] }
  for name in names do
    if ((← get).aliases.lookup name).isSome then
      modify fun s => { s with aliases := s.aliases.filter (·.1 ≠ name) }
    else
      let _ ← Act.emit 2 ("unalias: " ++ name ++ " not found\n").toList
      done 1

/-- The builtin command of a name, but for those that look up names themselves. -/
def simple? : String → Option Builtin
  | ":" | "true" | "jobs" => some fun _ _ _ => done 0
  | "false" => some fun _ _ _ => done 1
  | "break" => some (leaving .broken)
  | "continue" => some (leaving .continued)
  | "return" => some returning
  | "exit" => some exiting
  | "eval" => some evaluating
  | "." => some sourcing
  | "exec" => some executing
  | "export" => some exported
  | "readonly" => some constant
  | "local" => some localized
  | "unset" => some unset
  | "set" => some setting
  | "shift" => some shift
  | "trap" => some trap
  | "times" => some fun _ _ _ => do
    say "0m0.000000s 0m0.000000s"
    say "0m0.000000s 0m0.000000s"
    done 0
  | "read" => some read
  | "getopts" => some getopts
  | "cd" | "chdir" => some cd
  | "pwd" => some pwd
  | "umask" => some umask
  | "kill" => some kill
  | "wait" => some wait
  | "fg" | "bg" => some fun _ _ args => Act.fail (match args with
      | [] => "No current job"
      | job :: _ => "No such job: " ++ job)
  | "ulimit" => some fun _ _ _ => do
    say "unlimited"
    done 0
  | "alias" => some alias'
  | "unalias" => some unalias
  | "echo" => some echo
  | "printf" => some printf
  | "test" => some test
  | "[" => some bracket
  | _ => none

/-- The names of the builtins that look up names. -/
def lookups : List String := ["command", "type", "hash"]

/-- What a name stands for; a function only if those are asked for. -/
def meaning? (s : State) (name : String) : Option Meaning :=
  if Token.keywords.contains name then some .keyword
  else if let some text := s.aliases.lookup name then some (.alias text)
  else if name.toList.contains '/' then
    match s.disk.entry name with
    | .ok _ => some (.program name)
    | .error _ => none
  else if Reading.specialBuiltins.contains name then some .special
  else if (s.functions.lookup name).isSome then some .function
  else if (simple? name).isSome || lookups.contains name then some .builtin
  else match Program.which s.disk (Call.searchPath s) name with
    | .ok path => some (.program path)
    | .error _ => none

/-- What a name stands for, in words. -/
def describe (name : String) (isLong : Bool) : Meaning → String
  | .keyword => if isLong then name ++ " is a shell keyword" else name
  | .alias text =>
    if isLong then name ++ " is an alias for " ++ text else "alias " ++ name ++ "=" ++ quoted text
  | .special => if isLong then name ++ " is a special shell builtin" else name
  | .builtin => if isLong then name ++ " is a shell builtin" else name
  | .function => if isLong then name ++ " is a shell function" else name
  | .program path => if isLong then name ++ " is " ++ path else path

/-- Says what names stand for. -/
def type : Builtin := fun _ _ args => do
  done 0
  for name in args do
    match meaning? (← get) name with
    | some m => say (describe name true m)
    | none =>
      say (name ++ ": not found")
      done 127

/-- Looks names up. -/
def hash : Builtin := fun _ _ args => do
  let (_, names) ← parsed "rv" args
  done 0
  for name in names do
    if (meaning? (← get) name).isNone then
      Act.complain (name ++ ": not found")
      done 1

/-- Says what one name stands for, in the way of `command`. -/
def look (name? : Option String) (isLong : Bool) : Act Unit := do
  match name? with
  | none => done 0
  | some name =>
    match meaning? (← get) name with
    | some m =>
      say (describe name isLong m)
      done 0
    | none =>
      if isLong then say (name ++ ": not found")
      done 127

end ServiceCall.Shell.Builtin
