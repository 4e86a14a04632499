import ServiceCall.Shell.Evaluation
import ServiceCall.Shell.Work
/-!
# Builtin commands and calls

The two ways in which a shell carries out a command: it calls a program, or it does what is asked
itself.
-/

namespace ServiceCall.Shell.Call

/-! ## Calling programs

A shell runs a program with its own descriptors for input and output, and waits for it.
-/

/-- The search path of a shell. -/
def searchPath (s : State) : String := (s.value? "PATH").getD ""

/-- What a program sees that a shell starts. -/
def desk (s : State) (environment : List (String × String)) : Desk where
  disk := s.disk
  environment
  input := Act.unread s 0
  output := []
  ancestors := s.process :: s.ancestors
  nextProcess := s.nextProcess
  signals := s.signals
  ignored := (s.traps.filter fun t => t.2.isEmpty).map (·.1)

/-- Runs a program by the path of its file. -/
def run (i : Interpreter) (path : String) (args : List String) :
    Act (Except IoError ExitStatus) := do
  let s ← get
  let before := desk s s.environment
  let (result, after) := (i.start path args).run before
  modify fun s => { s with
    disk := { after.disk with workingDirectory := s.disk.workingDirectory }
    nextProcess := after.nextProcess
    signals := after.signals }
  match before.input, after.input with
  | .ok old, .ok rest => if rest.length < old.length then Act.leave 0 rest
  | _, _ => pure ()
  for (n, text) in after.output.reverse do
    let _ ← Act.emit n text
  return result

/-- What is said about a program that cannot be run. -/
def reason : IoError → String
  | .notFound | .notDirectory => "not found"
  | e => e.reason

/-- The status for a program that cannot be run. -/
def failureStatus : IoError → Nat
  | .notFound | .notDirectory | .nameTooLong | .tooManyLinks => 127
  | _ => 126

/-- Runs a program, by its path or by the search path. One whose file names no reader is read
by a shell. -/
def program (i : Interpreter) (name : String) (args : List String) :
    Act (Except (Nat × String) ExitStatus) := do
  let refuse (status : Nat) (e : IoError) : Except (Nat × String) ExitStatus :=
    .error (status, name ++ ": " ++ reason e)
  let s ← get
  let path := if name.toList.contains '/' then .ok name
    else Program.which s.disk (searchPath s) name
  match path with
  | .error e => return refuse 127 e
  | .ok path =>
    match ← run i path (name :: args) with
    | .ok status => return .ok status
    | .error .badExecutable =>
      match ← run i "/bin/sh" ("/bin/sh" :: path :: args) with
      | .ok status => return .ok status
      | .error e => return refuse (failureStatus e) e
    | .error e => return refuse (failureStatus e) e

/-- Runs a program and takes its status. -/
def command (i : Interpreter) (name : String) (args : List String) : Act Unit := do
  match ← program i name args with
  | .ok status =>
    Act.take status
    i.deliver
  | .error (status, message) =>
    Act.complain message
    Act.setStatus status

end ServiceCall.Shell.Call

namespace ServiceCall.Shell

/-! ## Builtin commands

A builtin command is carried out by the shell itself, with its arguments and the knowledge
whether its failure is looked at. An error in a special one ends the shell.
-/

/-- What a builtin command does with its arguments. -/
abbrev Builtin := Interpreter → Bool → List String → Act Unit

namespace Builtin

/-- Ends with a status. -/
def done (status : Nat) : Act Unit := Act.setStatus status

/-- Writes to the output. -/
def put (s : List Char) : Act Unit := do
  unless ← Act.emit 1 s do
    Act.complain (((← get).builtin.getD "") ++ ": I/O error")
    done 1
    throw .failed

/-- Writes a line to the output. -/
def say (line : String) : Act Unit := put (line.toList ++ ['\n'])

/-- The natural that an argument is. -/
def natural (s : String) : Act Nat := do
  let n := digitsValue s.toList
  if s.isEmpty ∨ !s.toList.all isDigit ∨ 0x7fffffff < n then Act.fail ("Illegal number: " ++ s)
  else return n

/-- One option letter after another of an argument; the letters with a colon take a value. -/
def optionsIn (letters : List Char) : List Char → List String →
    Act (List (Char × String) × List String)
  | [], rest => return ([], rest)
  | c :: cs, rest => do
    match (letters.dropWhile (· ≠ c)) with
    | [] => Act.fail ("Illegal option -" ++ String.singleton c)
    | _ :: ':' :: _ =>
      match cs, rest with
      | [], [] => Act.fail ("No arg for -" ++ String.singleton c ++ " option")
      | [], v :: rest => return ([(c, v)], rest)
      | cs, rest => return ([(c, String.ofList cs)], rest)
    | _ =>
      let (os, rest) ← optionsIn letters cs rest
      return ((c, "") :: os, rest)

/-- The options that arguments start with, and the arguments after them. -/
def options (letters : String) : Nat → List String → Act (List (Char × String) × List String)
  | 0, args => return ([], args)
  | _ + 1, [] => return ([], [])
  | fuel + 1, a :: rest => do
    match a.toList with
    | ['-', '-'] => return ([], rest)
    | '-' :: c :: cs =>
      let (os, rest) ← optionsIn letters.toList (c :: cs) rest
      let (more, rest) ← options letters fuel rest
      return (os ++ more, rest)
    | _ => return ([], a :: rest)

/-- The options and operands of arguments. -/
def parsed (letters : String) (args : List String) :
    Act (List (Char × String) × List String) := options letters (args.length + 1) args

/-- A text in single quotes, as the shell would read it again. -/
def quoted (s : String) : String :=
  String.join ("'" :: s.toList.map (fun c => if c = '\'' then "'\"'\"'" else String.singleton c)
    ++ ["'"])

end Builtin

end ServiceCall.Shell
