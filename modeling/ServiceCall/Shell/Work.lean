import ServiceCall.Json.Value
import ServiceCall.Process
import ServiceCall.Text.Octets
/-!
# Programs

What a running program can see and do, and where programs are found.
-/

namespace ServiceCall.Shell

/-! ## Programs at work

A program takes from its input, writes to its two output streams and changes the disk.
`Work` is a step of one, with all it can see. Texts are texts of bytes.
-/

/-- All that a running program can see and change. -/
structure Desk where
  disk : Disk
  environment : List (String × String)
  /-- The rest of the input, or why it cannot be read. -/
  input : Except IoError (List Char)
  /-- What was written, each piece with the number of its stream, the last one first. -/
  output : List (Nat × List Char)
  /-- The processes that wait for this one, the nearest one first, and the next number. -/
  ancestors : List Nat
  nextProcess : Nat
  /-- The signals that were sent to processes and have not reached them, the last one first. -/
  signals : List (Nat × Nat)
  /-- The signals that are ignored. -/
  ignored : List Nat

/-- A step of a program. -/
abbrev Work := StateM Desk

/-- A way to run another program: what it is looked for by, and its name with its arguments.
It fails if the program cannot be started. -/
abbrev Starter := String → List String → Work (Except IoError ExitStatus)

/-- A program that comes with the system: what it does with its name and arguments. -/
abbrev Utility := Starter → List String → Work ExitStatus

namespace Work

/-- Writes to a stream. -/
def emit (stream : Nat) (s : List Char) : Work Unit :=
  modify fun w => if s.isEmpty then w else { w with output := (stream, s) :: w.output }

/-- Writes to the output. -/
def put (s : List Char) : Work Unit := emit 1 s

/-- Writes a line to the output. -/
def say (line : String) : Work Unit := emit 1 (line.toList ++ ['\n'])

/-- Writes a line to the error stream. -/
def complain (line : String) : Work Unit := emit 2 (line.toList ++ ['\n'])

/-- Takes the whole input. -/
def takeInput : Work (Except IoError (List Char)) := modifyGet fun w =>
  match w.input with
  | .ok s => (.ok s, { w with input := .ok [] })
  | .error e => (.error e, w)

/-- The text of a file. -/
def readFile (path : String) : Work (Except IoError (List Char)) := do
  let d := (← get).disk
  match path with
  | "/dev/null" => return .ok []
  | "/dev/stdin" => takeInput
  | p => return (d.read p).map Octets.ofBytes

/-- Changes the disk, unless that fails. -/
def change (f : Disk → Except IoError Disk) : Work (Except IoError Unit) := modifyGet fun w =>
  match f w.disk with
  | .ok disk => (.ok (), { w with disk })
  | .error e => (.error e, w)

/-- Writes a file. -/
def writeFile (path : String) (s : List Char) : Work (Except IoError Unit) :=
  match path with
  | "/dev/null" => return .ok ()
  | "/dev/stdout" => do
    put s
    return .ok ()
  | "/dev/stderr" => do
    emit 2 s
    return .ok ()
  | p => change fun d => d.write p (Octets.toBytes s)

/-- What was written to a stream, from the first piece on. -/
def written (stream : Nat) (output : List (Nat × List Char)) : List Char :=
  ((output.filter (·.1 = stream)).reverse).flatMap (·.2)

/-- The greater of the statuses of a step for each element. -/
def worst (xs : List α) (step : α → Work Nat) : Work Nat :=
  xs.foldlM (fun status x => return max status (← step x)) 0

end Work

namespace Location

/-- The path from the root. -/
def path (l : Location) : Path := "/" ++ "/".intercalate l

end Location

end ServiceCall.Shell

namespace ServiceCall.Shell.Program

/-! ## Programs on a disk

A file with the permission to run is a program if its content says how: it comes with the
system, or it starts with a line that names another program to read it. Programs without
a slash in their name are looked for in the directories of the search path.
-/

/-! ## Files -/

/-- How the file of a program that comes with the system starts; its name follows. -/
def systemMark : Bytes := [0x7f, 0x45, 0x4c, 0x46, 2, 1, 1, 0]

/-- What the content of a file says about running it. -/
inductive Image where
  | system (name : String)
  /-- A line names the program that reads the file, and an argument for it. -/
  | interpreted (program : String) (argument : Option String)
  | foreign
  deriving DecidableEq, Repr

/-- How much of a first line counts. -/
def lineLimit : Nat := 255

/-- A blank inside a first line. -/
def isBlank (c : Char) : Bool := c = ' ' || c = '\t'

/-- What a first line names, after its two marks. -/
def named (line : List Char) : Image :=
  let text := ((line.dropWhile isBlank).reverse.dropWhile isBlank).reverse
  let program := text.takeWhile fun c => !isBlank c
  let argument := (text.drop program.length).dropWhile isBlank
  if program.isEmpty then .foreign
  else .interpreted (String.ofList program)
    (if argument.isEmpty then none else some (String.ofList argument))

/-- What a content says. -/
def Image.ofContent (content : Bytes) : Image :=
  if systemMark.isPrefixOf content then
    .system (String.ofList (Octets.ofBytes (content.drop systemMark.length)))
  else match Octets.ofBytes (content.take (lineLimit + 1)) with
    | '#' :: '!' :: text => named ((text.takeWhile (· ≠ '\n')).take lineLimit)
    | _ => .foreign

/-- The content of a program that comes with the system. -/
def systemContent (name : String) : Bytes := systemMark ++ utf8 name

/-- What the file at a path says; it must have the permission to run. -/
def image (d : Disk) (path : String) : Except IoError Image := do
  match ← d.entry path with
  | .file content true => return .ofContent content
  | _ => throw .permissionDenied

/-- How many programs may read each other's files. -/
def chainLimit : Nat := 5

/-- The program of the system that the one at a path comes down to, and the arguments it gets,
its name among them. -/
def resolve : Nat → Disk → String → List String → Except IoError (String × List String)
  | 0, _, _, _ => .error .tooManyLinks
  | n + 1, d, path, args => do
    match ← image d path with
    | .system name => return (name, args)
    | .foreign => throw .badExecutable
    | .interpreted program argument =>
      resolve n d program (program :: argument.toList ++ path :: args.drop 1)

/-! ## The search path -/

/-- The search path if none is set. -/
def defaultPath : String := "/bin:/usr/bin"

/-- The paths that a name can stand for. -/
def candidates (path : String) (name : String) : List String :=
  if name.toList.contains '/' then [name]
  else (path.splitOn ":").map fun dir => if dir.isEmpty then name else dir ++ "/" ++ name

/-- The longest name of a file, in bytes. -/
def nameLimit : Nat := 255

/-- The first of some paths that gives a program. One that may not be run is passed over,
but not forgotten. -/
def first (d : Disk) (args : List String) (isRefused : Bool) :
    List String → Except IoError (String × List String)
  | [] => .error (if isRefused then .permissionDenied else .notFound)
  | path :: rest =>
    match resolve chainLimit d path args with
    | .ok found => .ok found
    | .error .notFound | .error .notDirectory => first d args isRefused rest
    | .error .permissionDenied => first d args true rest
    | .error e => .error e

/-- The program that a name stands for, with the arguments it gets. -/
def find (d : Disk) (path name : String) (args : List String) :
    Except IoError (String × List String) :=
  if name.toList.contains '/' then resolve chainLimit d name args
  else if name.isEmpty then .error .notFound
  else if nameLimit < name.length then .error .nameTooLong
  else first d args false (candidates path name)

/-- The path of the file that a name without a slash stands for. Only a file that may be run
counts; otherwise it is told whether something else was found. -/
def which (d : Disk) (path name : String) : Except IoError String :=
  let step (found : Except IoError String) (candidate : String) : Except IoError String :=
    match found with
    | .ok p => .ok p
    | .error e =>
      match d.entry candidate with
      | .ok (.file _ true) => .ok candidate
      | .ok _ => .error .permissionDenied
      | .error .notFound | .error .notDirectory => .error e
      | .error e => .error e
  (candidates path name).foldl step (.error .notFound)

end ServiceCall.Shell.Program
