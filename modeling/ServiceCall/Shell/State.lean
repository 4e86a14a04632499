import ServiceCall.Shell.Pattern
import ServiceCall.Shell.Reader.Command
import ServiceCall.Shell.Work
/-!
# The state of a shell

A shell has variables, functions, options, positional parameters and descriptors. The
descriptors lead to streams, which it shares with the shells that it starts for a part of
a script. `Act` is a step of a shell: it may stop the command that is being carried out.
-/

namespace ServiceCall.Shell

/-- A variable. One without a value has only been declared. -/
structure Variable where
  value? : Option String
  isExported : Bool
  isConstant : Bool
  deriving Repr

/-- What a descriptor leads to. -/
inductive Stream where
  | null
  /-- What is written goes out, under a number. -/
  | sink (number : Nat)
  /-- What is still to be read. -/
  | source (rest : List Char)
  | file (location : Location) (offset : Nat) (appends reads writes : Bool)
  | directory

/-- Why the shell leaves the command it is carrying out. -/
inductive Stop where
  /-- An error after which a shell does not go on. -/
  | failed
  | exited
  | broken (levels : Nat)
  | continued (levels : Nat)
  | returned
  /-- A signal ends the shell. -/
  | killed (signal : Nat)
  deriving DecidableEq, Repr

/-- Where the search for the options of arguments stands: at the argument of a number, and in
the one before it after so many characters if those are not all. -/
structure OptionPlace where
  index : Nat
  offset : Option Nat
  deriving DecidableEq, Repr

/-- The search starts with the first argument. -/
def OptionPlace.start : OptionPlace := ⟨1, none⟩

/-- A shell. -/
structure State where
  disk : Disk
  /-- The streams of all shells that belong together. -/
  streams : List Stream
  /-- What went out, each piece with the number of its sink, the last one first. -/
  output : List (Nat × List Char)
  nextSink : Nat
  nextProcess : Nat
  documents : List (Nat × Word)
  nextDocument : Nat
  /-- The streams of the open descriptors. -/
  descriptors : List (Nat × Nat)
  /-- The name the shell goes by in messages. -/
  name : String
  arguments : List String
  bindings : List (String × Variable)
  functions : List (String × Script)
  /-- The letters of the options in force. -/
  options : List Char
  /-- The working directory as the shell was led there. -/
  directory : String
  status : Nat
  /-- The status of the last command whose output was put into a word. -/
  outputStatus : Nat
  process : Nat
  /-- The processes that wait for this one, the nearest one first. -/
  ancestors : List Nat
  /-- The shell goes on with a part of a script, and still goes by the number of another one. -/
  isForked : Bool
  /-- The signals that were sent to processes and have not reached them, the last one first. -/
  signals : List (Nat × Nat)
  /-- The processes that ran in the background, with their statuses. -/
  jobs : List (Nat × Nat)
  /-- What is done on a signal; nothing for one that is ignored. Number 0 is the end. -/
  traps : List (Nat × String)
  /-- The line of the command being carried out, and the builtin command that does it. -/
  line : Nat
  builtin : Option String
  /-- The line up to which the text that is carried out has been read. -/
  readLine : Nat
  /-- How many loops and functions are around the command. -/
  loops : Nat
  functionDepth : Nat
  /-- The variables that the functions around the command have made local, with what they
  were before. -/
  locals : List (List (String × Option Variable))
  optionPlace : OptionPlace
  aliases : List (String × String)
  /-- The permissions that new files do not get. -/
  mask : Nat

/-- A step of a shell. -/
abbrev Act := ExceptT Stop (StateM State)

namespace State

/-! ## Variables -/

/-- The value of a variable. -/
def value? (s : State) (name : String) : Option String :=
  (s.bindings.lookup name).bind (·.value?)

/-- The table with an entry, in place of the one of that name. -/
def insertVariable (name : String) (v : Variable) :
    List (String × Variable) → List (String × Variable)
  | [] => [(name, v)]
  | (n, w) :: rest =>
    if n = name then (n, v) :: rest else (n, w) :: insertVariable name v rest

/-- The state with a variable. -/
def withVariable (s : State) (name : String) (v : Variable) : State :=
  { s with bindings := insertVariable name v s.bindings }

/-- The state with a value for a variable, which keeps what else is known of it. -/
def withValue (s : State) (name value : String) : State :=
  match s.bindings.lookup name with
  | some v => s.withVariable name { v with value? := some value }
  | none => s.withVariable name ⟨some value, s.options.contains 'a', false⟩

/-- The state after a value was given: the search for options starts anew with its variable. -/
def withAssigned (s : State) (name value : String) : State :=
  let s := s.withValue name value
  if name = "OPTIND" then { s with optionPlace := ⟨max 1 (digitsValue value.toList), none⟩ } else s

/-- The state with other positional parameters, whose options have not been looked for. -/
def withArguments (s : State) (arguments : List String) : State :=
  { s with arguments, optionPlace := .start }

/-- The state without a variable. -/
def withoutVariable (s : State) (name : String) : State :=
  { s with bindings := s.bindings.filter (·.1 ≠ name) }

/-- The variable cannot be changed. -/
def isConstant (s : State) (name : String) : Bool :=
  ((s.bindings.lookup name).map (·.isConstant)).getD false

/-- What programs that the shell starts see of its variables. -/
def environment (s : State) : List (String × String) :=
  s.bindings.filterMap fun (name, v) =>
    if v.isExported then v.value?.map fun value => (name, value) else none

/-- The characters that separate fields. -/
def separators (s : State) : List Char :=
  '\x00' :: (match s.value? "IFS" with
    | some value => value.toList
    | none => Glyph.blanks)

/-- What stands between the positional parameters when they are one text. -/
def joint (s : State) : String :=
  match s.value? "IFS" with
  | some value => String.ofList (value.toList.take 1)
  | none => " "

def hasOption (s : State) (c : Char) : Bool := s.options.contains c

/-- The letters of the options with their names, in the order they are told in. -/
def optionNames : List (Char × String) :=
  [('e', "errexit"), ('f', "noglob"), ('I', "ignoreeof"), ('i', "interactive"), ('m', "monitor"),
    ('n', "noexec"), ('s', "stdin"), ('x', "xtrace"), ('v', "verbose"), ('V', "vi"), ('E', "emacs"),
    ('C', "noclobber"), ('a', "allexport"), ('b', "notify"), ('u', "nounset"),
    ('p', "privileged")]

/-- The value of a parameter. -/
def parameter? (s : State) (name : String) : Option String :=
  match name with
  | "@" | "*" => some (s.joint.intercalate s.arguments)
  | "#" => some (toString s.arguments.length)
  | "?" => some (toString s.status)
  | "$" => some (toString s.process)
  | "!" => s.jobs.head?.map fun j => toString j.1
  | "-" => some (String.ofList ((optionNames.map (·.1)).reverse.filter s.hasOption))
  | "0" => some s.name
  | _ =>
    if name.toList.all isDigit then
      match digitsValue name.toList with
      | 0 => some s.name
      | n + 1 => s.arguments[n]?
    else s.value? name

/-! ## Streams -/

/-- The stream of a descriptor. -/
def stream? (s : State) (descriptor : Nat) : Option (Nat × Stream) := do
  let i ← s.descriptors.lookup descriptor
  let t ← s.streams[i]?
  return (i, t)

/-- The state with another stream in a place. -/
def withStream (s : State) (i : Nat) (t : Stream) : State :=
  { s with streams := s.streams.set i t }

/-- The state with a descriptor that leads to a new stream. -/
def opening (s : State) (descriptor : Nat) (t : Stream) : State :=
  { s with
    streams := s.streams ++ [t]
    descriptors := (descriptor, s.streams.length) :: s.descriptors.filter (·.1 ≠ descriptor) }

/-- The state after a part of it went on in a shell of its own: what that did to things
outside stays. -/
def after (s inner : State) : State :=
  { s with
    disk := { inner.disk with workingDirectory := s.disk.workingDirectory }
    streams := inner.streams
    output := inner.output
    nextSink := inner.nextSink
    nextProcess := inner.nextProcess
    signals := inner.signals
    documents := inner.documents
    nextDocument := inner.nextDocument }

/-- The content of a file, the bytes at an offset replaced. -/
def spliced (old : Bytes) (offset : Nat) (s : Bytes) : Bytes :=
  old.take offset ++ List.replicate (offset - old.length) 0 ++ s ++ old.drop (offset + s.length)

end State

namespace Act

/-- Writes to a descriptor; fails if it is not open for that. -/
def emit (descriptor : Nat) (text : List Char) : Act Bool := do
  let s ← get
  match s.stream? descriptor with
  | some (_, .null) => return true
  | some (_, .sink n) =>
    set (if text.isEmpty then s else { s with output := (n, text) :: s.output })
    return true
  | some (i, .file location offset appends reads true) =>
    match s.disk.lookup location with
    | some (.file content executable) =>
      let bytes := Octets.toBytes text
      let start := if appends then content.length else offset
      let content := State.spliced content start bytes
      set ({ s with disk := s.disk.set location (.file content executable) }.withStream i
        (.file location (start + bytes.length) appends reads true))
    | _ => pure ()
    return true
  | _ => return text.isEmpty

/-- A message of the shell itself. -/
def complain (message : String) : Act Unit := do
  let s ← get
  let builtin := match s.builtin with
    | some b => b ++ ": "
    | none => ""
  let line := s.name ++ ": " ++ toString s.line ++ ": " ++ builtin ++ message ++ "\n"
  let _ ← emit 2 line.toList

/-- Sets the status. -/
def setStatus (status : Nat) : Act Unit := modify fun s => { s with status }

/-- An error of the shell. -/
def fail (message : String) : Act α := do
  complain message
  setStatus 2
  throw .failed

/-- The text that a descriptor has not given yet. -/
def unread (s : State) (descriptor : Nat) : Except IoError (List Char) :=
  match s.stream? descriptor with
  | none => .error .badDescriptor
  | some (_, .null) => .ok []
  | some (_, .source rest) => .ok rest
  | some (_, .directory) => .error .isDirectory
  | some (_, .file location offset _ true _) =>
    match s.disk.lookup location with
    | some (.file content _) => .ok (Octets.ofBytes (content.drop offset))
    | _ => .ok []
  | some (_, .file _ _ _ false _) | some (_, .sink _) => .error .badDescriptor

/-- Takes from a descriptor all but the given rest of what it has not given yet. -/
def leave (descriptor : Nat) (rest : List Char) : Act Unit := modify fun s =>
  match s.stream? descriptor with
  | some (i, .source _) => s.withStream i (.source rest)
  | some (i, .file location _ appends reads writes) =>
    match s.disk.lookup location with
    | some (.file content _) =>
      s.withStream i (.file location (content.length - rest.length) appends reads writes)
    | _ => s
  | _ => s

/-- Gives a variable a value. -/
def assign (name value : String) : Act Unit := do
  if (← get).isConstant name then fail (name ++ ": is read only")
  modify fun s => s.withAssigned name value

/-- What a step comes to in a shell, and the shell after it. -/
def outcome (body : Act α) (s : State) : Except Stop α × State := StateT.run (ExceptT.run body) s

/-- Carries out a step in a shell of its own, and tells how that stopped. -/
def apart (body : Act Unit) : Act (Except Stop Unit × State) := do
  let s ← get
  let (result, inner) := outcome body s
  set (s.after inner)
  return (result, inner)

/-- Carries out a step whose changes of some part of the state are taken back. -/
def restoring (restore : State → State → State) (body : Act α) : Act α := do
  let s ← get
  try
    let a ← body
    modify (restore s)
    return a
  catch stop =>
    modify (restore s)
    throw stop

end Act

end ServiceCall.Shell
