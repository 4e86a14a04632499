import ServiceCall.Shell.Command
import ServiceCall.Shell.Work
import ServiceCall.Shell.Utility.Count
import ServiceCall.Shell.Utility.Cut
import ServiceCall.Shell.Utility.Edit
import ServiceCall.Shell.Utility.Evaluate
import ServiceCall.Shell.Utility.File
import ServiceCall.Shell.Utility.Grep
import ServiceCall.Shell.Utility.List
import ServiceCall.Shell.Utility.Sort
import ServiceCall.Shell.Utility.Start
/-!
# Launching programs

The programs that a disk knows by name, the shell among them, and how one of them runs.
-/

namespace ServiceCall.Shell.Utility

/-! ## The programs of the system

Every program that comes with the system, by its name.
-/

/-- The paths of programs. -/
def which : Utility := fun _ args => do
  let w ← get
  let path := (w.environment.lookup "PATH").getD Program.defaultPath
  match OptionTable.read ⟨"as", []⟩ (fun _ => none) false (args.length + 1) (args.drop 1) with
  | .error _ =>
    let letters := (args.drop 1).flatMap fun a => a.toList.drop 1
    let wrong := (letters.find? fun c => c ≠ 'a' && c ≠ 's').getD '-'
    Work.complain ("Illegal option -" ++ String.singleton wrong)
    Work.say "Usage: /usr/bin/which [-as] args"
    return .code 2
  | .ok g =>
    if g.operands.isEmpty then return .code 1
    else
      return .code (← Work.worst g.operands fun name => do
        match Program.which w.disk path name with
        | .ok p =>
          unless g.has "s" do Work.say p
          return 0
        | .error _ => return 1)

/-- Waits for files to be written out, which they always are. -/
def sync : Utility := plain ⟨"df", [("data", "d", .nothing), ("file-system", "f", .nothing)]⟩
  fun name g => Work.worst g.operands fun path => do
    match (← get).disk.entry path with
    | .ok _ => return 0
    | .error e => complaint name ("error opening " ++ named path ++ ": " ++ e.reason)

/-- The programs of the system. -/
def table : List (String × Utility) :=
  [("[", bracket), ("basename", basename), ("cat", cat), ("chmod", chmod), ("chown", chown),
    ("cp", cp), ("cut", cut), ("dirname", dirname), ("echo", echo),
    ("egrep", grepAs [("E", "")]), ("env", env), ("expr", expr), ("false", constant 1),
    ("fgrep", grepAs [("F", "")]), ("find", find), ("grep", grep), ("head", head), ("id", id),
    ("install", install), ("ln", ln), ("ls", ls), ("mkdir", mkdir), ("mktemp", mktemp), ("mv", mv),
    ("nice", nice), ("nl", nl), ("nohup", nohup), ("paste", paste), ("printenv", printenv),
    ("printf", printf), ("pwd", pwd), ("readlink", readlink), ("realpath", realpath), ("rev", rev),
    ("rm", rm), ("rmdir", rmdir), ("sed", sed), ("seq", seq), ("setsid", setsid), ("sleep", sleep),
    ("sort", sort), ("sync", sync), ("tac", tac), ("tail", tail), ("tee", tee),
    ("test", test), ("timeout", timeout), ("touch", touch), ("tr", tr), ("true", constant 0),
    ("truncate", truncate), ("uname", uname), ("uniq", uniq), ("wc", wc), ("which", which),
    ("whoami", whoami), ("xargs", xargs)]

end ServiceCall.Shell.Utility

namespace ServiceCall.Shell.Invocation

/-! ## Invoking a shell

A shell is a program: its arguments are options, a text or the name of a file to carry
out, a name for messages, and positional parameters.
-/

/-- The working directory as a shell is told it, if that is right. -/
def directory (w : Desk) : String :=
  let physical := Location.path w.disk.workingDirectory
  match w.environment.lookup "PWD" with
  | some p =>
    let leadsHere : Bool := match w.disk.follow true p with
      | .ok place => place.location = w.disk.workingDirectory
      | .error _ => false
    if p.toList.head? = some '/' ∧ leadsHere then p else physical
  | none => physical

/-- The variables of a shell that starts. -/
def initialVariables (w : Desk) : List (String × Variable) :=
  let own := [("IFS", " \t\n"), ("OPTIND", "1"), ("PPID", toString (w.ancestors.headD 0)),
    ("PS1", "$ "), ("PS2", "> "), ("PS4", "+ ")]
  let inherited := w.environment.filter fun (name, _) => Name.isName name
  let all := own.map (fun (name, value) => (name, Variable.mk (some value) false false)) ++
    inherited.map fun (name, value) => (name, Variable.mk (some value) true false)
  let merged := all.foldl (fun vs (name, v) => State.insertVariable name v vs) []
  State.insertVariable "PWD" ⟨some (directory w), true, false⟩ merged

/-- A shell that starts. -/
def initial (w : Desk) (name : String) : State :=
  let input : List (Nat × Nat) × Stream := match w.input with
    | .ok text => ([(0, 0)], .source text)
    | .error .isDirectory => ([(0, 0)], .directory)
    | .error _ => ([], .null)
  { disk := w.disk
    streams := [input.2, .sink 1, .sink 2]
    output := []
    nextSink := 3
    nextProcess := w.nextProcess + 1
    documents := []
    nextDocument := 0
    descriptors := input.1 ++ [(1, 1), (2, 2)]
    name
    arguments := []
    bindings := initialVariables w
    functions := []
    options := []
    directory := directory w
    status := 0
    outputStatus := 0
    process := w.nextProcess
    ancestors := w.ancestors
    isForked := false
    signals := w.signals
    jobs := []
    traps := w.ignored.map fun n => (n, "")
    line := 0
    builtin := none
    readLine := 1
    loops := 0
    functionDepth := 0
    locals := []
    optionPlace := .start
    aliases := []
    mask := 18 }

/-- What the options of a shell ask for, and the arguments after them. -/
structure Request where
  takesText : Bool
  rest : List String

/-- Sets the options that letters name; tells whether one of them asks for a text. -/
def letters (isOn : Bool) : List Char → List String → Act (Bool × List String)
  | [], rest => return (false, rest)
  | c :: cs, rest => do
    if c = 'c' then
      let (_, rest) ← letters isOn cs rest
      return (true, rest)
    else if c = 'l' then letters isOn cs rest
    else
      let rest ← Builtin.setLetters isOn [c] rest
      letters isOn cs rest

/-- Reads the options. -/
def options : Nat → List String → Act Request
  | 0, args => return ⟨false, args⟩
  | _ + 1, [] => return ⟨false, []⟩
  | fuel + 1, a :: rest => do
    let further (isOn : Bool) (cs : List Char) : Act Request := do
      let (takesText, rest) ← letters isOn cs rest
      let r ← options fuel rest
      return { r with takesText := takesText || r.takesText }
    match a.toList with
    | ['-'] | ['-', '-'] => return ⟨false, rest⟩
    | '-' :: cs => further true cs
    | '+' :: cs => further false cs
    | _ => return ⟨false, a :: rest⟩

/-- Takes the text of a file to carry out. -/
def fileText (path : String) : Act (List Char) := do
  match Redirection.opened (← get) .read path with
  | .error e =>
    Act.fail ("cannot open " ++ path ++ ": " ++ Redirection.readReason e)
  | .ok (t, _) =>
    match t with
    | .file location _ _ _ _ =>
      match (← get).disk.lookup location with
      | some (.file content _) => return Octets.ofBytes content
      | _ => return []
    | .source text => return text
    | _ => return []

/-- Carries out what the arguments ask for. -/
def carryOut (i : Interpreter) (args : List String) : Act Unit := do
  let r ← options (args.length + 1) args
  let s ← get
  let text ← match r.takesText, r.rest with
    | true, [] => Act.fail "-c requires an argument"
    | true, text :: rest =>
      set (match rest with
        | [] => s
        | name :: rest => { s with name, arguments := rest })
      pure text.toList
    | false, [] => standardInput
    | false, path :: rest =>
      if s.hasOption 's' then
        set { s with arguments := path :: rest }
        standardInput
      else
        let text ← fileText path
        set { s with name := path, arguments := rest }
        pure text
  i.evalText false text
where
  /-- The commands on the input. -/
  standardInput : Act (List Char) := do
    modify fun s => if s.hasOption 's' then s else { s with options := 's' :: s.options }
    match Act.unread (← get) 0 with
    | .ok text =>
      Act.leave 0 []
      return text
    | .error _ => return []

/-- Runs a shell as a program. -/
def shell (i : Interpreter) (args : List String) : Work ExitStatus := do
  let w ← get
  let (result, s) := Act.outcome (i.toEnd (carryOut i (args.drop 1))) (initial w (args.headD "sh"))
  set { w with
    disk := s.disk
    nextProcess := s.nextProcess
    signals := s.signals
    input := match w.input, s.streams.head? with
      | .ok _, some (.source rest) => .ok rest
      | input, _ => input
    output := s.output.filter (fun (o : Nat × List Char) => o.1 = 1 ∨ o.1 = 2) ++ w.output }
  return match result with
    | .error (.killed n) => .signal n
    | _ => .code (s.status % 256)

end ServiceCall.Shell.Invocation

namespace ServiceCall.Shell

/-! ## Launching programs

A program is looked for on the disk, where the programs of the system stand while one of
them runs. It starts in an environment and without input.
-/

/-! ## The interpreter -/

/-- An interpreter that has come to its end: it stops the shell. -/
def Interpreter.exhausted : Interpreter where
  expand _ _ := Act.fail "Too many steps"
  run _ _ := Act.fail "Too many steps"
  start _ _ := return .error .tooManyLinks

/-- The names that a shell goes by. -/
def shellNames : List String := ["sh", "dash"]

/-- Runs a program, in the environment and the working directory of the one that starts it. -/
def start (i : Interpreter) : Starter := fun name args => do
  let w ← get
  let path := (w.environment.lookup "PATH").getD Program.defaultPath
  match Program.find w.disk path name args with
  | .error e => return .error e
  | .ok (program, args) =>
    let status ← if shellNames.contains program then Invocation.shell i args
      else match Utility.table.lookup program with
        | some u => u i.start args
        | none => return .error .notFound
    modify fun v => { v with disk := { v.disk with workingDirectory := w.disk.workingDirectory } }
    return .ok status

/-- The interpreter that goes down a number of levels: its parts use the one a level below. -/
def interpreter : Nat → Interpreter
  | 0 => .exhausted
  | n + 1 =>
    let below := interpreter n
    { expand := Expansion.word below, run := Command.run below, start := start below }

/-- How many levels a program can go down. -/
def levelLimit : Nat := 3000

/-! ## The system -/

/-- What stands on the disk for the system. -/
def systemEntries : List (Location × Entry) :=
  let directory (l : Location) : Location × Entry := (l, .directory)
  [directory ["dev"], (["dev", "null"], .file [] false), directory ["etc"], directory ["proc"],
    directory ["tmp"], directory ["usr"], directory ["usr", "bin"], directory ["usr", "lib"],
    directory ["usr", "local"], directory ["usr", "local", "bin"], directory ["usr", "sbin"],
    directory ["var"], (["bin"], .link "usr/bin"), (["sbin"], .link "usr/sbin"),
    (["lib"], .link "usr/lib")] ++
  (shellNames ++ Utility.table.map (·.1)).map fun name =>
    (["usr", "bin", name], .file (Program.systemContent name) true)

/-- What the system needs on a disk that is not there. -/
def missingEntries (d : Disk) : List (Location × Entry) :=
  systemEntries.filter fun (l, _) => (d.lookup l).isNone

/-- The disk with entries at its end. -/
def withEntries (d : Disk) (es : List (Location × Entry)) : Disk :=
  { d with entries := d.entries ++ es }

/-- The disk without the entries of some locations. -/
def withoutEntries (d : Disk) (es : List (Location × Entry)) : Disk :=
  { d with entries := d.entries.filter fun (l, _) => !es.any (·.1 = l) }

/-- The bytes that were written to a stream. -/
def streamBytes (stream : Nat) (w : Desk) : Bytes := Octets.toBytes (Work.written stream w.output)

/-- Launches programs in an environment. -/
def launch (environment : List (String × String)) : Launcher := fun name args d =>
  if name.toList.contains '\x00' ∨ args.any (·.toList.contains '\x00') then
    (.error .nulInArgument, d)
  else
    let system := missingEntries d
    let desk : Desk :=
      { disk := withEntries d system
        environment
        input := .ok []
        output := []
        ancestors := [1]
        nextProcess := 1000
        signals := []
        ignored := [] }
    let i := interpreter levelLimit
    let (result, w) := (i.start name (name :: args)).run desk
    let after := withoutEntries { w.disk with workingDirectory := d.workingDirectory } system
    (result.map fun status => ⟨status, streamBytes 1 w, streamBytes 2 w⟩, after)

end ServiceCall.Shell
