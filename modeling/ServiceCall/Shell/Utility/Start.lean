import ServiceCall.Shell.Utility.Path
/-!
# Programs that run others

Another program with a changed environment, with a bound on its time, or once for each
part of the input; and what is known about the user and the system.
-/

namespace ServiceCall.Shell.Utility

/-- Runs a command; a program that cannot be run leaves a message and a status. -/
def runCommand (start : Starter) (describe : String → IoError → String) (command : List String) :
    Work ExitStatus := do
  match command with
  | [] => return .code 0
  | name :: _ =>
    match ← startOrRead start name command with
    | .ok status => return status
    | .error e =>
      Work.complain (describe name e)
      return .code (if e = .notFound then 127 else 126)

/-- The name and the value of an assignment. -/
def assignment? (s : String) : Option (String × String) :=
  let name := s.toList.takeWhile (· ≠ '=')
  match s.toList.drop name.length with
  | _ :: value => if name.isEmpty then none else some (String.ofList name, String.ofList value)
  | [] => none

/-- An environment with a value, in the place of an earlier one. -/
def withBinding (env : List (String × String)) (name value : String) : List (String × String) :=
  if env.any (·.1 = name) then env.map fun (n, v) => (n, if n = name then value else v)
  else env ++ [(name, value)]

/-- Carries out a step in another environment and working directory. -/
def within (env : List (String × String)) (directory : Location) (step : Work α) : Work α := do
  let w ← get
  set { w with environment := env, disk := { w.disk with workingDirectory := directory } }
  let a ← step
  modify fun v => { v with
    environment := w.environment
    disk := { v.disk with workingDirectory := w.disk.workingDirectory } }
  return a

/-- What is said about a program that cannot be run. -/
def namedRun (name program : String) (e : IoError) : String :=
  name ++ ": " ++ quoted program ++ ": " ++ e.reason

/-- The same where the words of a command may have been given as one. -/
def splitRun (name program : String) (e : IoError) : String :=
  let hint := if e = .notFound ∧ program.toList.any (fun c => c = ' ' || ('\t' ≤ c && c ≤ '\r'))
    then "\n" ++ name ++ ": use -[v]S to pass options in shebang lines" else ""
  namedRun name program e ++ hint

/-- Runs a command in a changed environment, or shows the environment. -/
def env : Utility := fun start args =>
  -- a lone dash means no environment, and one argument can hold many
  let args := (args.map fun a => if a = "-" then "-i" else a)
  withOptions ⟨"iu:0C:S:v", [("ignore-environment", "i", .nothing), ("unset", "u", .required),
      ("null", "0", .nothing), ("chdir", "C", .required), ("split-string", "S", .required)]⟩
      false 125 (fun start name g => do
    let w ← get
    let base := if g.has "i" then [] else w.environment
    let base := base.filter fun (n, _) => !(g.values "u").contains n
    let split := (g.values "S").flatMap fun s => (s.splitOn " ").filter (!·.isEmpty)
    let operands := split ++ g.operands
    let assigned := operands.takeWhile fun a => (assignment? a).isSome
    let command := operands.drop assigned.length
    let env := (assigned.filterMap assignment?).foldl (fun e (n, v) => withBinding e n v) base
    let place : Except String Location := match g.value? "C" with
      | none => .ok w.disk.workingDirectory
      | some dir =>
        let refuse (e : IoError) : Except String Location :=
          .error ("cannot change directory to " ++ named dir ++ ": " ++ e.reason)
        match w.disk.follow true dir with
        | .ok ⟨l, some .directory⟩ => .ok l
        | .ok ⟨_, some _⟩ => refuse .notDirectory
        | .ok ⟨_, none⟩ => refuse .notFound
        | .error e => refuse e
    match place with
    | .error message =>
      Work.complain (name ++ ": " ++ message)
      return .code 125
    | .ok directory =>
      if command.isEmpty then
        for (n, v) in env do
          Work.put ((n ++ "=" ++ v).toList ++ [if g.has "0" then '\x00' else '\n'])
        return .code 0
      else within env directory (runCommand start (splitRun name) command)) start args

/-- Shows values of the environment. -/
def printenv : Utility := withOptions ⟨"0", [("null", "0", .nothing)]⟩ false 2 fun _ _ g => do
  let env := (← get).environment
  if g.operands.isEmpty then
    for (n, v) in env do Work.say (n ++ "=" ++ v)
    return .code 0
  else
    return .code (← Work.worst g.operands fun n => do
      match env.lookup n with
      | some v =>
        Work.say v
        return 0
      | none => return 1)

/-- What is said about a command that cannot be run. -/
def failedRun (name program : String) (e : IoError) : String :=
  name ++ ": failed to run command " ++ quoted program ++ ": " ++ e.reason

/-- Runs a command that goes on if the terminal is closed. -/
def nohup : Utility := withOptions ⟨"", []⟩ false 125 fun start name g => do
  if g.operands.isEmpty then misuse name 125 "missing operand"
  else runCommand start (failedRun name) g.operands

/-- Runs a command with another priority. -/
def nice : Utility := withOptions ⟨"n:", [("adjustment", "n", .required)]⟩ false 125
  fun start name g => do
    if g.operands.isEmpty then
      Work.say "0"
      return .code 0
    else
      runCommand start (namedRun name) g.operands

/-- Runs a command in a session of its own. -/
def setsid : Utility := withOptions ⟨"cfw", [("wait", "w", .nothing)]⟩ false 1
  fun start name g => do
  let failed (program : String) (e : IoError) : String :=
    name ++ ": failed to execute " ++ program ++ ": " ++ e.reason
  if g.operands.isEmpty then misuse name 1 "no command specified"
  else runCommand start failed g.operands

/-- Runs a command with a bound on its time, which is never reached here. -/
def timeout : Utility := withOptions ⟨"k:s:v", [("kill-after", "k", .required),
    ("signal", "s", .required), ("preserve-status", "preserve-status", .nothing),
    ("foreground", "foreground", .nothing), ("verbose", "v", .nothing)]⟩ false 125
  fun start name g => do
    match g.operands with
    | [] =>
      tryHelp name
      return .code 125
    | [_] =>
      tryHelp name
      return .code 125
    | time :: command =>
      let rest := time.toList.dropWhile fun c => isDigit c || c = '.'
      let isTime : Bool := rest.length < time.length &&
        (rest.isEmpty || (rest.length = 1 && "smhd".toList.contains (rest.headD 's')))
      if isTime then runCommand start (failedRun name) command
      else misuse name 125 ("invalid time interval " ++ quoted time)

/-! ## Parts of the input -/

/-- The words of an input, quotes and backslashes taken away. -/
def inputWords : List Char → List (List Char) :=
  let rec go : Nat → Option (List Char) → List Char → List (List Char)
    | 0, acc, _ => (acc.map List.reverse).toList
    | _ + 1, acc, [] => (acc.map List.reverse).toList
    | fuel + 1, acc, c :: rest =>
      if c = ' ' ∨ c = '\t' ∨ c = '\n' then
        match acc with
        | some w => w.reverse :: go fuel none rest
        | none => go fuel none rest
      else if c = '\'' ∨ c = '"' then
        let inside := rest.takeWhile (· ≠ c)
        go fuel (some (inside.reverse ++ acc.getD [])) (rest.drop (inside.length + 1))
      else if c = '\\' then
        match rest with
        | d :: rest => go fuel (some (d :: acc.getD [])) rest
        | [] => (acc.map List.reverse).toList
      else go fuel (some (c :: acc.getD [])) rest
  fun s => go (s.length + 1) none s

/-- Rows of a bounded length. -/
def chunks (size : Nat) : Nat → List α → List (List α)
  | 0, _ => []
  | fuel + 1, xs =>
    if xs.isEmpty then []
    else xs.take (max size 1) :: chunks size fuel (xs.drop (max size 1))

/-- The parts of an input that options ask for. -/
def inputParts (g : Given) (text : List Char) : List String :=
  let lines := (Octets.lines text).1
  let isBlank (c : Char) : Bool := c = ' ' || c = '\t'
  let between (c : Char) : List String :=
    ((String.ofList text).splitOn (String.singleton c)).filter (!·.isEmpty)
  if g.has "0" then between '\x00'
  else match (g.value? "d").map (·.toList) with
    | some ['\\', 'n'] => lines.map String.ofList
    | some (c :: _) => between c
    | _ =>
      if g.has "I" then
        (lines.map fun l => String.ofList (l.dropWhile isBlank)).filter (!·.isEmpty)
      else (inputWords text).map String.ofList

/-- The commands that parts of an input make. -/
def inputCommands (g : Given) (words : List String) : List (List String) :=
  let command := if g.operands.isEmpty then ["echo"] else g.operands
  match g.value? "I" with
  | some mark => words.map fun w => command.map fun (a : String) => w.intercalate (a.splitOn mark)
  | none =>
    let most? := match g.value? "n", g.value? "L" with
      | some v, _ => natural? v
      | none, some v => natural? v
      | none, none => none
    if words.isEmpty then (if g.has "r" then [] else [command])
    else (chunks (most?.getD words.length) words.length words).map (command ++ ·)

/-- Runs commands; a failure that is not a plain one ends it. -/
def runAll (start : Starter) (name : String) (isTold : Bool) : Nat → List (List String) → Work Nat
  | status, [] => return status
  | status, c :: rest => do
    let program := c.headD ""
    let fatal (status : Nat) (message : String) : Work Nat := do
      Work.complain (name ++ ": " ++ program ++ ": " ++ message)
      return status
    if isTold then Work.complain (" ".intercalate c)
    match ← startOrRead start program c with
    | .ok (.code 0) => runAll start name isTold status rest
    | .ok (.code 255) => fatal 124 "exited with status 255; aborting"
    | .ok (.code _) => runAll start name isTold 123 rest
    | .ok (.signal n) => fatal 125 ("terminated by signal " ++ toString n)
    | .error e => fatal (if e = IoError.notFound then 127 else 126) e.reason

/-- Runs a command with the words of the input behind it. -/
def xargs : Utility := withOptions ⟨"0a:d:E:I:L:n:oP:prs:tx", [("null", "0", .nothing),
    ("delimiter", "d", .required), ("replace", "I", .required), ("max-args", "n", .required),
    ("max-lines", "L", .required), ("no-run-if-empty", "r", .nothing), ("verbose", "t", .nothing),
    ("max-procs", "P", .required)]⟩ false 1 fun start name g => do
  let text := (← Work.takeInput).toOption.getD []
  return .code (← runAll start name (g.has "t") 0 (inputCommands g (inputParts g text)))

/-! ## The user and the system -/

/-- Who runs programs. -/
def id : Utility := withOptions ⟨"agGnruzZ", [("user", "u", .nothing), ("group", "g", .nothing),
    ("groups", "G", .nothing), ("name", "n", .nothing)]⟩ true 1 fun _ name g => do
  let isOne := g.has "u" || g.has "g" || g.has "G"
  let unknown := g.operands.filter (· ≠ "root")
  unless unknown.isEmpty do
    for user in unknown do Work.complain (name ++ ": " ++ quoted user ++ ": no such user")
    return .code 1
  Work.say (if !isOne then "uid=0(root) gid=0(root) groups=0(root)"
    else if g.has "n" then "root" else "0")
  return .code 0

/-- The name of who runs programs. -/
def whoami : Utility := withOptions ⟨"", []⟩ true 1 fun _ name g => do
  match g.operands with
  | [] =>
    Work.say "root"
    return .code 0
  | a :: _ => misuse name 1 ("extra operand " ++ quoted a)

/-- The name of the system. -/
def uname : Utility := withOptions ⟨"asnrvmpio", [("all", "a", .nothing),
    ("kernel-name", "s", .nothing), ("machine", "m", .nothing),
    ("operating-system", "o", .nothing)]⟩ true 1 fun _ name g => do
  match g.operands with
  | [] =>
    let part (key value : String) : List String := if g.has key then [value] else []
    let parts := part "s" "Linux" ++ part "m" "x86_64" ++ part "o" "GNU/Linux"
    Work.say (" ".intercalate (if parts.isEmpty then ["Linux"] else parts))
    return .code 0
  | a :: _ => misuse name 1 ("extra operand " ++ quoted a)

end ServiceCall.Shell.Utility
