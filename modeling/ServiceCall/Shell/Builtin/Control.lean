import ServiceCall.Shell.Builtin.Basic
import ServiceCall.Shell.Condition
import ServiceCall.Shell.Expansion
import ServiceCall.Shell.Print
/-!
# Builtin commands for control, processes and places
-/

namespace ServiceCall.Shell.Builtin

/-! ## Control -/

/-- Leaves loops, or starts their next round. -/
def leaving (stop : Nat → Stop) : Builtin := fun _ _ args => do
  let n ← match args with
    | [] => pure 1
    | a :: _ => do
      let n ← natural a
      if n = 0 then Act.fail ("Illegal number: " ++ a)
      pure n
  done 0
  let loops := (← get).loops
  if 0 < min n loops then throw (stop (min n loops))

/-- The status that an argument names, or the last one. -/
def statusOf (args : List String) : Act Nat := do
  match args with
  | [] => return (← get).status
  | a :: _ => natural a

/-- Leaves a function or a file of commands. -/
def returning : Builtin := fun _ _ args => do
  done (← statusOf args)
  throw .returned

/-- Ends the shell. -/
def exiting : Builtin := fun _ _ args => do
  done (← statusOf args)
  throw .exited

/-- Carries out its arguments as a text. -/
def evaluating : Builtin := fun i isTested args =>
  i.evalText isTested (" ".intercalate args).toList

/-- Carries out the text of a file. -/
def sourcing : Builtin := fun i _ args => do
  match args with
  | [] => done 0
  | name :: _ =>
    let s ← get
    let path := if name.toList.contains '/' then some name
      else (Program.candidates (Call.searchPath s) name).find? fun p =>
        match s.disk.entry p with
        | .ok e => e.isFile
        | .error _ => false
    match path with
    | none => Act.fail (name ++ ": not found")
    | some path =>
      match s.disk.read path with
      | .ok content =>
        Act.restoring (fun old s => { s with builtin := old.builtin }) do
          modify fun s => { s with builtin := some path }
          try i.evalText false (Octets.ofBytes content)
          catch stop => if stop = .returned then pure () else throw stop
      | .error .isDirectory => done 0
      | .error e =>
        let reason := match e with
          | .notFound | .notDirectory => "No such file"
          | e => e.reason
        Act.fail ("cannot open " ++ path ++ ": " ++ reason)

/-- Ends the shell in favour of a program. Without one, the redirections of the command are
kept. -/
def executing : Builtin := fun i _ args => do
  match args with
  | [] => done 0
  | name :: rest =>
    match ← Call.program i name rest with
    | .ok status =>
      modify fun s => { s with traps := [] }
      match status with
      | .code n =>
        done n
        throw .exited
      | .signal n => throw (.killed n)
    | .error (status, message) =>
      Act.complain message
      done status
      throw .exited

/-! ## Processes -/

/-- The names of signals without their first three letters. -/
def signalNames : List (Nat × String) :=
  [(1, "HUP"), (2, "INT"), (3, "QUIT"), (4, "ILL"), (5, "TRAP"), (6, "ABRT"), (7, "BUS"),
    (8, "FPE"), (9, "KILL"), (10, "USR1"), (11, "SEGV"), (12, "USR2"), (13, "PIPE"),
    (14, "ALRM"), (15, "TERM"),
    (16, "STKFLT"), (17, "CHLD"), (18, "CONT"), (19, "STOP"), (20, "TSTP"), (21, "TTIN"),
    (22, "TTOU"), (23, "URG"), (24, "XCPU"), (25, "XFSZ"), (26, "VTALRM"), (27, "PROF"),
    (28, "WINCH"), (29, "IO"), (30, "PWR"), (31, "SYS"), (34, "RTMIN"), (64, "RTMAX")]

/-- The number just above those of the signals. -/
def signalBound : Nat := 65

/-- The signal that a text names or numbers. -/
def signal? (s : String) : Option Nat :=
  if !s.isEmpty && s.toList.all isDigit then
    let n := digitsValue s.toList
    if n < signalBound then some n else none
  else
    let upper := s.toList.map Char.toUpper
    (signalNames.find? fun n => n.2.toList = upper).map (·.1)

/-- The name of a signal. -/
def signalName (n : Nat) : String :=
  if n = 0 then "EXIT"
  else match signalNames.lookup n with
    | some name => name
    | none => "RTMIN+" ++ toString (n - 34)

/-- How a use of `kill` that makes no sense is answered. -/
def killUsage : String :=
  "Usage: kill [-s sigspec | -signum | -sigspec] [pid | job]... or\nkill -l [exitstatus]"

/-- Lists signals, or names the one of a number or a status. -/
def listSignals (operands : List String) : Act Unit := do
  match operands with
  | [] =>
    say "0"
    for n in (List.range signalBound).drop 1 do say (signalName n)
  | a :: _ =>
    let n ← natural a
    let signal := if 128 < n then n - 128 else n
    if 0 < signal ∧ signal < signalBound then say (signalName signal)
    else Act.fail ("invalid signal number or exit status: " ++ a)

/-- Sends a signal to processes. -/
def send (i : Interpreter) (signal : Nat) (targets : List String) : Act Unit := do
  done 0
  for target in targets do
    let (isGroup, digits) := match target.toList with
      | '-' :: ds => (true, String.ofList ds)
      | _ => (false, target)
    if target.toList.head? = some '%' then Act.fail ("No such job: " ++ target)
    let n ← natural digits
    let s ← get
    if !isGroup ∧ n = s.process ∧ !s.isForked then i.receive signal
    else if !isGroup ∧ (n = s.process ∨ s.ancestors.contains n) then
      set { s with signals := (n, signal) :: s.signals }
    else if !isGroup ∧ (s.jobs.lookup n).isSome then pure ()
    else
      Act.complain "No such process\n"
      done 1

/-- Sends a signal, by default the one that asks a process to end. -/
def kill : Builtin := fun i _ args => do
  match args with
  | [] => Act.fail killUsage
  | a :: rest =>
    let dashed := match a.toList with
      | '-' :: cs => some (String.ofList cs)
      | _ => none
    match dashed.bind signal? with
    | some signal =>
      if rest.isEmpty then Act.fail killUsage
      send i signal rest
    | none =>
      let (os, operands) ← parsed "ls:" args
      let chosen ← match os.getLast? with
        | some ('s', name) =>
          match signal? name with
          | some n => pure (some n)
          | none => Act.fail ("invalid signal number or name: " ++ name)
        | _ => pure none
      if os.any (·.1 = 'l') then
        if chosen.isSome then Act.fail killUsage
        listSignals operands
      else
        if operands.isEmpty then Act.fail killUsage
        send i (chosen.getD 15) operands

/-- Says what is to be done on signals. -/
def trap : Builtin := fun _ _ args => do
  let (_, operands) ← parsed "" args
  match operands with
  | [] =>
    let traps := (← get).traps.mergeSort fun a b => a.1 ≤ b.1
    for (n, text) in traps do
      say ("trap -- " ++ quoted text ++ " " ++ signalName n)
    done 0
  | first :: rest =>
    let isReset := rest.isEmpty || (!first.isEmpty && first.toList.all isDigit) || first = "-"
    let isNamed := isReset && first ≠ "-"
    let names := if isNamed then operands else rest
    done 0
    let _ ← names.foldlM (fun isGood name => do
      let signal := if name = "EXIT" then some 0 else signal? name
      match isGood, signal with
      | false, _ => return false
      | true, none =>
        let _ ← Act.emit 2 ("trap: " ++ name ++ ": bad trap\n").toList
        done 1
        return false
      | true, some n =>
        modify fun s =>
          let others := s.traps.filter (·.1 ≠ n)
          { s with traps := if isReset then others else (n, first) :: others }
        return true) true

/-- Waits for processes that run in the background; they have ended already. -/
def wait : Builtin := fun _ _ args => do
  done 0
  for a in args do
    let n ← natural a
    done (((← get).jobs.lookup n).getD 127)

/-! ## Places -/

/-- A path from the root without dots and with `..` taken back. -/
def normal (path : String) : String :=
  let parts := (path.splitOn "/").foldl (fun (acc : List String) part =>
    if part.isEmpty ∨ part = "." then acc
    else if part = ".." then acc.drop 1
    else part :: acc) []
  let slashes := path.toList.takeWhile (· = '/')
  (if slashes.length = 2 then "//" else "/") ++ "/".intercalate parts.reverse

/-- Goes to a directory; tells whether that worked. -/
def goTo (isPhysical : Bool) (target : String) : Act Bool := do
  let s ← get
  let path := if target.toList.head? = some '/' then target else s.directory ++ "/" ++ target
  let logical := normal path
  let place := s.disk.follow true (if isPhysical then path else logical)
  match place with
  | .ok ⟨location, some .directory⟩ =>
    let directory := if isPhysical then Location.path location else logical
    set { s with directory, disk := { s.disk with workingDirectory := location } }
    modify fun t => (t.withValue "OLDPWD" s.directory).withValue "PWD" directory
    return true
  | _ => return false

/-- Changes the working directory. -/
def cd : Builtin := fun _ _ args => do
  let (os, operands) ← parsed "LP" args
  let isPhysical := (os.getLast?.map (·.1)) = some 'P'
  let s ← get
  let target := match operands with
    | [] => (s.value? "HOME").getD ""
    | "-" :: _ => (s.value? "OLDPWD").getD s.directory
    | a :: _ => a
  let first := (target.splitOn "/").headD ""
  let isPlain := first ∉ ["", ".", ".."]
  let bases := if isPlain then ((s.value? "CDPATH").map (·.splitOn ":")).getD [] else []
  done 0
  unless target.isEmpty do
    let byPath ← bases.foldlM (fun isDone base => do
      if isDone then return true
      else if base.isEmpty then return false
      else goTo isPhysical (base ++ "/" ++ target)) false
    let isDone ← if byPath then pure true else goTo isPhysical target
    unless isDone do Act.fail ("can't cd to " ++ target)
    if byPath ∨ operands.head? = some "-" then say (← get).directory

/-- Writes the working directory. -/
def pwd : Builtin := fun _ _ args => do
  let (os, _) ← parsed "LP" args
  let s ← get
  say (if (os.getLast?.map (·.1)) = some 'P' then
    Location.path s.disk.workingDirectory else s.directory)
  done 0

/-- The permissions that new files do not get, after those that they do were changed by clauses
of who, how and which. -/
def maskAfter? (mask : Nat) (mode : String) : Option Nat :=
  let isWho (c : Char) : Bool := "ugoa".toList.contains c
  let rightsOf (cs : List Char) : Nat :=
    (if cs.contains 'r' then 4 else 0) + (if cs.contains 'w' then 2 else 0) +
      (if cs.contains 'x' then 1 else 0)
  let clause (mask : Nat) (text : List Char) : Option Nat :=
    let who := text.takeWhile isWho
    match text.drop who.length with
    | op :: rights =>
      if !"+-=".toList.contains op || !rights.all fun c => "rwxXst".toList.contains c then none
      else
        let isFor (c : Char) : Bool := who.isEmpty || who.contains c || who.contains 'a'
        let n := rightsOf rights
        let changed (c : Char) (shift : Nat) : Nat :=
          let old := mask / shift % 8
          let given := 7 - old
          let new := if op = '+' then given ||| n else if op = '-' then given &&& (7 - n) else n
          (if isFor c then 7 - new else old) * shift
        some (changed 'u' 64 + changed 'g' 8 + changed 'o' 1)
    | [] => none
  (mode.splitOn ",").foldl (fun acc text => acc.bind fun m => clause m text.toList) (some mask)

/-- Shows or sets the permissions that new files do not get. -/
def umask : Builtin := fun _ _ args => do
  let (os, operands) ← parsed "S" args
  let s ← get
  match operands with
  | [] =>
    let ds := Nat.toDigits 8 s.mask
    if os.isEmpty then say (String.ofList (List.replicate (4 - ds.length) '0' ++ ds))
    else
      let rights (shift : Nat) : String :=
        let bits := (511 - s.mask) / shift % 8
        (if bits / 4 % 2 = 1 then "r" else "") ++ (if bits / 2 % 2 = 1 then "w" else "") ++
          (if bits % 2 = 1 then "x" else "")
      say ("u=" ++ rights 64 ++ ",g=" ++ rights 8 ++ ",o=" ++ rights 1)
  | a :: _ =>
    if a.toList.all isDigit then
      unless a.toList.all Print.isOctal do Act.fail ("Illegal number: " ++ a)
      set { s with mask := Arithmetic.value 8 a.toList % 512 }
    else match maskAfter? s.mask a with
      | some mask => set { s with mask }
      | none => Act.fail ("Illegal mode: " ++ a)
  done 0

/-! ## Texts -/

/-- Writes its arguments. -/
def echo : Builtin := fun _ _ args => do
  put (Print.echo args)
  done 0

/-- Writes its arguments as a format says. -/
def printf : Builtin := fun _ _ args => do
  let (_, operands) ← parsed "" args
  match operands with
  | [] => Act.fail "usage: printf format [arg ...]"
  | format :: args =>
    let p := Print.printf format args
    for f in p.faults.reverse do Act.complain f.message
    put p.text
    done p.status

/-- Tells by its status whether a condition holds. -/
def test : Builtin := fun _ _ args => do
  match Condition.holds (← get).disk args with
  | .ok b => done (if b then 0 else 1)
  | .error message => Act.fail message

/-- The same with a closing bracket. -/
def bracket : Builtin := fun i isTested args => do
  if ((args.getLast?).bind (·.toList.head?)) ≠ some ']' then Act.fail "missing ]"
  test i isTested args.dropLast

end ServiceCall.Shell.Builtin
