import ServiceCall.Shell.State
/-!
# Evaluation

What the parts of a shell need of each other, and what is built on that alone: carrying
out a text command by command, ending a shell, and going on in a shell of its own.
-/

namespace ServiceCall.Shell

/-- What a word is expanded for. -/
inductive Purpose where
  /-- For fields: separators count, and so does each positional parameter. -/
  | fields
  | value
  | assignment
  | document
  deriving DecidableEq, Repr

/-- How the parts of a shell are carried out. -/
structure Interpreter where
  expand : Purpose → Word → Act (List Glyph)
  /-- Carries out a command. The flag tells that its failure is looked at by another one. -/
  run : Bool → Script → Act Unit
  /-- Runs a program. -/
  start : Starter

/-- A bound on the rounds of a loop. -/
def roundLimit : Nat := 100000

namespace Act

/-- What is said about a process that a signal has ended. -/
def signalText : Nat → Option String
  | 1 => some "Hangup"
  | 3 => some "Quit"
  | 4 => some "Illegal instruction"
  | 5 => some "Trace/breakpoint trap"
  | 6 => some "Aborted"
  | 7 => some "Bus error"
  | 8 => some "Floating point exception"
  | 9 => some "Killed"
  | 10 => some "User defined signal 1"
  | 11 => some "Segmentation fault"
  | 12 => some "User defined signal 2"
  | 14 => some "Alarm clock"
  | 15 => some "Terminated"
  | 16 => some "Stack fault"
  | 24 => some "CPU time limit exceeded"
  | 25 => some "File size limit exceeded"
  | 26 => some "Virtual timer expired"
  | 27 => some "Profiling timer expired"
  | 29 => some "I/O possible"
  | 30 => some "Power failure"
  | 31 => some "Bad system call"
  | n => if 34 ≤ n then some ("Real-time signal " ++ toString (n - 34)) else none

/-- Takes the status of a process that has ended. -/
def take : ExitStatus → Act Unit
  | .code n => setStatus n
  | .signal n => do
    match signalText n with
    | some text =>
      let _ ← emit 2 (text.toList ++ ['\n'])
    | none => pure ()
    setStatus (128 + n)

/-- Repeats a step until it gives a result. -/
def iterate (step : σ → Act (σ ⊕ α)) : Nat → σ → Act α
  | 0, _ => fail "Too many rounds"
  | n + 1, s => do
    match ← step s with
    | .inl s => iterate step n s
    | .inr a => return a

/-- Repeats a step. -/
def repeating (s : σ) (step : σ → Act (σ ⊕ α)) : Act α := iterate step roundLimit s

end Act

/-- What a shell is that goes on with a part of a script. -/
def State.forked (s : State) : State :=
  { s with
    loops := 0
    isForked := true
    readLine := 1
    traps := s.traps.filter fun t => t.2.isEmpty }

namespace Interpreter

/-- Reads the next complete command. -/
def nextCommand (source : Source) : Act (Option Script × Source) := do
  let s ← get
  match Reading.complete?.run (source.within s.nextDocument s.aliases) with
  | .error f =>
    modify fun s => { s with line := f.line }
    Act.fail ("Syntax error: " ++ f.message)
  | .ok (c, source) =>
    modify fun s => { s with
      documents := source.documents ++ s.documents
      nextDocument := source.nextDocument
      readLine := source.line }
    return (c, { source with documents := [] })

/-- Carries out a text. The status is zero if it holds no command. -/
def evalText (i : Interpreter) (isTested : Bool) (text : List Char) : Act Unit := do
  let source := Source.ofText text 1 0 []
  Act.restoring (fun old s => { s with readLine := old.readLine }) do
    Act.repeating (source, false) fun (source, isRun) => do
      match ← nextCommand source with
      | (none, _) =>
        unless isRun do Act.setStatus 0
        return .inr ()
      | (some .nothing, source) => return .inl (source, isRun)
      | (some c, source) =>
        i.run isTested c
        return .inl (source, true)

/-- Carries out what was asked for at the end of the shell. It can change the status. -/
def atEnd (i : Interpreter) : Act Unit := do
  let s ← get
  match s.traps.lookup 0 with
  | none => return ()
  | some text =>
    set { s with traps := s.traps.filter (·.1 ≠ 0), loops := 0 }
    try
      i.evalText false text.toList
      Act.setStatus s.status
    catch stop =>
      match stop with
      | .killed n => throw (.killed n)
      | .exited | .failed => return ()
      | _ => Act.setStatus s.status

/-- Carries out a step to the end of the shell. Only the death by a signal is left. -/
def toEnd (i : Interpreter) (body : Act Unit) : Act Unit := do
  try body
  catch stop =>
    match stop with
    | .killed n => throw (.killed n)
    | _ => pure ()
  i.atEnd

/-- A signal to the shell's own process. -/
def receive (i : Interpreter) (signal : Nat) : Act Unit := do
  let s ← get
  let isHarmless : Bool := signal = 0 || (17 ≤ signal && signal ≤ 23) || signal = 28
  match if signal = 9 then none else s.traps.lookup signal with
  | some "" => pure ()
  | some text =>
    i.evalText false text.toList
    Act.setStatus s.status
  | none => unless isHarmless do throw (.killed signal)

/-- Receives the signals that were sent to the shell while another process ran. -/
def deliver (i : Interpreter) : Act Unit := do
  let s ← get
  unless s.isForked do
    let (own, others) := s.signals.partition fun t => t.1 = s.process
    set { s with signals := others }
    for (_, signal) in own.reverse do i.receive signal

/-- Carries out a step in a shell of its own. The status is that of the step. -/
def apart (i : Interpreter) (prepare : State → State) (body : Act Unit) : Act Unit := do
  let (result, inner) ← Act.apart do
    modify fun s => prepare (State.forked s)
    i.toEnd body
  match result with
  | .error (.killed n) => Act.take (.signal n)
  | _ => Act.take (.code (inner.status % 256))
  i.deliver

/-- Carries out a step in a shell of its own and gives what it writes to its output. -/
def captured (i : Interpreter) (prepare : State → State) (body : Act Unit) :
    Act (List Char) := do
  let sink := (← get).nextSink
  modify fun s => { s with nextSink := sink + 1 }
  i.apart (fun s => (prepare s).opening 1 (.sink sink)) body
  let s ← get
  set { s with output := s.output.filter (·.1 ≠ sink) }
  return Work.written sink s.output

end Interpreter

end ServiceCall.Shell
