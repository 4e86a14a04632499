import ServiceCall.Disk.Basic
/-!
# Processes

A launcher runs a program on a disk. Starting it can fail; otherwise it ends with a status
and what it wrote to its two output streams, and leaves a disk behind.
-/

namespace ServiceCall

/-- How a process ended. -/
inductive ExitStatus where
  | code (n : Nat)
  | signal (n : Nat)
  deriving DecidableEq, Repr

namespace ExitStatus

def isSuccess (s : ExitStatus) : Bool := s = .code 0

/-- The name of a signal. -/
def signalName? : Nat → Option String
  | 1 => "SIGHUP"
  | 2 => "SIGINT"
  | 3 => "SIGQUIT"
  | 4 => "SIGILL"
  | 5 => "SIGTRAP"
  | 6 => "SIGABRT"
  | 7 => "SIGBUS"
  | 8 => "SIGFPE"
  | 9 => "SIGKILL"
  | 10 => "SIGUSR1"
  | 11 => "SIGSEGV"
  | 12 => "SIGUSR2"
  | 13 => "SIGPIPE"
  | 14 => "SIGALRM"
  | 15 => "SIGTERM"
  | 16 => "SIGSTKFLT"
  | 24 => "SIGXCPU"
  | 25 => "SIGXFSZ"
  | 26 => "SIGVTALRM"
  | 27 => "SIGPROF"
  | 29 => "SIGIO"
  | 30 => "SIGPWR"
  | 31 => "SIGSYS"
  | _ => none

/-- The signal of a number or of a name, with or without its first three letters. -/
def signal? (s : String) : Option Nat :=
  match s.toNat? with
  | some n => if 1 ≤ n ∧ n ≤ 64 then some n else none
  | none => (List.range 32).find? fun n =>
    signalName? n = some s ∨ signalName? n = some ("SIG" ++ s)

/-- The text of a status. -/
def text : ExitStatus → String
  | .code n => "exit status: " ++ toString n
  | .signal n =>
    match signalName? n with
    | some name => "signal: " ++ toString n ++ " (" ++ name ++ ")"
    | none => "signal: " ++ toString n

end ExitStatus

/-- What is left of a process. -/
structure ProcessOutput where
  status : ExitStatus
  stdout : Bytes
  stderr : Bytes
  deriving Repr

/-- A way to run the program of a name or path with arguments, which are texts of bytes. -/
abbrev Launcher := Path → List String → Disk → Except IoError ProcessOutput × Disk

end ServiceCall
