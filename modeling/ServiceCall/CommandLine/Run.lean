import ServiceCall.Build.Protoc
import ServiceCall.CommandLine.Settings
import ServiceCall.Display.Basic
/-!
# Carrying out a command line

A command line is carried out on a client made for its address and its settings. What comes
of it is either an answer or the first failure on the way; an answer is all that stands on
the output, and a failure all that stands on the stream for errors.
-/

namespace ServiceCall.CommandLine

/-- What a command line is carried out with. -/
structure Surroundings (World : Type) where
  environment : Environment
  /-- What is said of settings that are not understood. -/
  settingsWording : Json.Wording
  web : Description.Fetcher
  launch : Launcher
  /-- What is said of a generator's report that is not understood. -/
  reportWording : Json.Wording
  host : Pool
  factory : Except IoError (ProxyFactory World)

/-- What a client is made with under some settings. -/
def Surroundings.collaborators (s : Surroundings World) (c : Configuration) :
    Collaborators World where
  web := s.web
  generator := c.generator.generator s.launch s.reportWording
  toolchain := Protoc.toolchain s.launch c.protoc
  host := s.host
  factory := s.factory

/-- What a command line yields. -/
inductive Answer where
  | names (kind : SymbolKind) (names : List String)
  | methods (interface : String) (signatures : List Signature)
  | reply (v : Json)

/-- Why a command line yields nothing. -/
inductive Failure where
  | settings (e : SettingsError)
  | init (e : InitError)
  | request (e : RequestError)
  | invocation (e : InvocationError)
  | reply (f : MappingFault)

/-- What several symbols of a kind are called. -/
def plural : SymbolKind → String
  | .interface => "interfaces"
  | .service => "services"

/-- The text of an answer. -/
def Answer.text (coloured : Bool) : Answer → String
  | names kind listed => Display.names coloured (plural kind) listed
  | methods interface signatures => (Display.interface interface signatures).text coloured
  | reply v => (Display.json v).text coloured

/-- The text of a failure. -/
def Failure.text (coloured : Bool) (f : Failure) : String :=
  Display.text coloured
    (match f with
      | settings e => Display.errorChain e.chain
      | init e => Display.initError e
      | request e => Display.requestError e
      | invocation e => Display.invocationError e
      | reply f => Display.errorChain [f.message])

section

variable {World : Type}

/-- Binds the method that a call asks for. -/
def bind (c : Client World) (r : CallRequest) (w : World) :
    Except RequestError (Invoker World) × Option DefaultChosen × World :=
  match r.target, r.method with
  | some (interface, service), method => c.requestWith interface service method w
  | none, some method => c.requestMethod method w
  | none, none => c.request w

/-- Calls with the whole input of a call, or with its arguments. -/
def invoke (i : Invoker World) (r : CallRequest) (w : World) :
    Except InvocationError Reply × World :=
  match r.body with
  | some body => i.invokeMessage body w
  | none => i.invoke r.args w

/-- What a reply yields. -/
def answerOf (r : Reply) : Except Failure Answer :=
  match r.toJson with
  | .ok v => .ok (.reply v)
  | .error f => .error (.reply f)

/-- Carries out a call. -/
def call (c : Client World) (r : CallRequest) (w : World) : Except Failure Answer × World :=
  let (bound, _, w) := bind c r w
  match bound with
  | .error e => (.error (.request e), w)
  | .ok i =>
    let (replied, w) := invoke i r w
    match replied with
    | .error e => (.error (.invocation e), w)
    | .ok reply => (answerOf reply, w)

/-- Carries out a command on a client. -/
def execute (c : Client World) (command : Command) (w : World) :
    Except Failure Answer × World :=
  match command with
  | .list .interface => (.ok (.names .interface c.interfaces), w)
  | .list .service => (.ok (.names .service c.services), w)
  | .describe interface =>
    match c.methods interface with
    | .ok signatures => (.ok (.methods interface signatures), w)
    | .error e => (.error (.request e), w)
  | .call r => call c r w

/-- Carries out a command line: its answer or the first failure, and the disk and the world
after it. -/
def run (s : Surroundings World) (l : CommandLine) (d : Disk) (w : World) :
    Except Failure Answer × Disk × World :=
  match Configuration.resolve s.settingsWording s.environment d l with
  | .error e => (.error (.settings e), d, w)
  | .ok config =>
    let (made, _, d) := Client.init (s.collaborators config) config l.address d
    match made with
    | .error e => (.error (.init e), d, w)
    | .ok client =>
      let (result, w) := execute client l.command w
      (result, d, w)

end

/-- What is left of a run when it is over. -/
structure Outcome where
  exitCode : Nat
  output : String
  errors : String
  deriving DecidableEq, Repr

/-- The version of the program. -/
def versionText : String := "wsreq 0.1.0\n"

/-- The outcome of a command line that is not carried out. -/
def Outcome.ofUsage (e : UsageError) : Outcome :=
  ⟨e.exitCode, if e = .version then versionText else "", ""⟩

/-- The outcome of a result. -/
def Outcome.ofResult (coloured : Bool) : Except Failure Answer → Outcome
  | .ok a => ⟨0, Display.shown (a.text coloured) ++ "\n", ""⟩
  | .error f => ⟨1, "", Display.shown (f.text coloured) ++ "\n"⟩

end ServiceCall.CommandLine
