import ServiceCall.Message.Json.Write
import ServiceCall.Proxy
import ServiceCall.Registry.Signature
/-!
# Invokers

An invoker is a method bound to a proxy. It is called with the values of the first fields of
the input, in ascending order of their numbers, or with the whole input as one JSON value;
the first way is the second with an object of the fields' names. What does not fit the input
never reaches the proxy.
-/

namespace ServiceCall

/-- Why arguments do not fit. -/
inductive ArgumentFault where
  | tooMany (limit given : Nat)
  | mapping (f : MappingFault)

def ArgumentFault.message : ArgumentFault → String
  | tooMany limit given =>
    "expected at most " ++ toString limit ++ " argument(s), got " ++ toString given
  | mapping f => f.message

/-- Why an invocation fails. Methods are named by their full names. -/
inductive InvocationError where
  | arguments (method : String) (reason : ArgumentFault)
  | remote (method : String) (cause : CallFault)

/-- What is said about arguments that do not fit. -/
def InvocationError.argumentsMessage (method reason : String) : String :=
  "Invalid arguments for '" ++ method ++ "': " ++ reason

def InvocationError.message : InvocationError → String
  | arguments m reason => argumentsMessage m reason.message
  | remote m cause => "Remote call to '" ++ m ++ "' failed: '" ++ cause.message ++ "'"

/-- The reply to an invocation, over the pool of its type. -/
structure Reply where
  pool : Pool
  message : Message

namespace Reply

/-- The whole reply. -/
def toJson (r : Reply) : Except MappingFault Json := r.message.toJson r.pool

/-- The value of the only field of a reply, if its type has exactly one and the reply is
written as an object that holds it. -/
def value? (r : Reply) : Option Json :=
  match Signature.onlyField? (r.pool.messageType r.message.type), r.toJson with
  | some f, .ok j => j.get? f.name
  | _, _ => none

end Reply

/-- A method bound to a proxy. -/
structure Invoker (World : Type) where
  pool : Pool
  method : Method
  proxy : Proxy World

namespace Invoker

variable {World : Type}

/-- The signature of the bound method. -/
def signature (i : Invoker World) : Signature := Signature.ofMethod i.pool i.method

/-- The text an invoker shows itself as. -/
def debugText (i : Invoker World) : String :=
  "Invoker \x7b method: " ++ Text.escaped i.method.fullName ++ ", .. \x7d"

/-- Calls the method with a message. -/
def call (i : Invoker World) (m : Message) (w : World) : Except InvocationError Reply × World :=
  let (result, w) := i.proxy.call i.method m w
  match result with
  | .ok reply => (.ok ⟨i.pool, reply⟩, w)
  | .error cause => (.error (.remote i.method.fullName cause), w)

/-- Calls the method with a JSON value for the whole input. -/
def invokeMessage (i : Invoker World) (body : Json) (w : World) :
    Except InvocationError Reply × World :=
  match Message.ofJson i.pool i.method.input body with
  | .error f => (.error (.arguments i.method.fullName (.mapping f)), w)
  | .ok m => i.call m w

/-- The fields that arguments are the values of, in order. -/
def parameters (i : Invoker World) : List Field := (i.pool.messageType i.method.input).fields

/-- The object of arguments under the names of their fields. -/
def bodyOf (fields : List Field) (args : List Json) : Json :=
  Json.ofMembers ((fields.map (·.name)).zip args)

/-- Calls the method with arguments in the order of the fields. -/
def invoke (i : Invoker World) (args : List Json) (w : World) :
    Except InvocationError Reply × World :=
  if i.parameters.length < args.length then
    (.error (.arguments i.method.fullName (.tooMany i.parameters.length args.length)), w)
  else i.invokeMessage (bodyOf i.parameters args) w

end Invoker

end ServiceCall
