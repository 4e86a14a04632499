import ServiceCall.Client.Init
import ServiceCall.Invoker
/-!
# Binding methods

A client lists what its description declares and binds methods of declared interfaces
through declared services. Names are looked up in a fixed order, the service first and the
method last, and a proxy is only asked for when all of them are found.
-/

namespace ServiceCall

/-- What a name should have been declared as. -/
inductive SymbolKind where
  | interface
  | service
  deriving DecidableEq, Repr

def SymbolKind.text : SymbolKind → String
  | interface => "interface"
  | service => "service"

/-- Why a method is not bound. -/
inductive RequestError where
  | notFound (kind : SymbolKind) (name : String)
  | empty (kind : SymbolKind)
  | noSuchMethod (interface : String) (method : Option String)
  | proxy (e : ProxyError)
  deriving DecidableEq, Repr

/-- How a method that is not there is spoken of. -/
def RequestError.methodText : Option String → String
  | some name => "'" ++ name ++ "'"
  | none => "to bind by default"

def RequestError.message : RequestError → String
  | notFound kind name => "Unknown " ++ kind.text ++ " '" ++ name ++ "'"
  | empty kind => "The descriptor does not declare any " ++ kind.text
  | noSuchMethod i m => "No method " ++ methodText m ++ " in interface '" ++ i ++ "'"
  | proxy e => e.message

/-- A warning that a method was chosen out of several without being named. -/
structure DefaultChosen where
  interface : String
  candidates : Nat
  deriving DecidableEq, Repr

def DefaultChosen.message : String := "no method named, binding the first declared one"

namespace Client

variable {World : Type}

/-- The names of the interfaces. -/
def interfaces (c : Client World) : List String := c.registry.interfaces

/-- The names of the services. -/
def services (c : Client World) : List String := c.registry.services

/-- The signatures of an interface's methods. -/
def methods (c : Client World) (interface : String) : Except RequestError (List Signature) :=
  match c.registry.interface? interface with
  | some i => .ok (c.registry.signatures i)
  | none => .error (.notFound .interface interface)

/-- The interface of a name, if the service is declared too. -/
def target (r : Registry) (interface service : String) : Except RequestError LoadedInterface :=
  match r.service? service with
  | none => .error (.notFound .service service)
  | some _ =>
    match r.interface? interface with
    | none => .error (.notFound .interface interface)
    | some i => .ok i

/-- The method of a name, or the first one. -/
def choose (t : MethodTable) : Option String → Option Method
  | some name => t.find? name
  | none => t.default?

/-- The warning about a choice. -/
def warning? (interface : String) (t : MethodTable) : Option String → Option DefaultChosen
  | some _ => none
  | none => if 1 < t.length then some ⟨interface, t.length⟩ else none

/-- Binds a method of an interface through a service: the invoker or an error, the warning if
there is one, and the world after the proxy was made. -/
def requestWith (c : Client World) (interface service : String) (method : Option String)
    (w : World) : Except RequestError (Invoker World) × Option DefaultChosen × World :=
  match target c.registry interface service with
  | .error e => (.error e, none, w)
  | .ok loaded =>
    let warned := warning? interface loaded.methods method
    match choose loaded.methods method with
    | none => (.error (.noSuchMethod interface method), warned, w)
    | some m =>
      let (made, w) := c.factory.create c.registry.pool loaded.service c.serviceAddress w
      match made with
      | .error e => (.error (.proxy e), warned, w)
      | .ok proxy => (.ok ⟨c.registry.pool, m, proxy⟩, warned, w)

/-- The first interface and the first service. -/
def firstPair (c : Client World) : Except RequestError (String × String) :=
  match c.interfaces with
  | [] => .error (.empty .interface)
  | interface :: _ =>
    match c.services with
    | [] => .error (.empty .service)
    | service :: _ => .ok (interface, service)

/-- Binds a method of the first interface through the first service. -/
def requestFirst (c : Client World) (method : Option String) (w : World) :
    Except RequestError (Invoker World) × Option DefaultChosen × World :=
  match c.firstPair with
  | .error e => (.error e, none, w)
  | .ok (interface, service) => c.requestWith interface service method w

/-- Binds the first method of the first interface. -/
def request (c : Client World) (w : World) :
    Except RequestError (Invoker World) × Option DefaultChosen × World :=
  c.requestFirst none w

/-- Binds a method of the first interface. -/
def requestMethod (c : Client World) (method : String) (w : World) :
    Except RequestError (Invoker World) × Option DefaultChosen × World :=
  c.requestFirst (some method) w

end Client

end ServiceCall
