import ServiceCall.Description.Declarations
import ServiceCall.Disk.Basic
import ServiceCall.Registry.Index
import ServiceCall.Registry.Signature
import ServiceCall.Schema.Resolve
/-!
# The registry of loaded types

A registry is made from the artifacts of one build and from what the generator declared.
The artifacts are added to a copy of a host's pool; every declared interface has to be a
service there and every declared service a definition of some type.
-/

namespace ServiceCall

/-- Why loading fails. -/
inductive LoadError where
  | artifact (path : Path) (cause : IoError)
  | decode (path : Path) (cause : SchemaError)
  | missing (d : Declaration)
  | notAnInterface (d : Declaration)
  deriving DecidableEq, Repr

def LoadError.message : LoadError → String
  | artifact path cause => "Failed to read artifact '" ++ path.shown ++ "': '" ++ cause.message ++ "'"
  | decode path cause => "Failed to decode artifact '" ++ path.shown ++ "': '" ++ cause.message ++ "'"
  | missing d =>
    "Type '" ++ d.fullName ++ "' declared as '" ++ d.name ++ "' is missing from the compiled output"
  | notAnInterface d =>
    "Type '" ++ d.fullName ++ "' declared as interface '" ++ d.name ++
      "' is not a service definition"

/-- A definition of some type. -/
inductive Symbol where
  | service (s : Service)
  | message (t : MessageType)
  | enumeration (e : EnumType)

namespace Symbol

def name : Symbol → String
  | service s => s.name
  | message t => t.name
  | enumeration e => e.name

def fullName : Symbol → String
  | service s => s.fullName
  | message t => t.fullName
  | enumeration e => e.fullName

/-- What a pool has under a full name: a service, a message or an enum. -/
def find? (p : Pool) (name : String) : Option Symbol :=
  (p.service? name).map .service <|> (p.message? name).map .message <|>
    (p.enum? name).map .enumeration

end Symbol

/-- An interface with the service that defines it. -/
structure LoadedInterface where
  name : String
  service : Service
  methods : MethodTable
  deriving Inhabited

/-- A service with its definition. -/
structure LoadedService where
  name : String
  symbol : Symbol

/-- Interfaces and services by their declared names, over a pool. -/
structure Registry where
  pool : Pool
  interfaceIndex : Index LoadedInterface
  serviceIndex : Index LoadedService

namespace Registry

/-- Adds artifacts to a pool, in their order. -/
def addArtifacts (d : Disk) : Pool → List Path → Except LoadError Pool
  | p, [] => .ok p
  | p, path :: rest =>
    match d.read path with
    | .error e => .error (.artifact path e)
    | .ok bytes =>
      match p.addSet bytes with
      | .error e => .error (.decode path e)
      | .ok p => addArtifacts d p rest

/-- The service that a declared interface names. -/
def loadInterface (p : Pool) (d : Declaration) : Except LoadError LoadedInterface :=
  match Symbol.find? p d.fullName with
  | some (.service s) => .ok ⟨d.name, s, MethodTable.ofList s.methods⟩
  | some _ => .error (.notAnInterface d)
  | none => .error (.missing d)

/-- The definition that a declared service names. -/
def loadService (p : Pool) (d : Declaration) : Except LoadError LoadedService :=
  match Symbol.find? p d.fullName with
  | some s => .ok ⟨d.name, s⟩
  | none => .error (.missing d)

/-- Loads artifacts on top of a host's pool and looks up what was declared. -/
def load (d : Disk) (host : Pool) (artifacts : List Path) (model : Declarations) :
    Except LoadError Registry := do
  let pool ← addArtifacts d host artifacts
  let interfaces ← model.interfaces.mapM (loadInterface pool)
  let services ← model.services.mapM (loadService pool)
  return ⟨pool, Index.ofList (interfaces.map fun i => (i.name, i)),
    Index.ofList (services.map fun s => (s.name, s))⟩

/-- The names of the interfaces, in the order of their first declaration. -/
def interfaces (r : Registry) : List String := r.interfaceIndex.entries.map (·.name)

/-- The names of the services, in the order of their first declaration. -/
def services (r : Registry) : List String := r.serviceIndex.entries.map (·.name)

/-- The interface of a name. -/
def interface? (r : Registry) (name : String) : Option LoadedInterface := r.interfaceIndex.get? name

/-- The service of a name. -/
def service? (r : Registry) (name : String) : Option LoadedService := r.serviceIndex.get? name

/-- The signatures of an interface's methods. -/
def signatures (r : Registry) (i : LoadedInterface) : List Signature :=
  i.methods.toList.map (Signature.ofMethod r.pool)

end Registry

end ServiceCall
