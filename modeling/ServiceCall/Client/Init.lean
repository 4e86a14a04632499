import ServiceCall.Build.Basic
import ServiceCall.Description.Basic
import ServiceCall.Proxy
import ServiceCall.Registry.Basic
/-!
# Making a client

A client is made in four stages: its workspace is prepared, the description is retrieved and
turned into sources, the sources are built, and what was built is loaded. The first stage
that fails is the last one that runs.
-/

namespace ServiceCall

/-- Why there is no client. -/
inductive InitError where
  | workspace (root : Path) (cause : IoError)
  | description (e : DescriptionError)
  | build (e : BuildError)
  | load (e : LoadError)
  | transport (cause : IoError)

def InitError.message : InitError → String
  | workspace root cause =>
    "Failed to prepare workspace under '" ++ root.shown ++ "': '" ++ cause.message ++ "'"
  | description e => e.message
  | build e => e.message
  | load e => "Failed to load compiled types: '" ++ e.message ++ "'"
  | transport cause => "Failed to start the transport runtime: '" ++ cause.message ++ "'"

/-- What a client is made with. -/
structure Collaborators (World : Type) where
  web : Description.Fetcher
  generator : Generator
  toolchain : Toolchain
  /-- The definitions that generated ones may refer to. -/
  host : Pool
  /-- The factory of proxies, if the transport under it starts. -/
  factory : Except IoError (ProxyFactory World)

/-- What is done while a client is made. -/
inductive InitStep where
  | prepared (w : Workspace)
  | generated (g : Description.Generated)
  | built (s : BuildStep)
  | loaded (artifacts : List Path)

/-- A client that is ready to bind methods. -/
structure Client (World : Type) where
  /-- The address of the description. -/
  address : String
  workspace : Workspace
  registry : Registry
  factory : ProxyFactory World
  /-- Where calls go. -/
  serviceAddress : String

namespace Client

variable {World : Type}

/-- Loads what was built and puts the client together. -/
def assemble (c : Collaborators World) (config : Configuration) (address : String)
    (w : Workspace) (artifacts : List Path) (model : Declarations) (d : Disk) :
    Except InitError (Client World) :=
  match Registry.load d c.host artifacts model with
  | .error e => .error (.load e)
  | .ok registry =>
    match c.factory with
    | .error e => .error (.transport e)
    | .ok factory => .ok ⟨address, w, registry, factory, config.serviceAddress.getD address⟩

/-- Makes the client for the description at an address: the client or an error, the steps on
the way, and the disk after them. -/
def init (c : Collaborators World) (config : Configuration) (address : String) (d : Disk) :
    Except InitError (Client World) × List InitStep × Disk :=
  match Workspace.prepare d config.workspaceRoot address with
  | (.error e, d) => (.error (.workspace config.workspaceRoot e), [], d)
  | (.ok w, d) =>
    let (model, run, d) := Description.generate c.web c.generator address w d
    let steps := .prepared w :: (run.map InitStep.generated).toList
    match model with
    | .error e => (.error (.description e), steps, d)
    | .ok model =>
      let (built, builds, d) := Build.run c.toolchain config.includePaths w.sourceDir w.binaryDir d
      let steps := steps ++ builds.map .built
      match built with
      | .error e => (.error (.build e), steps, d)
      | .ok artifacts =>
        (assemble c config address w artifacts model d, steps ++ [.loaded artifacts], d)

end Client

end ServiceCall
