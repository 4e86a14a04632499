import ServiceCall.Grpc.Status
import ServiceCall.Message.Value
import ServiceCall.Schema.Pool
/-!
# Proxies

A proxy carries out the calls of one interface, in a world that calls can change; a factory
makes proxies for an interface and an address. Neither is asked for anything but that: a call
is made once and its failure is passed on.
-/

namespace ServiceCall

/-- Why a call over a connection fails. -/
inductive GrpcFault where
  | notReady (reason : String)
  | streaming (method : String)
  /-- The text is no path of a request, which the reader of paths puts in its own words. -/
  | path (path cause : String)
  | status (s : Grpc.Status)
  deriving DecidableEq, Repr

def GrpcFault.message : GrpcFault → String
  | notReady reason => "Internal error, the client was not ready: '" ++ reason ++ "'"
  | streaming method => "Streaming method '" ++ method ++ "' cannot be called through a proxy"
  | path p cause => "Invalid gRPC path '" ++ p ++ "': '" ++ cause ++ "'"
  | status s => "Remote call failed: '" ++ s.text ++ "'"

/-- Why a call fails. -/
inductive CallFault where
  | grpc (f : GrpcFault)
  | other (message : String)
  deriving DecidableEq, Repr

def CallFault.message : CallFault → String
  | grpc f => f.message
  | other message => message

/-- Why there is no proxy. -/
inductive ProxyError where
  | address (address cause : String)
  | create (interface cause : String)
  deriving DecidableEq, Repr

def ProxyError.message : ProxyError → String
  | address a cause => "Invalid address '" ++ a ++ "': '" ++ cause ++ "'"
  | create interface cause => "Failed to create proxy for '" ++ interface ++ "': '" ++ cause ++ "'"

/-- A proxy, in a world of states. -/
structure Proxy (World : Type) where
  call : Method → Message → World → Except CallFault Message × World

/-- A maker of proxies for interfaces of a pool, in a world of states. -/
structure ProxyFactory (World : Type) where
  create : Pool → Service → String → World → Except ProxyError (Proxy World) × World

end ServiceCall
