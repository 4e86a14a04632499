import ServiceCall.Http.Exchange
import ServiceCall.Text.Hidden
/-!
# The status of a call

Every call ends with a status: a number and a message, which stand in the fields of the
reply. A reply without one is given the status that its HTTP status stands for.
-/

namespace ServiceCall.Grpc

/-- How a call ended. -/
structure Status where
  code : Nat
  message : String
  deriving DecidableEq, Repr, Inhabited

namespace Status

def success : Nat := 0
def unknown : Nat := 2
def permissionDenied : Nat := 7
def outOfRange : Nat := 11
def unimplemented : Nat := 12
def internal : Nat := 13
def unavailable : Nat := 14
def unauthenticated : Nat := 16

/-- What a code means. -/
def describe : Nat → String
  | 0 => "The operation completed successfully"
  | 1 => "The operation was cancelled"
  | 3 => "Client specified an invalid argument"
  | 4 => "Deadline expired before operation could complete"
  | 5 => "Some requested entity was not found"
  | 6 => "Some entity that we attempted to create already exists"
  | 7 => "The caller does not have permission to execute the specified operation"
  | 8 => "Some resource has been exhausted"
  | 9 => "The system is not in a state required for the operation's execution"
  | 10 => "The operation was aborted"
  | 11 => "Operation was attempted past the valid range"
  | 12 => "Operation is not implemented or not supported"
  | 13 => "Internal error"
  | 14 => "The service is currently unavailable"
  | 15 => "Unrecoverable data loss or corruption"
  | 16 => "The request does not have valid authentication credentials"
  | _ => "Unknown error"

/-- The text of a status. -/
def text (s : Status) : String :=
  "code: '" ++ describe s.code ++ "'" ++
    (if s.message.isEmpty then "" else ", message: " ++ Text.escaped s.message)

/-- The code that a field's value stands for: a number of one or two digits without a leading
zero, or else the code of what is not known. -/
def readCode (value : String) : Nat :=
  match value.toList with
  | [d] => if '0' ≤ d ∧ d ≤ '9' then d.toNat - '0'.toNat else unknown
  | ['1', d] => if '0' ≤ d ∧ d ≤ '6' then 10 + (d.toNat - '0'.toNat) else unknown
  | _ => unknown

/-- The status that fields hold. A message that is no text takes its place. -/
def ofFields? (fields : Http.Fields) : Option Status :=
  (Http.field? "grpc-status" fields).map fun value =>
    let bytes := Http.percentDecode (utf8 ((Http.field? "grpc-message" fields).getD ""))
    match Utf8.fault? bytes with
    | some fault => ⟨unknown, "Error deserializing status message header: " ++ fault.message⟩
    | none => ⟨readCode value, Utf8.lossy bytes⟩

/-- The status of a reply that holds none, by its HTTP status. -/
def ofHttp (status : Nat) : Status :=
  if status = 200 then
    ⟨unknown, "protocol error: missing grpc-status trailer, stream was terminated without a " ++
      "final status (possible truncation by a proxy or load balancer)"⟩
  else
    let code :=
      match status with
      | 400 => internal
      | 401 => unauthenticated
      | 403 => permissionDenied
      | 404 => unimplemented
      | 429 | 502 | 503 | 504 => unavailable
      | _ => unknown
    ⟨code, "grpc-status header missing, mapped from HTTP status code " ++ toString status⟩

end Status

end ServiceCall.Grpc
