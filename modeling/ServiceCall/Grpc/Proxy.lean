import ServiceCall.Grpc.Status
import ServiceCall.Http.Address
import ServiceCall.Message.Wire
import ServiceCall.Proxy
/-!
# Proxies over a connection

A call of a method with one request and one answer becomes one request to the peer, whose
path names the interface and the method and whose body is the message in a frame. Methods
that stream, and methods whose names make no path, never reach the peer. The reply holds
the answer in a frame and the status of the call.
-/

namespace ServiceCall.Grpc

/-! ## Frames

A message on a connection stands behind a mark that says whether it is compressed and behind
its length in four bytes, the high byte first. Compressed messages and messages that are too
long are refused.
-/

/-- The longest message that is taken. -/
def maxLength : Nat := 4194304

/-- A number below `2 ^ 32` in four bytes, the high byte first. -/
def lengthBytes (n : Nat) : Bytes :=
  [UInt8.ofNat (n / 16777216 % 256), UInt8.ofNat (n / 65536 % 256), UInt8.ofNat (n / 256 % 256),
    UInt8.ofNat (n % 256)]

/-- A message in its frame. -/
def frame (message : Bytes) : Bytes := 0 :: lengthBytes message.length ++ message

/-- What stands at the front of a byte string. -/
inductive FrameRead where
  /-- A whole frame, and what stands behind it. -/
  | message (bytes rest : Bytes)
  /-- No whole frame; the bytes that were not taken from it. -/
  | incomplete (left : Bytes)
  | refused (s : Status)
  deriving Repr

/-- Why a mark other than zero is refused. The context ends the message about an unknown
mark. -/
def refuseMark (context : String) (mark : UInt8) : Status :=
  if mark = 1 then
    ⟨Status.internal, "protocol error: received message with compressed-flag but no " ++
      "grpc-encoding was specified"⟩
  else
    ⟨Status.internal, "protocol error: received message with invalid compression flag: " ++
      toString mark.toNat ++ " (valid flags are 0 and 1)" ++ context⟩

/-- Why a length is refused. -/
def refuseLength (length : Nat) : Status :=
  ⟨Status.outOfRange, "Error, decoded message length too large: found " ++ toString length ++
    " bytes, the limit is: " ++ toString maxLength ++ " bytes"⟩

/-- The length that four bytes give. -/
def lengthOf (a b c d : UInt8) : Nat :=
  a.toNat * 16777216 + b.toNat * 65536 + c.toNat * 256 + d.toNat

/-- Reads a message of a length. -/
def readMessage (length : Nat) (s : Bytes) : FrameRead :=
  if maxLength < length then .refused (refuseLength length)
  else if s.length < length then .incomplete s
  else .message (s.take length) (s.drop length)

/-- Reads a frame. -/
def readFrame (context : String) : Bytes → FrameRead
  | mark :: a :: b :: c :: d :: rest =>
    if mark = 0 then readMessage (lengthOf a b c d) rest else .refused (refuseMark context mark)
  | left => .incomplete left

theorem lengthOf_lengthBytes (n : Nat) (h : n < 4294967296) :
    lengthOf (UInt8.ofNat (n / 16777216 % 256)) (UInt8.ofNat (n / 65536 % 256))
      (UInt8.ofNat (n / 256 % 256)) (UInt8.ofNat (n % 256)) = n := by
  simp only [lengthOf, UInt8.toNat_ofNat']
  omega

/-- A frame is read back, whatever stands behind it. -/
theorem readFrame_frame (context : String) (message rest : Bytes) (h : message.length ≤ maxLength) :
    readFrame context (frame message ++ rest) = .message message rest := by
  have bound : message.length < 4294967296 := Nat.lt_of_le_of_lt h (by decide)
  simp only [frame, lengthBytes, List.cons_append, List.nil_append, readFrame, if_true,
    lengthOf_lengthBytes _ bound, readMessage]
  simp [Nat.not_lt.mpr h]

theorem length_le_of_readMessage {length : Nat} {s bytes rest : Bytes}
    (h : readMessage length s = .message bytes rest) : rest.length ≤ s.length := by
  unfold readMessage at h
  split at h
  · simp at h
  · split at h
    · simp at h
    · simp at h
      simp [← h.2]

theorem length_lt_of_readFrame {context : String} {s bytes rest : Bytes}
    (h : readFrame context s = .message bytes rest) : rest.length < s.length := by
  unfold readFrame at h
  split at h
  · split at h
    · have := length_le_of_readMessage h
      simp
      omega
    · simp at h
  · simp at h

/-! ## The reply to a call with one answer

The first message of a reply is its answer, but only if the reply goes on without fault to
its end and ends with success: all later messages are read too, and the status stands in the
fields behind the body. A status in the fields before the body ends the call there and then,
unless it is success; no other one is asked for then.
-/

/-- The messages of a body as they are read, and how reading ends. -/
inductive Stream where
  | next (m : Message) (rest : Stream)
  /-- The body is over. These bytes were left. -/
  | ended (left : Bytes)
  | fault (s : Status)

/-- The message of a type in a frame. -/
def readAnswer (p : Pool) (type : String) (bytes : Bytes) : Except Status Message :=
  (Message.decode p type bytes).mapError fun f =>
    ⟨Status.internal, "Failed to decode Protobuf bytes: " ++ f.message⟩

/-- Reads the messages of a body. -/
def readStream (p : Pool) (type context : String) (body : Bytes) : Stream :=
  match _h : readFrame context body with
  | .incomplete left => .ended left
  | .refused s => .fault s
  | .message bytes rest =>
    match readAnswer p type bytes with
    | .error s => .fault s
    | .ok m => .next m (readStream p type context rest)
  termination_by body.length
  decreasing_by exact length_lt_of_readFrame _h

/-- How a reply has to end: with success, or with no status of its own at all. -/
inductive Ending where
  | status (http : Nat)
  | none

/-- What follows from the end of a body. Bytes left over are a fault only if nothing comes
behind them. -/
def finish (ending : Ending) (trailers : Option Http.Fields) (left : Bytes) : Except Status Unit :=
  if trailers.isNone && !left.isEmpty then
    .error ⟨Status.internal, "Unexpected EOF decoding stream."⟩
  else match ending with
    | .none => .ok ()
    | .status http =>
      match trailers.bind Status.ofFields? with
      | some s => if s.code = Status.success then .ok () else .error s
      | none => .error (Status.ofHttp http)

/-- Reads on to the end. -/
def drain (ending : Ending) (trailers : Option Http.Fields) : Stream → Except Status Unit
  | .next _ rest => drain ending trailers rest
  | .ended left => finish ending trailers left
  | .fault s => .error s

/-- The answer of a stream. -/
def answerOf (ending : Ending) (trailers : Option Http.Fields) : Stream → Except Status Message
  | .next m rest => do
    drain ending trailers rest
    return m
  | .ended left => do
    finish ending trailers left
    .error ⟨Status.internal, "Missing response message."⟩
  | .fault s => .error s

/-- The encoding of the messages is one that is understood. -/
def checkEncoding (headers : Http.Fields) : Except Status Unit :=
  match Http.field? "grpc-encoding" headers with
  | none => .ok ()
  | some encoding =>
    if encoding = "identity" then .ok ()
    else .error ⟨Status.unimplemented,
      "Content is compressed with \x60" ++ encoding ++ "\x60 which isn't supported"⟩

/-- How the reply has to end after the fields before its body. -/
def endingOf (r : Http.Reply) : Except Status Ending :=
  match Status.ofFields? r.headers with
  | some s => if s.code = Status.success then .ok .none else .error s
  | none => .ok (.status r.status)

/-- What a fault tells about a reply that may or may not have to give a status. -/
def Ending.context : Ending → String
  | status http => " while receiving response with status: " ++ Http.statusText http
  | none => ", while sending request"

/-- The answer of a reply. -/
def answer (p : Pool) (type : String) (r : Http.Reply) : Except Status Message := do
  checkEncoding r.headers
  let ending ← endingOf r
  answerOf ending r.trailers (readStream p type ending.context r.body)

/-! ## Calls -/

/-- What stands at the other end of a connection, in a world of states. -/
structure Peer (World : Type) where
  /-- Whether a request can be sent, or why not. -/
  ready : World → Except String Unit
  reply : Http.Request → World → Http.Reply × World
  /-- What the connection says of a text that is no path of a request. -/
  pathWording : String → String

/-- The peer that no request reaches, for a reason. -/
def Peer.unreachable (reason : String) (pathWording : String → String) : Peer World where
  ready _ := .error reason
  reply _ w := (⟨200, [], [], none⟩, w)
  pathWording := pathWording

/-- What every request says of itself: what it can take behind a body, and the form of its own. -/
def headers : Http.Fields := [("te", "trailers"), ("content-type", "application/grpc")]

/-- The path of a method of an interface. -/
def methodPath (interface : String) (m : Method) : String := "/" ++ interface ++ "/" ++ m.name

/-- The request that a call becomes. -/
def request (p : Pool) (interface : String) (m : Method) (message : Message) : Http.Request :=
  ⟨"POST", .ofText (methodPath interface m), headers, frame (message.encode p)⟩

/-- The method cannot be called with one request and one answer. -/
def streams (m : Method) : Bool := m.clientStreaming || m.serverStreaming

/-- Calls a method of an interface. -/
def call (p : Pool) (peer : Peer World) (interface : String) (m : Method) (message : Message)
    (w : World) : Except CallFault Message × World :=
  if streams m then (.error (.grpc (.streaming m.fullName)), w)
  else if !Http.isPath (utf8 (methodPath interface m)) then
    (.error (.grpc (.path (methodPath interface m) (peer.pathWording (methodPath interface m)))), w)
  else match peer.ready w with
    | .error reason => (.error (.grpc (.notReady reason)), w)
    | .ok () =>
      let (reply, w) := peer.reply (request p interface m message) w
      ((answer p m.output reply).mapError fun s => .grpc (.status s), w)

/-- The proxy of an interface at a peer. -/
def proxy (p : Pool) (peer : Peer World) (s : Service) : Proxy World :=
  ⟨call p peer s.fullName⟩

/-- The factory whose proxies all call the same peer, whatever the address. -/
def factory (peer : Peer World) : ProxyFactory World :=
  ⟨fun p s _ w => (.ok (proxy p peer s), w)⟩

/-- The start of an address that names a socket on the same machine. -/
def socketScheme : String := "unix:"

/-- A connection can be opened to the address. -/
def isConnectable (address : String) : Bool :=
  socketScheme.toList.isPrefixOf address.toList || Http.isAddress (utf8 address)

/-- The factory whose proxies call the peer at an address. A proxy is made without a word to
the peer; an address that is none is refused, which the transport puts in its own words. -/
def connecting (wording : String → String) (peerAt : String → Peer World) : ProxyFactory World :=
  ⟨fun p s address w =>
    if isConnectable address then (.ok (proxy p (peerAt address) s), w)
    else (.error (.address address (wording address)), w)⟩

end ServiceCall.Grpc
