import ServiceCall.Client.Basic
import ServiceCall.Grpc.Proxy
import ServiceCall.Proofs.Client.Progress
import ServiceCall.Proofs.Client.Renewal
import ServiceCall.Proofs.Registry.Load
import ServiceCall.Schema.Standard
/-!
# Sessions of a client with a peer

A client binds methods and its invokers call them, in any order. What reaches the peer can be told
beforehand from the declarations and the pool (`Operation.requests`).
-/

namespace ServiceCall

open Grpc (Peer)

/-! ## Peers with a log -/

/-- The peer with a log of the requests that reach it. -/
def Grpc.Peer.logged {World : Type} (peer : Peer World) : Peer (World × List Http.Request) where
  ready w := peer.ready w.1
  reply r w :=
    let (reply, next) := peer.reply r w.1
    (reply, next, w.2 ++ [r])
  pathWording := peer.pathWording

/-- The factory whose proxies call the peer that an address connects to. -/
def Grpc.through {World : Type} (connect : String → Except ProxyError (Peer World)) :
    ProxyFactory World :=
  ⟨fun p s address w => ((connect address).map fun peer => proxy p peer s, w)⟩

theorem Grpc.create_through {World : Type} (connect : String → Except ProxyError (Peer World))
    (p : Pool) (s : Service) (address : String) (w : World) :
    (through connect).create p s address w =
      ((connect address).map fun peer => proxy p peer s, w) := rfl

theorem Grpc.factory_eq_through {World : Type} (peer : Peer World) :
    factory peer = through fun _ => .ok peer := rfl

theorem Grpc.connecting_eq_through {World : Type} (wording : String → String)
    (peerAt : String → Peer World) :
    connecting wording peerAt = through fun address =>
      if isConnectable address then .ok (peerAt address)
      else .error (.address address (wording address)) := by
  unfold connecting through
  congr 1
  funext p s address w
  dsimp only
  split <;> rfl

/-- A client holds what is declared, and its proxies call the peer at an address. -/
structure Client.Ready {World : Type} (c : Client World) (model : Declarations)
    (connect : String → Except ProxyError (Peer World)) : Prop where
  registry : c.registry.LoadedFrom model
  factory : c.factory = Grpc.through connect

/-- Every client that is made is ready, with what the generator declared. -/
theorem Client.exists_ready {World : Type} {c : Client World} {k : Collaborators World}
    {connect : String → Except ProxyError (Peer World)} (hk : k.factory = .ok (Grpc.through connect))
    {config : Configuration} {address : String} {d : Disk}
    (h : (Client.init k config address d).1 = .ok c) :
    ∃ w start model, (Description.generate k.web k.generator address w start).1 = .ok model ∧
      c.Ready model connect := by
  unfold Client.init at h
  split at h
  next => cases h
  next w start _ =>
    dsimp only at h
    split at h
    next => cases h
    next model hmodel =>
      split at h
      next => cases h
      next artifacts _ =>
        refine ⟨w, start, model, hmodel, ?_⟩
        unfold assemble at h
        split at h
        next => cases h
        next registry hload =>
          rw [hk] at h
          obtain rfl := Except.ok.inj h
          exact ⟨Registry.loadedFrom_of_load hload, rfl⟩

/-! ## Operations -/

/-- What an invoker is called with. -/
inductive Arguments where
  /-- The values of the first fields of the input. -/
  | values (args : List Json)
  /-- The whole input. -/
  | body (j : Json)

namespace Arguments

/-- Calls an invoker. -/
def invoke {World : Type} (i : Invoker World) :
    Arguments → World → Except InvocationError Reply × World
  | values args => i.invoke args
  | body j => i.invokeMessage j

/-- The message that arguments make of the input of a method. -/
def message (p : Pool) (m : Method) : Arguments → Except ArgumentFault Message
  | values args =>
    let fields := (p.messageType m.input).fields
    if fields.length < args.length then .error (.tooMany fields.length args.length)
    else (Message.ofJson p m.input (Invoker.bodyOf fields args)).mapError .mapping
  | body j => (Message.ofJson p m.input j).mapError .mapping

/-- Only a message that arguments make is sent. -/
theorem invoke_eq {World : Type} (i : Invoker World) (a : Arguments) (w : World) :
    a.invoke i w = match a.message i.pool i.method with
      | .error f => (.error (.arguments i.method.fullName f), w)
      | .ok m => i.call m w := by
  have hbody (j : Json) : i.invokeMessage j w =
      match (Message.ofJson i.pool i.method.input j).mapError ArgumentFault.mapping with
      | .error f => (.error (.arguments i.method.fullName f), w)
      | .ok m => i.call m w := by
    rw [Invoker.invokeMessage]
    cases Message.ofJson i.pool i.method.input j <;> rfl
  cases a with
  | body j => exact hbody j
  | values args =>
    rw [invoke, message, Invoker.invoke, Invoker.parameters]
    split
    · rfl
    · exact hbody _

end Arguments

/-- What is done with a client and the invokers that it has bound. -/
inductive Operation where
  | requestWith (interface service : String) (method : Option String)
  | request
  | requestMethod (method : String)
  /-- Calls the invoker that was bound as the one of a number. -/
  | invoke (k : Nat) (a : Arguments)

/-- The invokers that have been bound, and the world. -/
structure Session (World : Type) where
  invokers : List (Invoker World)
  world : World

namespace Session

variable {World : Type}

/-- The session after a method was bound, or was not. -/
def bound (s : Session World)
    (r : Except RequestError (Invoker World) × Option DefaultChosen × World) : Session World :=
  ⟨s.invokers ++ r.1.toOption.toList, r.2.2⟩

/-- The session after an operation. -/
def step (c : Client World) (s : Session World) : Operation → Session World
  | .requestWith interface service method =>
    s.bound (c.requestWith interface service method s.world)
  | .request => s.bound (c.request s.world)
  | .requestMethod method => s.bound (c.requestMethod method s.world)
  | .invoke k a =>
    match s.invokers[k]? with
    | some i => ⟨s.invokers, (a.invoke i s.world).2⟩
    | none => s

/-- The session after some operations. -/
def run (c : Client World) (s : Session World) (ops : List Operation) : Session World :=
  ops.foldl (step c) s

end Session

/-! ## What is sent -/

/-- A method of a service. -/
structure Binding where
  service : Service
  method : Method

namespace Binding

/-- The path of the method. -/
def path (b : Binding) : String := Grpc.methodPath b.service.fullName b.method

/-- The invoker that calls the method at a peer. -/
def invoker {World : Type} (p : Pool) (peer : Peer World) (b : Binding) : Invoker World :=
  ⟨p, b.method, Grpc.proxy p peer b.service⟩

/-- The first of the methods, or the first of a name. -/
def method? (methods : List Method) : Option String → Option Method
  | some name => methods.find? (·.name == name)
  | none => methods.head?

/-- The method that names stand for, of the service that the last declaration of the interface
names, if the other service is declared. -/
def ofNames? (p : Pool) (model : Declarations) (interface service : String)
    (method : Option String) : Option Binding :=
  if service ∈ model.services.map (·.name) then do
    let d ← Declaration.last? model.interfaces interface
    let s ← p.service? d.fullName
    let m ← method? s.methods method
    return ⟨s, m⟩
  else none

/-- The method that is bound of the first interface through the first service. -/
def first? (p : Pool) (model : Declarations) (method : Option String) : Option Binding := do
  let i ← model.interfaces.head?
  let s ← model.services.head?
  ofNames? p model i.name s.name method

/-- The request that a call sends: there is one if the arguments make a message, the method does
not stream and its names make a path. -/
def request? (p : Pool) (b : Binding) (a : Arguments) : Option Http.Request :=
  match a.message p b.method with
  | .error _ => none
  | .ok m =>
    if Grpc.streams b.method then none
    else if Http.isPath (utf8 b.path) then
      some ⟨"POST", .ofText b.path, [("te", "trailers"), ("content-type", "application/grpc")],
        Grpc.frame (m.encode p)⟩
    else none

end Binding

namespace Operation

/-- The method that an operation binds. -/
def binding? (p : Pool) (model : Declarations) : Operation → Option Binding
  | requestWith interface service method => Binding.ofNames? p model interface service method
  | request => Binding.first? p model none
  | requestMethod method => Binding.first? p model (some method)
  | invoke _ _ => none

/-- The request that an operation sends. -/
def request? (p : Pool) (bindings : List Binding) : Operation → Option Http.Request
  | invoke k a => bindings[k]?.bind (·.request? p a)
  | _ => none

/-- The requests that operations send, one after the other. -/
def requests (p : Pool) (model : Declarations) :
    List Binding → List Operation → List Http.Request
  | _, [] => []
  | bindings, op :: rest =>
    (op.request? p bindings).toList ++
      requests p model (bindings ++ (op.binding? p model).toList) rest

end Operation

/-! ## Binding -/

section

variable {World : Type} {c : Client World} {model : Declarations}
  {connect : String → Except ProxyError (Peer World)}

theorem Client.choose_ofList (methods : List Method) (method : Option String) :
    choose (MethodTable.ofList methods) method = Binding.method? methods method := by
  cases method with
  | none => rfl
  | some name => exact MethodTable.find?_ofList methods name

/-- What a client binds is what the names stand for, if a peer can be connected to. Binding does not
touch the world. -/
theorem Client.Ready.requestWith (hc : c.Ready model connect) (interface service : String)
    (method : Option String) (w : World) :
    (c.requestWith interface service method w).1.toOption =
        (Binding.ofNames? c.registry.pool model interface service method).bind (fun b =>
          (connect c.serviceAddress).toOption.map fun peer => b.invoker c.registry.pool peer) ∧
      (c.requestWith interface service method w).2.2 = w := by
  unfold Client.requestWith Client.target Binding.ofNames?
  have hservice := hc.registry.isSome_service? service
  cases hs : c.registry.service? service with
  | none =>
    rw [hs] at hservice
    rw [if_neg fun hmem => Bool.false_ne_true (hservice.2 hmem)]
    exact ⟨rfl, rfl⟩
  | some loaded =>
    rw [hs] at hservice
    rw [if_pos (hservice.1 rfl), hc.registry.interface?]
    cases Declaration.last? model.interfaces interface with
    | none => exact ⟨rfl, rfl⟩
    | some d =>
      rw [Option.bind_some, Registry.interfaceOf?]
      cases hservice : c.registry.pool.service? d.fullName with
      | none => exact ⟨by simp [hservice, Except.toOption], rfl⟩
      | some s =>
        dsimp only [Option.map_some]
        rw [choose_ofList]
        simp only [Option.bind_eq_bind, Option.bind_some, hservice]
        cases Binding.method? s.methods method with
        | none => exact ⟨rfl, rfl⟩
        | some m =>
          have hcreate := Grpc.create_through connect c.registry.pool s c.serviceAddress w
          rw [← hc.factory] at hcreate
          simp only [hcreate]
          cases connect c.serviceAddress <;> exact ⟨rfl, rfl⟩

/-- The first interface and the first service are the first declared ones. -/
theorem Client.Ready.requestFirst (hc : c.Ready model connect) (method : Option String) (w : World) :
    (c.requestFirst method w).1.toOption =
        (Binding.first? c.registry.pool model method).bind (fun b =>
          (connect c.serviceAddress).toOption.map fun peer => b.invoker c.registry.pool peer) ∧
      (c.requestFirst method w).2.2 = w := by
  unfold Client.requestFirst firstPair Binding.first? Client.interfaces Client.services
  rw [hc.registry.interfaces, hc.registry.services]
  cases hi : model.interfaces with
  | nil => exact ⟨rfl, rfl⟩
  | cons i _ =>
    rw [List.map_cons, List.eraseDups_cons]
    cases hs : model.services with
    | nil => exact ⟨rfl, rfl⟩
    | cons s _ =>
      rw [List.map_cons, List.eraseDups_cons]
      exact hc.requestWith i.name s.name method w

end

/-! ## Calling -/

section

variable {World : Type}

/-- A call leaves the world as the proxy does. -/
theorem Invoker.call_snd (i : Invoker World) (m : Message) (w : World) :
    (i.call m w).2 = (i.proxy.call i.method m w).2 := by
  unfold call
  cases h : i.proxy.call i.method m w with
  | mk result next => cases result <;> rfl

/-- A call does not fail for its arguments. -/
theorem Invoker.call_ne_arguments (i : Invoker World) (m : Message) (w : World) (method : String)
    (f : ArgumentFault) : (i.call m w).1 ≠ .error (.arguments method f) := by
  unfold call
  cases i.proxy.call i.method m w with
  | mk result next => cases result <;> simp

theorem Grpc.call_of_streams {p : Pool} {peer : Peer World} {m : Method} (h : streams m = true)
    (interface : String) (message : Message) (w : World) :
    call p peer interface m message w = (.error (.grpc (.streaming m.fullName)), w) := by
  rw [call, if_pos h]

/-- What a call adds to the log of a peer that is always ready. -/
theorem Grpc.call_logged {p : Pool} {peer : Peer World} (hready : ∀ w, peer.ready w = .ok ())
    (interface : String) (m : Method) (message : Message) (w : World × List Http.Request) :
    (call p peer.logged interface m message w).2.2 = w.2 ++
      if streams m then []
      else if Http.isPath (utf8 (methodPath interface m)) then [request p interface m message]
      else [] := by
  unfold call
  cases streams m with
  | true => exact (List.append_nil _).symm
  | false =>
    cases Http.isPath (utf8 (methodPath interface m)) with
    | false => exact (List.append_nil _).symm
    | true =>
      have h : peer.logged.ready w = .ok () := hready w.1
      simp only [Bool.false_eq_true, if_false, if_true, Bool.not_true, h]
      rfl

end

namespace Binding

variable {World : Type} {p : Pool} {b : Binding} {a : Arguments}

/-- A call sends its request and no other. -/
theorem invoke_logged {peer : Peer World} (hready : ∀ w, peer.ready w = .ok ())
    (w : World × List Http.Request) :
    (a.invoke (b.invoker p peer.logged) w).2.2 = w.2 ++ (b.request? p a).toList := by
  rw [Arguments.invoke_eq, request?, invoker]
  cases a.message p b.method with
  | error f => exact (List.append_nil _).symm
  | ok m =>
    dsimp only
    rw [Invoker.call_snd]
    refine (Grpc.call_logged hready b.service.fullName b.method m w).trans ?_
    congr 1
    split
    · rfl
    · rw [path]
      split <;> rfl

/-- What does not fit the input, and what streams, leaves the world as it is. -/
theorem invoke_unsent {peer : Peer World} {w : World}
    (h : Grpc.streams b.method = true ∨
      ∃ method f, (a.invoke (b.invoker p peer) w).1 = .error (.arguments method f)) :
    (a.invoke (b.invoker p peer) w).2 = w := by
  rw [Arguments.invoke_eq] at h ⊢
  cases hm : a.message (b.invoker p peer).pool (b.invoker p peer).method with
  | error f => rfl
  | ok m =>
    rw [hm] at h
    obtain hstreams | ⟨method, f, hf⟩ := h
    · dsimp only
      rw [Invoker.call_snd]
      exact congrArg Prod.snd (Grpc.call_of_streams hstreams b.service.fullName m w)
    · exact absurd hf (Invoker.call_ne_arguments _ m w method f)

end Binding

/-! ## Sessions -/

namespace Session

section

variable {World : Type} {c : Client (World × List Http.Request)} {model : Declarations}
  {connect : String → Except ProxyError (Peer World)} {peer : Peer World}

/-- The session with the invokers of some bindings. -/
def holding (c : Client (World × List Http.Request)) (peer : Peer World) (bindings : List Binding)
    (w : World × List Http.Request) : Session (World × List Http.Request) :=
  ⟨bindings.map (·.invoker c.registry.pool peer.logged), w⟩

/-- A binding that is made is held, and nothing is sent for it. -/
theorem bound_holding (hpeer : connect c.serviceAddress = .ok peer) {binding : Option Binding}
    {w : World × List Http.Request} {r : Except RequestError (Invoker _) × Option DefaultChosen × _}
    (h : r.1.toOption = binding.bind (fun b =>
        ((connect c.serviceAddress).map Peer.logged).toOption.map fun peer =>
          b.invoker c.registry.pool peer) ∧ r.2.2 = w) (bindings : List Binding) :
    (holding c peer bindings w).bound r = holding c peer (bindings ++ binding.toList) w := by
  obtain ⟨hmade, hworld⟩ := h
  rw [hpeer] at hmade
  rw [bound, hmade, hworld, holding, holding, List.map_append]
  cases binding <;> rfl

/-- An operation adds the method that it binds and sends its request. -/
theorem step_holding (hc : c.Ready model fun address => (connect address).map Peer.logged)
    (hpeer : connect c.serviceAddress = .ok peer) (hready : ∀ w, peer.ready w = .ok ())
    (op : Operation) (bindings : List Binding) (w : World × List Http.Request) :
    ∃ next, step c (holding c peer bindings w) op =
      holding c peer (bindings ++ (op.binding? c.registry.pool model).toList)
        (next, w.2 ++ (op.request? c.registry.pool bindings).toList) := by
  have hnil : w = (w.1, w.2 ++ []) := by rw [List.append_nil]
  cases op with
  | requestWith interface service method =>
    exact ⟨w.1, (bound_holding hpeer (hc.requestWith interface service method w) bindings).trans
      (congrArg _ hnil)⟩
  | request =>
    exact ⟨w.1, (bound_holding hpeer (hc.requestFirst none w) bindings).trans (congrArg _ hnil)⟩
  | requestMethod method =>
    exact ⟨w.1, (bound_holding hpeer (hc.requestFirst (some method) w) bindings).trans
      (congrArg _ hnil)⟩
  | invoke k a =>
    rw [step, Operation.request?, Operation.binding?, Option.toList_none, List.append_nil, holding,
      List.getElem?_map]
    cases hb : bindings[k]? with
    | none => exact ⟨w.1, congrArg (holding c peer bindings) hnil⟩
    | some b => exact ⟨_, congrArg (holding c peer bindings) (Prod.ext rfl (b.invoke_logged hready w))⟩

/-- Operations bind their methods and send their requests, one after the other. -/
theorem run_holding (hc : c.Ready model fun address => (connect address).map Peer.logged)
    (hpeer : connect c.serviceAddress = .ok peer) (hready : ∀ w, peer.ready w = .ok ())
    (ops : List Operation) (bindings : List Binding) (w : World × List Http.Request) :
    ∃ bindings' next, run c (holding c peer bindings w) ops = holding c peer bindings'
      (next, w.2 ++ Operation.requests c.registry.pool model bindings ops) := by
  induction ops generalizing bindings w with
  | nil =>
    refine ⟨bindings, w.1, ?_⟩
    rw [Operation.requests, List.append_nil]
    rfl
  | cons op rest ih =>
    obtain ⟨next, hstep⟩ := step_holding hc hpeer hready op bindings w
    obtain ⟨bindings', next', hrest⟩ := ih (bindings ++ (op.binding? c.registry.pool model).toList)
      (next, w.2 ++ (op.request? c.registry.pool bindings).toList)
    refine ⟨bindings', next', ?_⟩
    rw [run, List.foldl_cons, hstep, Operation.requests, ← List.append_assoc]
    exact hrest

/-- Where no peer can be connected to nothing is bound and nothing is sent. -/
theorem run_unconnected (hc : c.Ready model fun address => (connect address).map Peer.logged)
    {e : ProxyError} (hpeer : connect c.serviceAddress = .error e) (ops : List Operation)
    (w : World × List Http.Request) : run c ⟨[], w⟩ ops = ⟨[], w⟩ := by
  have hbound {binding : Option Binding}
      {r : Except RequestError (Invoker _) × Option DefaultChosen × _}
      (h : r.1.toOption = binding.bind (fun b =>
          ((connect c.serviceAddress).map Peer.logged).toOption.map fun peer =>
            b.invoker c.registry.pool peer) ∧ r.2.2 = w) :
      (⟨[], w⟩ : Session (World × List Http.Request)).bound r = ⟨[], w⟩ := by
    rw [hpeer] at h
    rw [bound, h.1, h.2]
    cases binding <;> rfl
  induction ops with
  | nil => rfl
  | cons op rest ih =>
    rw [run, List.foldl_cons]
    have hstep : step c ⟨[], w⟩ op = ⟨[], w⟩ := by
      cases op with
      | requestWith interface service method => exact hbound (hc.requestWith interface service method w)
      | request => exact hbound (hc.requestFirst none w)
      | requestMethod method => exact hbound (hc.requestFirst (some method) w)
      | invoke k a => rfl
    rw [hstep]
    exact ih

/-- Of every client that is made, what its operations send reaches the peer in their order and once
each: the requests of the calls whose arguments make a message, whose method does not stream and
whose names make a path. A call that fails for its arguments, or for a method that streams, changes
nothing. -/
theorem sent_of_run {k : Collaborators (World × List Http.Request)}
    (hk : k.factory = .ok (Grpc.through fun address => (connect address).map Peer.logged))
    {config : Configuration} {address : String} {d : Disk}
    (hc : (Client.init k config address d).1 = .ok c)
    (hready : ∀ address peer, connect address = .ok peer → ∀ w, peer.ready w = .ok ()) :
    ∃ workspace start model,
      (Description.generate k.web k.generator address workspace start).1 = .ok model ∧
      ∀ (ops : List Operation) (w : World),
        (run c ⟨[], (w, [])⟩ ops).world.2 = (match connect c.serviceAddress with
          | .ok _ => Operation.requests c.registry.pool model [] ops
          | .error _ => []) ∧
        ∀ (n : Nat) (a : Arguments) (i : Invoker (World × List Http.Request)),
          (run c ⟨[], (w, [])⟩ ops).invokers[n]? = some i →
          (Grpc.streams i.method = true ∨ ∃ method f,
            (a.invoke i (run c ⟨[], (w, [])⟩ ops).world).1 = .error (.arguments method f)) →
          step c (run c ⟨[], (w, [])⟩ ops) (.invoke n a) = run c ⟨[], (w, [])⟩ ops := by
  obtain ⟨workspace, start, model, hmodel, hc⟩ := Client.exists_ready hk hc
  refine ⟨workspace, start, model, hmodel, fun ops w => ?_⟩
  cases hpeer : connect c.serviceAddress with
  | error e =>
    rw [run_unconnected hc hpeer]
    exact ⟨rfl, fun n a i hi => nomatch hi⟩
  | ok peer =>
    obtain ⟨bindings, next, hrun⟩ := run_holding hc hpeer (hready _ peer hpeer) ops [] (w, [])
    have hstart : holding c peer [] (w, []) = ⟨[], (w, [])⟩ := rfl
    rw [hstart, List.nil_append] at hrun
    rw [hrun]
    refine ⟨rfl, fun n a i hi hunsent => ?_⟩
    rw [holding, List.getElem?_map, Option.map_eq_some_iff] at hi
    obtain ⟨b, hb, rfl⟩ := hi
    rw [step, holding, List.getElem?_map, hb, Option.map_some]
    exact congrArg _ (b.invoke_unsent hunsent)

end

/-! ## A session -/

/-- A file with a service that has a plain method, one that streams and one whose name is more than
a path. -/
def mixedFile : Source.File where
  name := "mixed.proto"
  package := "mixed"
  dependencies := []
  publicDependencies := []
  weakDependencies := []
  messages := [Standard.message "Text" [Standard.text "text" 1]]
  enums := []
  services := [⟨"Calls", [⟨"plain", ".mixed.Text", ".mixed.Text", false, false⟩,
    ⟨"streamed", ".mixed.Text", ".mixed.Text", false, true⟩,
    ⟨"cut#off", ".mixed.Text", ".mixed.Text", false, false⟩]⟩]
  extensions := []
  edition := .proto3
  options := []

/-- What is declared of the file. -/
def mixedModel : Declarations := ⟨[⟨"Port", "mixed.Calls"⟩], [⟨"Service", "mixed.Text"⟩]⟩

/-- A peer that is always ready and never answers. -/
def silent : Peer Unit where
  ready _ := .ok ()
  reply _ w := (⟨200, [], [], none⟩, w)
  pathWording _ := "invalid uri character"

/-- A request of a call. -/
def posted (path : String) (body : Bytes) : Http.Request :=
  ⟨"POST", ⟨path, none⟩, [("te", "trailers"), ("content-type", "application/grpc")], body⟩

/-- Collaborators that declare the definitions of the file, with the proxies of a factory. -/
def mixed {World : Type} (factory : ProxyFactory World) : Collaborators World where
  web _ := .ok []
  generator _ d := (.ok mixedModel, d)
  toolchain := .absent
  host := .ofFiles [mixedFile]
  factory := .ok factory

/-- They declare the same whatever they are asked for. -/
theorem model_of_generate {World : Type} {factory : ProxyFactory World} {address : String}
    {w : Workspace} {d : Disk} {model : Declarations} (h : (Description.generate (mixed factory).web
      (mixed factory).generator address w d).1 = .ok model) : mixedModel = model := by
  unfold Description.generate at h
  split at h
  · cases h
  · exact Except.ok.inj h

/-- A client is made with these collaborators. -/
theorem exists_made : ∃ r, Registry.load Disk.empty (.ofFiles [mixedFile]) [] mixedModel = .ok r ∧
    ∀ {World : Type} (factory : ProxyFactory World),
      (Client.init (mixed factory) Client.plainly "http://a" Disk.empty).1 =
        .ok ⟨"http://a", Workspace.locate "ws" "http://a", r, factory, "http://a"⟩ := by
  have hload : (Registry.load Disk.empty (.ofFiles [mixedFile]) [] mixedModel).isOk = true := by
    decide +kernel
  obtain ⟨r, hr⟩ : ∃ r, Registry.load Disk.empty (.ofFiles [mixedFile]) [] mixedModel = .ok r := by
    generalize Registry.load Disk.empty (.ofFiles [mixedFile]) [] mixedModel = loaded at hload
    cases loaded with
    | error e => cases hload
    | ok r => exact ⟨r, rfl⟩
  have hfree := Client.free_plainly "http://a"
  obtain ⟨made, stored, hstored⟩ := hfree.exists_stored []
  refine ⟨r, hr, fun factory => ?_⟩
  have hscan : Build.scan stored (mixed factory).toolchain
      (Workspace.locate Client.plainly.workspaceRoot "http://a").sourceDir = .ok [] := by
    refine hstored.free.scan_eq_nil hstored.prepared _ fun l hl => ?_
    rw [hstored.workingDirectory] at hl
    rw [hstored.lookup l (.inl hl), Disk.lookup_empty hl.ne_nil]
  rw [← Client.outcome_fst, hstored.outcome_eq rfl, Client.develop_of_no_sources rfl hscan]
  have hsame : Registry.load stored (mixed factory).host [] mixedModel = .ok r := hr
  unfold Client.assemble
  rw [hsame]
  rfl

/-- The proxies of a silent peer, with a log of what reaches it. -/
def overheard : ProxyFactory (Unit × List Http.Request) :=
  Grpc.through fun _ => .ok silent.logged

/-- Operations of which two send something. -/
def mixedOperations : List Operation :=
  [.request, .invoke 0 (.values [.string "a"]), .requestWith "Port" "Service" (some "streamed"),
    .invoke 1 (.values []), .invoke 0 (.values [.null, .null]), .invoke 0 (.body (.object []))]

theorem ready_silent (_ : String) (peer : Peer Unit)
    (h : (Except.ok silent : Except ProxyError (Peer Unit)) = .ok peer) (w : Unit) :
    peer.ready w = .ok () := by
  obtain rfl := Except.ok.inj h
  rfl

/-- What the operations send is told from the declarations. -/
theorem sent_of_mixed : ∃ c, (Client.init (mixed overheard) Client.plainly "http://a" Disk.empty).1 = .ok c ∧
    (run c ⟨[], ((), [])⟩ mixedOperations).world.2 =
      [posted "/mixed.Calls/plain" [0, 0, 0, 0, 3, 10, 1, 97],
        posted "/mixed.Calls/plain" [0, 0, 0, 0, 0]] := by
  obtain ⟨r, hr, hmade⟩ := exists_made
  have hrequests : Operation.requests (.ofFiles [mixedFile]) mixedModel [] mixedOperations =
      [posted "/mixed.Calls/plain" [0, 0, 0, 0, 3, 10, 1, 97],
        posted "/mixed.Calls/plain" [0, 0, 0, 0, 0]] := by
    decide +kernel
  obtain ⟨workspace, start, model, hmodel, hsent⟩ :=
    @sent_of_run Unit _ (fun _ => .ok silent) (mixed overheard) rfl _ _ _ (hmade overheard)
      ready_silent
  obtain rfl := model_of_generate hmodel
  refine ⟨_, hmade overheard, (hsent mixedOperations ()).1.trans ?_⟩
  rw [← hrequests, ← Registry.pool_of_load_nil hr]

/-- A method whose name is more than a path is called at what of the path is before a fragment. -/
theorem sent_of_cut : ∃ c, (Client.init (mixed overheard) Client.plainly "http://a" Disk.empty).1 = .ok c ∧
    (run c ⟨[], ((), [])⟩ [.requestMethod "cut#off", .invoke 0 (.values [])]).world.2 =
      [posted "/mixed.Calls/cut" [0, 0, 0, 0, 0]] := by
  obtain ⟨r, hr, hmade⟩ := exists_made
  have hrequests : Operation.requests (.ofFiles [mixedFile]) mixedModel []
      [.requestMethod "cut#off", .invoke 0 (.values [])] =
        [posted "/mixed.Calls/cut" [0, 0, 0, 0, 0]] := by
    decide +kernel
  refine ⟨_, hmade overheard, ?_⟩
  obtain ⟨bindings, next, hrun⟩ := @run_holding Unit
    ⟨"http://a", Workspace.locate "ws" "http://a", r, overheard, "http://a"⟩ mixedModel
    (fun _ => .ok silent) silent ⟨Registry.loadedFrom_of_load hr, rfl⟩ rfl (ready_silent "" _ rfl)
    [.requestMethod "cut#off", .invoke 0 (.values [])] [] ((), [])
  rw [holding, List.map_nil] at hrun
  rw [hrun, ← hrequests, ← Registry.pool_of_load_nil hr]
  rfl

end Session

end ServiceCall
