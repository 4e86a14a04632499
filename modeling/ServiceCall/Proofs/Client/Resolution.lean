import ServiceCall.Proofs.Client.Pipeline
import ServiceCall.Proofs.Client.Session
import ServiceCall.Proofs.Schema.Declared
/-!
# Finding what is bound

A request for an operation is settled in a fixed order: the service has to be declared, then the
interface, then the method has to be there, and only then a proxy is asked for, once. Which error there
is, what the factory is asked (`ProxyFactory.noting`) and whether there is a warning can be told from the
names and the table of methods (`Client.Resolves`).

The methods that a client lists of an interface are those that it binds by their names: no two of them
have the same name, since the definitions of a loaded pool do not share names, and so none is hidden
behind another (`Client.bound_of_listed`).
-/

namespace ServiceCall

/-! ## Factories that take notes -/

/-- What a factory is asked for. -/
structure ProxyRequest where
  pool : Pool
  service : Service
  address : String

/-- The proxy in a world with a log that it does not touch. -/
def Proxy.besideLog {World : Type} (p : Proxy World) : Proxy (World × List ProxyRequest) where
  call m message w :=
    let (result, next) := p.call m message w.1
    (result, next, w.2)

/-- The factory that notes what it is asked for. -/
def ProxyFactory.noting {World : Type} (f : ProxyFactory World) :
    ProxyFactory (World × List ProxyRequest) where
  create p s address w :=
    let (made, next) := f.create p s address w.1
    (made.map Proxy.besideLog, next, w.2 ++ [⟨p, s, address⟩])

/-! ## What is found -/

/-- The table does not have the method of a name, or none at all. -/
def MethodTable.Lacks (t : MethodTable) : Option String → Prop
  | some name => ∀ m ∈ t.toList, m.name ≠ name
  | none => t.toList = []

theorem MethodTable.lacks_ofList {methods : List Method} {method : Option String} :
    (ofList methods).Lacks method ↔ Binding.method? methods method = none := by
  cases method with
  | none => exact List.head?_eq_none_iff.symm
  | some name =>
    rw [Binding.method?, List.find?_eq_none]
    exact forall₂_congr fun m _ => by rw [beq_iff_eq]

/-- In a table that lacks a first method there are not several. -/
theorem MethodTable.Lacks.not_several {t : MethodTable} {method : Option String}
    (h : t.Lacks method) (hmethod : method = none) : ¬ 1 < t.length := by
  subst hmethod
  have hnil : t.methods = [] := h
  rw [length, hnil]
  decide

/-! ## What is answered -/

namespace Client

variable {World : Type}

/-- The answer to a request for an operation, for which the factory is asked for a proxy once if
everything else is there, and for nothing otherwise. -/
structure Resolves (c : Client (World × List ProxyRequest)) (f : ProxyFactory World)
    (model : Declarations) (interface service : String) (method : Option String) (w : World)
    (log : List ProxyRequest)
    (answer : Except RequestError (Invoker (World × List ProxyRequest)) × Option DefaultChosen ×
      World × List ProxyRequest) : Prop where
  /-- The service is the first thing that is looked up. -/
  unknownService : ∀ name, answer.1 = .error (.notFound .service name) ↔
    name = service ∧ service ∉ model.services.map (·.name)
  unknownInterface : ∀ name, answer.1 = .error (.notFound .interface name) ↔
    name = interface ∧ service ∈ model.services.map (·.name) ∧
      interface ∉ model.interfaces.map (·.name)
  unknownMethod : ∀ i m, answer.1 = .error (.noSuchMethod i m) ↔
    i = interface ∧ m = method ∧ service ∈ model.services.map (·.name) ∧
      ∃ loaded, c.registry.interface? interface = some loaded ∧ loaded.methods.Lacks method
  notEmpty : ∀ kind, answer.1 ≠ .error (.empty kind)
  /-- Nothing is asked of the factory until the method is found. -/
  unasked : (service ∉ model.services.map (·.name) ∨ interface ∉ model.interfaces.map (·.name) ∨
    ∃ loaded, c.registry.interface? interface = some loaded ∧ loaded.methods.Lacks method) →
      answer.2.2 = (w, log)
  /-- Then it is asked once, and its answer is passed on. -/
  asked : ∀ loaded, service ∈ model.services.map (·.name) →
    c.registry.interface? interface = some loaded → ¬ loaded.methods.Lacks method →
    answer.2.2 = ((f.create c.registry.pool loaded.service c.serviceAddress w).2,
        log ++ [⟨c.registry.pool, loaded.service, c.serviceAddress⟩]) ∧
      ∃ m, Binding.method? loaded.service.methods method = some m ∧
        (∀ e, (f.create c.registry.pool loaded.service c.serviceAddress w).1 = .error e →
          answer.1 = .error (.proxy e)) ∧
        ∀ proxy, (f.create c.registry.pool loaded.service c.serviceAddress w).1 = .ok proxy →
          answer.1 = .ok ⟨c.registry.pool, m, proxy.besideLog⟩
  /-- There is a warning where a method is chosen out of several. -/
  warning : ∀ warned, answer.2.1 = some warned ↔
    service ∈ model.services.map (·.name) ∧ method = none ∧
      ∃ loaded, c.registry.interface? interface = some loaded ∧ 1 < loaded.methods.length ∧
        warned = ⟨interface, loaded.methods.length⟩

theorem warning?_eq_some {interface : String} {t : MethodTable} {method : Option String}
    {warned : DefaultChosen} : warning? interface t method = some warned ↔
      method = none ∧ 1 < t.length ∧ warned = ⟨interface, t.length⟩ := by
  cases method with
  | some name => simp [warning?]
  | none =>
    rw [warning?]
    split
    next h => simp [h, eq_comm]
    next h => simp [h]

/-- Once the service is declared it is up to the interface. -/
theorem target_of_service {r : Registry} {model : Declarations} (hr : r.LoadedFrom model)
    {interface service : String} (hservice : service ∈ model.services.map (·.name)) :
    target r interface service = match r.interface? interface with
      | none => .error (.notFound .interface interface)
      | some i => .ok i := by
  obtain ⟨s, hs⟩ := Option.isSome_iff_exists.1 ((hr.isSome_service? service).2 hservice)
  unfold target
  cases r.interface? interface <;> simp [hs]

section

variable {c : Client (World × List ProxyRequest)} {f : ProxyFactory World} {model : Declarations}
  {interface service : String} {method : Option String} {w : World} {log : List ProxyRequest}
  {loaded : LoadedInterface}

theorem requestWith_of_no_service (hc : c.registry.LoadedFrom model)
    (hservice : service ∉ model.services.map (·.name)) :
    c.requestWith interface service method (w, log) =
      (.error (.notFound .service service), none, w, log) := by
  have hnone : c.registry.service? service = none := by
    rw [← Option.not_isSome_iff_eq_none, hc.isSome_service?]
    exact hservice
  rw [requestWith, target, hnone]

theorem requestWith_of_no_interface (hc : c.registry.LoadedFrom model)
    (hservice : service ∈ model.services.map (·.name))
    (hinterface : interface ∉ model.interfaces.map (·.name)) :
    c.requestWith interface service method (w, log) =
      (.error (.notFound .interface interface), none, w, log) := by
  have hnone : c.registry.interface? interface = none := by
    rw [Option.eq_none_iff_forall_ne_some]
    exact fun i hi => hinterface ((hc.exists_interface? interface).1 ⟨i, hi⟩)
  rw [requestWith, target_of_service hc hservice, hnone]

theorem requestWith_of_no_method (hc : c.registry.LoadedFrom model)
    (hservice : service ∈ model.services.map (·.name))
    (hloaded : c.registry.interface? interface = some loaded) (hlacks : loaded.methods.Lacks method) :
    c.requestWith interface service method (w, log) =
      (.error (.noSuchMethod interface method), none, w, log) := by
  have hwarning : warning? interface loaded.methods method = none := by
    rw [Option.eq_none_iff_forall_ne_some]
    intro warned hwarned
    obtain ⟨hmethod, hlength, -⟩ := warning?_eq_some.1 hwarned
    exact hlacks.not_several hmethod hlength
  rw [hc.methods_eq hloaded] at hlacks
  rw [requestWith, target_of_service hc hservice, hloaded]
  dsimp only
  rw [hwarning, hc.methods_eq hloaded, choose_ofList, MethodTable.lacks_ofList.1 hlacks]

theorem requestWith_of_method (hc : c.registry.LoadedFrom model) (hf : c.factory = f.noting)
    (hservice : service ∈ model.services.map (·.name))
    (hloaded : c.registry.interface? interface = some loaded) {m : Method}
    (hm : Binding.method? loaded.service.methods method = some m) :
    c.requestWith interface service method (w, log) =
      (match (f.create c.registry.pool loaded.service c.serviceAddress w).1 with
        | .error e => .error (.proxy e)
        | .ok proxy => .ok ⟨c.registry.pool, m, proxy.besideLog⟩,
      warning? interface loaded.methods method,
      (f.create c.registry.pool loaded.service c.serviceAddress w).2,
      log ++ [⟨c.registry.pool, loaded.service, c.serviceAddress⟩]) := by
  rw [requestWith, target_of_service hc hservice, hloaded]
  dsimp only
  rw [hc.methods_eq hloaded, choose_ofList, hm, hf, ProxyFactory.noting]
  dsimp only
  cases (f.create c.registry.pool loaded.service c.serviceAddress w).1 <;> rfl

/-- Every request is answered as the declarations say. -/
theorem resolves_requestWith (hc : c.registry.LoadedFrom model) (hf : c.factory = f.noting)
    (interface service : String) (method : Option String) (w : World) (log : List ProxyRequest) :
    Resolves c f model interface service method w log
      (c.requestWith interface service method (w, log)) := by
  by_cases hservice : service ∈ model.services.map (·.name)
  swap
  · rw [requestWith_of_no_service hc hservice]
    constructor <;> simp [hservice, eq_comm]
  by_cases hinterface : interface ∈ model.interfaces.map (·.name)
  swap
  · have hnone (loaded : LoadedInterface) : c.registry.interface? interface ≠ some loaded :=
      fun hloaded => hinterface ((hc.exists_interface? interface).1 ⟨loaded, hloaded⟩)
    rw [requestWith_of_no_interface hc hservice hinterface]
    constructor <;> simp [hservice, hinterface, hnone, eq_comm]
  obtain ⟨loaded, hloaded⟩ := (hc.exists_interface? interface).2 hinterface
  by_cases hlacks : loaded.methods.Lacks method
  · rw [requestWith_of_no_method hc hservice hloaded hlacks]
    constructor
    case warning =>
      have hfew (hmethod : method = none) (hlength : 1 < loaded.methods.length) : False :=
        hlacks.not_several hmethod hlength
      simpa [hservice, hloaded] using fun _ hmethod hlength => (hfew hmethod hlength).elim
    all_goals simp [hservice, hinterface, hloaded, hlacks, eq_comm]
  · obtain ⟨m, hm⟩ : ∃ m, Binding.method? loaded.service.methods method = some m := by
      rw [hc.methods_eq hloaded, MethodTable.lacks_ofList] at hlacks
      exact Option.ne_none_iff_exists'.1 hlacks
    rw [requestWith_of_method hc hf hservice hloaded hm]
    cases hmade : (f.create c.registry.pool loaded.service c.serviceAddress w).1 with
    | error e =>
      constructor <;> simp [hservice, hinterface, hloaded, hlacks, hm, hmade, warning?_eq_some]
    | ok proxy =>
      constructor <;> simp [hservice, hinterface, hloaded, hlacks, hm, hmade, warning?_eq_some]

/-- The first request is one for the first interface and the first service that are listed. -/
structure ResolvesFirst (c : Client (World × List ProxyRequest))
    (answer : World × List ProxyRequest →
      Except RequestError (Invoker (World × List ProxyRequest)) × Option DefaultChosen ×
        World × List ProxyRequest) (method : Option String) : Prop where
  noInterface : c.interfaces = [] → ∀ w, answer w = (.error (.empty .interface), none, w)
  noService : c.interfaces ≠ [] → c.services = [] → ∀ w, answer w = (.error (.empty .service), none, w)
  both : ∀ i is s ss, c.interfaces = i :: is → c.services = s :: ss →
    ∀ w, answer w = c.requestWith i s method w

theorem resolvesFirst_requestFirst (c : Client (World × List ProxyRequest)) (method : Option String) :
    ResolvesFirst c (c.requestFirst method) method where
  noInterface h w := by rw [requestFirst, firstPair, h]
  noService h hs w := by
    obtain ⟨i, is, hi⟩ := List.exists_cons_of_ne_nil h
    rw [requestFirst, firstPair, hi, hs]
  both i is s ss hi hs w := by rw [requestFirst, firstPair, hi, hs]

end

/-- Of every client that is made, whatever its factory makes, each request is answered as the
declarations of its description say: the first thing that is missing gives the error, the factory is
asked once and only if nothing is, and a method that is chosen out of several is warned about. -/
theorem resolves_of_init {k : Collaborators (World × List ProxyRequest)} {f : ProxyFactory World}
    (hk : k.factory = .ok f.noting) {config : Configuration} {address : String} {d : Disk}
    {c : Client (World × List ProxyRequest)} (hc : (init k config address d).1 = .ok c) :
    c.serviceAddress = config.serviceAddress.getD address ∧
      ∃ made run described model, Description.generate k.web k.generator address c.workspace made =
          (.ok model, run, described) ∧ c.registry.LoadedFrom model ∧
        (∀ interface service method w log, Resolves c f model interface service method w log
          (c.requestWith interface service method (w, log))) ∧
        ResolvesFirst c c.request none ∧ ∀ method, ResolvesFirst c (c.requestMethod method) (some method) := by
  obtain ⟨-, -, hfactory, haddress, made, run, described, model, artifacts, built, hmodel, hload⟩ :=
    exists_loaded hc
  have hloaded := Registry.loadedFrom_of_load hload
  have hnoting : c.factory = f.noting := Except.ok.inj (hfactory.symm.trans hk)
  exact ⟨haddress, made, run, described, model, hmodel, hloaded,
    fun interface service method w log =>
      resolves_requestWith hloaded hnoting interface service method w log,
    resolvesFirst_requestFirst c none, fun method => resolvesFirst_requestFirst c (some method)⟩

/-- The interface of the three methods. -/
theorem interface?_mixed {r : Registry} (hr : r.LoadedFrom Session.mixedModel)
    (hpool : r.pool = .ofFiles [Session.mixedFile]) : ∃ i, r.interface? "Port" = some i ∧
      i.methods.toList.map (·.name) = ["plain", "streamed", "cut#off"] := by
  have hnames : ((Declaration.last? Session.mixedModel.interfaces "Port").bind
      (Registry.interfaceOf? (.ofFiles [Session.mixedFile]))).map (·.methods.toList.map (·.name)) =
        some ["plain", "streamed", "cut#off"] := by
    decide +kernel
  rw [← hpool, ← hr.interface?] at hnames
  exact Option.map_eq_some_iff.1 hnames

/-- A service that is not declared is not asked for, and of three methods the first one is, with a
warning. -/
theorem resolves_mixed : ∃ c,
    (init (Session.mixed refusing.noting) plainly "http://a" Disk.empty).1 = .ok c ∧
      (∀ w, (c.requestWith "Port" "Text" none (w, [])).1 = .error (.notFound .service "Text")) ∧
      ∀ w, (c.requestWith "Port" "Service" none (w, [])).1 =
          .error (.proxy (.address "http://a" "refused")) ∧
        (c.requestWith "Port" "Service" none (w, [])).2.1 = some ⟨"Port", 3⟩ ∧
        (c.requestWith "Port" "Service" none (w, [])).2.2.2.length = 1 := by
  obtain ⟨r, hr, hmade⟩ := Session.exists_made
  refine ⟨_, hmade refusing.noting, ?_⟩
  obtain ⟨-, made, run, described, model, hmodel, hloaded, hresolves, -⟩ :=
    resolves_of_init (k := Session.mixed refusing.noting) (f := refusing) rfl (hmade refusing.noting)
  obtain rfl := Session.model_of_generate (congrArg Prod.fst hmodel)
  obtain ⟨loaded, hport, hnames⟩ := interface?_mixed hloaded (Registry.pool_of_load_nil hr)
  have hlength : loaded.methods.length = 3 := by
    have hlength := congrArg List.length hnames
    rwa [List.length_map] at hlength
  have hlacks : ¬ loaded.methods.Lacks none := by
    intro hnil
    rw [MethodTable.length, show loaded.methods.methods = [] from hnil] at hlength
    cases hlength
  have hservice : "Service" ∈ Session.mixedModel.services.map (·.name) := by decide
  refine ⟨fun w => ((hresolves "Port" "Text" none w []).unknownService "Text").2 ⟨rfl, by decide⟩,
    fun w => ?_⟩
  have hanswer := hresolves "Port" "Service" none w []
  obtain ⟨hasked, m, -, herror, -⟩ := hanswer.asked loaded hservice hport hlacks
  refine ⟨herror _ rfl, (hanswer.warning _).2 ⟨hservice, rfl, loaded, hport, ?_, ?_⟩, ?_⟩
  · rw [hlength]
    decide
  · rw [hlength]
  · rw [hasked]
    rfl

end Client

/-! ## What is listed -/

/-- Where no two methods have the same name each is found by its own. -/
theorem Binding.method?_of_mem {methods : List Method} (hn : (methods.map (·.name)).Nodup) {m : Method}
    (hm : m ∈ methods) : method? methods (some m.name) = some m := by
  rw [method?]
  induction methods with
  | nil => cases hm
  | cons m' rest ih =>
    rw [List.map_cons, List.nodup_cons] at hn
    obtain rfl | hm := List.mem_cons.1 hm
    · exact List.find?_cons_of_pos (by simp)
    · have hne : m'.name ≠ m.name := fun heq => hn.1 (heq ▸ List.mem_map_of_mem hm)
      rw [List.find?_cons_of_neg (by simpa using hne)]
      exact ih hn.2 hm

/-- The factory makes a proxy whenever it is asked for one. -/
def ProxyFactory.Accepts {World : Type} (f : ProxyFactory World) : Prop :=
  ∀ p s address w, ∃ proxy, (f.create p s address w).1 = .ok proxy

namespace Client

variable {World : Type} {c : Client World} {model : Declarations} {interface service : String}

/-- With a factory that accepts, the method that is found is bound. -/
theorem requestWith_of_accepts (hc : c.registry.LoadedFrom model) (hf : c.factory.Accepts)
    (hservice : service ∈ model.services.map (·.name)) {loaded : LoadedInterface}
    (hloaded : c.registry.interface? interface = some loaded) (method : Option String) (w : World) :
    (∀ m, Binding.method? loaded.service.methods method = some m →
        ∃ invoker, (c.requestWith interface service method w).1 = .ok invoker ∧
          invoker.signature = Signature.ofMethod c.registry.pool m) ∧
      (Binding.method? loaded.service.methods method = none →
        (c.requestWith interface service method w).1 = .error (.noSuchMethod interface method)) := by
  rw [requestWith, target_of_service hc hservice, hloaded]
  dsimp only
  rw [hc.methods_eq hloaded, choose_ofList]
  constructor
  · intro m hm
    rw [hm]
    dsimp only
    obtain ⟨proxy, hproxy⟩ := hf c.registry.pool loaded.service c.serviceAddress w
    rw [hproxy]
    exact ⟨_, rfl, rfl⟩
  · intro hnone
    rw [hnone]

/-- Of every client that is made with a factory that accepts, each method that is listed of an interface
is bound by its name through each service, as it is listed, and the first one is bound without a name, if
there is one. -/
theorem bound_of_listed {k : Collaborators World} (hhost : k.host.Loaded) {f : ProxyFactory World}
    (hk : k.factory = .ok f) (hf : f.Accepts) {config : Configuration} {address : String} {d : Disk}
    (hc : (init k config address d).1 = .ok c) (hinterface : interface ∈ c.interfaces)
    (hservice : service ∈ c.services) :
    ∃ signatures, c.methods interface = .ok signatures ∧
      (∀ (n : Nat) signature, signatures[n]? = some signature → ∀ w, ∃ invoker,
        (c.requestWith interface service (some signature.name) w).1 = .ok invoker ∧
          invoker.signature = signature) ∧
      ∀ w, ((∃ invoker, (c.requestWith interface service none w).1 = .ok invoker) ↔
          signatures ≠ []) ∧
        ∀ invoker, (c.requestWith interface service none w).1 = .ok invoker →
          signatures.head? = some invoker.signature := by
  obtain ⟨-, -, hfactory, -, made, run, described, model, artifacts, built, -, hload⟩ :=
    exists_loaded hc
  have hloaded := Registry.loadedFrom_of_load hload
  have haccepts : c.factory.Accepts := Except.ok.inj (hfactory.symm.trans hk) ▸ hf
  rw [interfaces, hloaded.interfaces, List.mem_eraseDups] at hinterface
  rw [services, hloaded.services, List.mem_eraseDups] at hservice
  obtain ⟨i, hi⟩ := (hloaded.exists_interface? interface).2 hinterface
  have hbound := requestWith_of_accepts hloaded haccepts hservice hi
  have hmethods : i.methods.toList = i.service.methods := by
    rw [hloaded.methods_eq hi]
    rfl
  have hmem : i.service ∈ c.registry.pool.services := by
    rw [hloaded.interface?, Option.bind_eq_some_iff] at hi
    obtain ⟨declared, -, hi⟩ := hi
    obtain ⟨s, hs, rfl⟩ := Option.map_eq_some_iff.1 hi
    exact List.mem_of_find?_eq_some hs
  have hnodup := (Registry.loaded_of_load hhost hload).nodup_methods hmem
  refine ⟨i.service.methods.map (Signature.ofMethod c.registry.pool), ?_, fun n signature hn w => ?_,
    fun w => ?_⟩
  · rw [methods, hi]
    dsimp only
    rw [Registry.signatures, hmethods]
  · rw [List.getElem?_map, Option.map_eq_some_iff] at hn
    obtain ⟨m, hm, rfl⟩ := hn
    exact (hbound _ w).1 m (Binding.method?_of_mem hnodup (List.mem_of_getElem? hm))
  · obtain ⟨hfirst, hnone⟩ := hbound none w
    rw [Binding.method?] at hfirst hnone
    cases hmethods : i.service.methods with
    | nil =>
      rw [hmethods] at hnone
      have hrefused (invoker : Invoker World) :
          (c.requestWith interface service none w).1 ≠ .ok invoker := by
        rw [hnone rfl]
        exact fun hmade => by cases hmade
      refine ⟨iff_of_false (fun hmade => ?_) (fun hne => hne rfl), fun invoker hmade => ?_⟩
      · obtain ⟨invoker, hmade⟩ := hmade
        exact hrefused invoker hmade
      · exact absurd hmade (hrefused invoker)
    | cons m rest =>
      rw [hmethods] at hfirst
      obtain ⟨invoker, hmade, hsignature⟩ := hfirst m rfl
      refine ⟨iff_of_true ⟨invoker, hmade⟩ (by simp), fun invoker' hmade' => ?_⟩
      obtain rfl := Except.ok.inj (hmade.symm.trans hmade')
      rw [List.map_cons, List.head?_cons, hsignature]

theorem accepts_overheard : Session.overheard.Accepts := fun _ _ _ _ => ⟨_, rfl⟩

/-- The three methods of an interface can be bound. -/
theorem bound_of_mixed : ∃ c signatures,
    (init (Session.mixed Session.overheard) plainly "http://a" Disk.empty).1 = .ok c ∧
      c.methods "Port" = .ok signatures ∧ signatures.map (·.name) = ["plain", "streamed", "cut#off"] ∧
      ∀ (n : Nat) signature, signatures[n]? = some signature → ∀ w, ∃ invoker,
        (c.requestWith "Port" "Service" (some signature.name) w).1 = .ok invoker ∧
          invoker.signature = signature := by
  obtain ⟨r, hr, hmade⟩ := Session.exists_made
  have hloaded := Registry.loadedFrom_of_load hr
  have hhost : (Pool.ofFiles [Session.mixedFile]).Loaded := by
    refine Pool.loaded_ofFiles ?_
    unfold EnumType.InRange
    decide
  have hport : "Port" ∈ r.interfaces := by
    rw [hloaded.interfaces]
    decide
  have hservice : "Service" ∈ r.services := by
    rw [hloaded.services]
    decide
  obtain ⟨signatures, hlisted, hbound, -⟩ :=
    bound_of_listed (k := Session.mixed Session.overheard) hhost rfl accepts_overheard
      (hmade Session.overheard) hport hservice
  refine ⟨_, signatures, hmade Session.overheard, hlisted, ?_, hbound⟩
  obtain ⟨i, hi, hnames⟩ := interface?_mixed hloaded (Registry.pool_of_load_nil hr)
  rw [methods, hi] at hlisted
  obtain rfl := Except.ok.inj hlisted
  rw [Registry.signatures, List.map_map]
  exact hnames

end Client

end ServiceCall
