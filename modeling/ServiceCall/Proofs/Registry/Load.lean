import ServiceCall.Proofs.Basic.Except
import ServiceCall.Proofs.Registry.Index
import ServiceCall.Proofs.Schema.Loaded
import ServiceCall.Registry.Basic
/-!
# What a registry is made of

What a registry holds can be told from the declarations and the pool alone
(`Registry.LoadedFrom`): every declared name is listed once, in the order of the first
declarations, and what it stands for is what the last declaration of the name says. Every
registry that is loaded is one (`Registry.loadedFrom_of_load`).
-/

namespace ServiceCall

/-- The last declaration of a name. -/
def Declaration.last? (declared : List Declaration) (name : String) : Option Declaration :=
  declared.reverse.find? (·.name == name)

theorem Declaration.of_last? {declared : List Declaration} {name : String} {d : Declaration}
    (h : last? declared name = some d) : d ∈ declared ∧ d.name = name :=
  ⟨List.mem_reverse.1 (List.mem_of_find?_eq_some h), by simpa using List.find?_some h⟩

/-- A name is that of a declaration exactly if there is a last one. -/
theorem Declaration.isSome_last? {declared : List Declaration} {name : String} :
    (last? declared name).isSome = true ↔ name ∈ declared.map (·.name) := by
  rw [last?, List.find?_isSome, List.mem_map]
  exact exists_congr fun d => by rw [List.mem_reverse, beq_iff_eq]

/-- What is found as a service is one of the pool's services. -/
theorem Symbol.service?_of_find? {p : Pool} {name : String} {s : Service}
    (h : find? p name = some (.service s)) : p.service? name = some s := by
  unfold find? at h
  cases hservice : p.service? name with
  | some t =>
    rw [hservice] at h
    rw [Symbol.service.inj (Option.some.inj h)]
  | none =>
    rw [hservice] at h
    cases hmessage : p.message? name <;> cases henum : p.enum? name <;> simp [hmessage, henum] at h

namespace Registry

/-- The interface that a declaration stands for. -/
def interfaceOf? (p : Pool) (d : Declaration) : Option LoadedInterface :=
  (p.service? d.fullName).map fun s => ⟨d.name, s, MethodTable.ofList s.methods⟩

/-- The service that a declaration stands for. -/
def serviceOf? (p : Pool) (d : Declaration) : Option LoadedService :=
  (Symbol.find? p d.fullName).map fun s => ⟨d.name, s⟩

/-- A registry holds what is declared, as the pool defines it. -/
structure LoadedFrom (r : Registry) (model : Declarations) : Prop where
  interfaces : r.interfaces = (model.interfaces.map (·.name)).eraseDups
  services : r.services = (model.services.map (·.name)).eraseDups
  interface? (name : String) :
    r.interface? name = (Declaration.last? model.interfaces name).bind (interfaceOf? r.pool)
  service? (name : String) :
    r.service? name = (Declaration.last? model.services name).bind (serviceOf? r.pool)
  interfaceOf (d : Declaration) (hd : d ∈ model.interfaces) : (interfaceOf? r.pool d).isSome
  serviceOf (d : Declaration) (hd : d ∈ model.services) : (serviceOf? r.pool d).isSome

/-- A service is found exactly if it is declared. -/
theorem LoadedFrom.isSome_service? {r : Registry} {model : Declarations} (h : r.LoadedFrom model)
    (name : String) : (r.service? name).isSome = true ↔ name ∈ model.services.map (·.name) := by
  rw [h.service?, ← Declaration.isSome_last?]
  cases hlast : Declaration.last? model.services name with
  | none => rfl
  | some d =>
    rw [Option.bind_some, h.serviceOf d (Declaration.of_last? hlast).1]
    rfl

/-- An interface is found exactly if it is declared, with the table of its methods. -/
theorem LoadedFrom.exists_interface? {r : Registry} {model : Declarations} (h : r.LoadedFrom model)
    (name : String) : (∃ i, r.interface? name = some i) ↔ name ∈ model.interfaces.map (·.name) := by
  rw [h.interface?, ← Declaration.isSome_last?]
  cases hlast : Declaration.last? model.interfaces name with
  | none => simp
  | some d =>
    obtain ⟨i, hi⟩ := Option.isSome_iff_exists.1 (h.interfaceOf d (Declaration.of_last? hlast).1)
    exact iff_of_true ⟨i, hi⟩ rfl

theorem LoadedFrom.methods_eq {r : Registry} {model : Declarations} (h : r.LoadedFrom model)
    {name : String} {i : LoadedInterface} (hi : r.interface? name = some i) :
    i.methods = MethodTable.ofList i.service.methods := by
  rw [h.interface?, Option.bind_eq_some_iff] at hi
  obtain ⟨d, -, hi⟩ := hi
  obtain ⟨s, -, rfl⟩ := Option.map_eq_some_iff.1 hi
  rfl

variable {p : Pool} {d : Declaration}

theorem interfaceOf?_of_loadInterface {i : LoadedInterface} (h : loadInterface p d = .ok i) :
    interfaceOf? p d = some i ∧ d.name = i.name := by
  unfold loadInterface at h
  split at h
  next s hs =>
    obtain rfl := Except.ok.inj h
    rw [interfaceOf?, Symbol.service?_of_find? hs]
    exact ⟨rfl, rfl⟩
  next => cases h
  next => cases h

theorem serviceOf?_of_loadService {s : LoadedService} (h : loadService p d = .ok s) :
    serviceOf? p d = some s ∧ d.name = s.name := by
  unfold loadService at h
  split at h
  next t ht =>
    obtain rfl := Except.ok.inj h
    rw [serviceOf?, ht]
    exact ⟨rfl, rfl⟩
  next => cases h

section

variable {α : Type} {load : Declaration → Option α} {name : α → String}
  {declared : List Declaration} {xs : List α}

/-- What is indexed under the names of declarations is found by the last declaration of a name. -/
theorem get?_ofList_of_declared
    (h : List.Forall₂ (fun d x => load d = some x ∧ d.name = name x) declared xs) (key : String) :
    (Index.ofList (xs.map fun x => (name x, x))).get? key =
      (Declaration.last? declared key).bind load := by
  rw [Index.get?_ofList, ← List.map_reverse, List.find?_map, Option.map_map]
  have hreverse := (List.rel_reverse h).imp fun d x hx =>
    (⟨hx.1, by rw [hx.2]⟩ : load d = some x ∧ (d.name == key) = (name x == key))
  exact (congrFun Option.map_id _).trans hreverse.find?_eq

theorem map_ofList_of_declared
    (h : List.Forall₂ (fun d x => load d = some x ∧ d.name = name x) declared xs) :
    (Index.ofList (xs.map fun x => (name x, x))).entries.map name =
      (declared.map (·.name)).eraseDups := by
  have hnames : ∀ q ∈ xs.map fun x => (name x, x), name q.2 = q.1 := by
    intro q hq
    obtain ⟨x, -, rfl⟩ := List.mem_map.1 hq
    rfl
  rw [Index.map_ofList hnames, List.map_map]
  congr 1
  induction h with
  | nil => rfl
  | cons hx _ ih =>
    rw [List.map_cons, List.map_cons, hx.2]
    exact congrArg _ (ih fun q hq => hnames q (.tail _ hq))

end

/-- A registry that is loaded holds what is declared. -/
theorem loadedFrom_of_load {disk : Disk} {host : Pool} {artifacts : List Path}
    {model : Declarations} {r : Registry} (h : load disk host artifacts model = .ok r) :
    r.LoadedFrom model := by
  obtain ⟨pool, -, h⟩ := Except.bind_eq_ok.1 h
  obtain ⟨is, his, h⟩ := Except.bind_eq_ok.1 h
  obtain ⟨ss, hss, h⟩ := Except.bind_eq_ok.1 h
  obtain rfl := Except.pure_eq_ok.1 h
  have hinterfaces := (List.mapM_eq_ok.1 his).imp fun d i => interfaceOf?_of_loadInterface
  have hservices := (List.mapM_eq_ok.1 hss).imp fun d s => serviceOf?_of_loadService
  refine ⟨map_ofList_of_declared hinterfaces, map_ofList_of_declared hservices,
    get?_ofList_of_declared hinterfaces, get?_ofList_of_declared hservices, fun d hd => ?_,
    fun d hd => ?_⟩
  · obtain ⟨i, -, hi⟩ := hinterfaces.exists_right hd
    exact Option.isSome_iff_exists.2 ⟨i, hi.1⟩
  · obtain ⟨s, -, hs⟩ := hservices.exists_right hd
    exact Option.isSome_iff_exists.2 ⟨s, hs.1⟩

/-! ## The pool -/

/-- The pool of a registry is the host's with the artifacts. -/
theorem addArtifacts_of_load {disk : Disk} {host : Pool} {artifacts : List Path}
    {model : Declarations} {r : Registry} (h : load disk host artifacts model = .ok r) :
    addArtifacts disk host artifacts = .ok r.pool := by
  obtain ⟨pool, hpool, h⟩ := Except.bind_eq_ok.1 h
  obtain ⟨interfaces, -, h⟩ := Except.bind_eq_ok.1 h
  obtain ⟨services, -, h⟩ := Except.bind_eq_ok.1 h
  obtain rfl := Except.pure_eq_ok.1 h
  exact hpool

/-- What is loaded without artifacts has the host's definitions. -/
theorem pool_of_load_nil {disk : Disk} {host : Pool} {model : Declarations} {r : Registry}
    (h : load disk host [] model = .ok r) : r.pool = host :=
  (Except.ok.inj (addArtifacts_of_load h)).symm

/-- Artifacts add files to those that a pool has been loaded from. -/
theorem loadedFrom_addArtifacts {disk : Disk} {artifacts : List Path} {p q : Pool}
    {files : List Source.File} (hp : p.LoadedFrom files) (h : addArtifacts disk p artifacts = .ok q) :
    ∃ added, q.LoadedFrom (files ++ added) := by
  induction artifacts generalizing p files with
  | nil =>
    rw [← Except.ok.inj h]
    exact ⟨[], (List.append_nil files).symm ▸ hp⟩
  | cons path rest ih =>
    rw [addArtifacts] at h
    split at h
    next => cases h
    next bytes _ =>
      split at h
      next => cases h
      next next hnext =>
        obtain ⟨new, hp⟩ := hp.addSet hnext
        obtain ⟨added, hq⟩ := ih hp h
        exact ⟨new ++ added, by rwa [← List.append_assoc]⟩

/-- What is loaded on top of a loaded pool is a loaded pool. -/
theorem loaded_of_load {disk : Disk} {host : Pool} {artifacts : List Path} {model : Declarations}
    {r : Registry} (hhost : host.Loaded) (h : load disk host artifacts model = .ok r) :
    r.pool.Loaded := by
  obtain ⟨files, hfiles⟩ := hhost
  obtain ⟨added, hadded⟩ := loadedFrom_addArtifacts hfiles (addArtifacts_of_load h)
  exact ⟨_, hadded⟩

end Registry

end ServiceCall
