import ServiceCall.Proofs.Registry.Load
import ServiceCall.Proofs.Schema.Declared
/-!
# The registry as its model declares it

A registry that is loaded lists every declared name once, in the order in which the names are declared
first, and finds exactly what it lists. What is found of a name is the definition that the pool has for
the full name of the *last* declaration of that name (`Registry.mirrors_of_load`): a name that comes
again keeps its place and changes what it stands for.
-/

namespace ServiceCall

namespace Declaration

/-- The names are those of declarations, each once, where it is declared first. -/
structure ListsOnce (declared : List Declaration) (names : List String) : Prop where
  nodup : names.Nodup
  mem (name : String) : name ∈ names ↔ name ∈ declared.map (·.name)
  order : names.Pairwise fun a b =>
    (declared.map (·.name)).idxOf a < (declared.map (·.name)).idxOf b

/-- The declaration is the last one of a name. -/
def Last (declared : List Declaration) (name : String) (d : Declaration) : Prop :=
  ∃ before after, declared = before ++ d :: after ∧ d.name = name ∧ name ∉ after.map (·.name)

theorem last_of_last? {declared : List Declaration} {name : String} {d : Declaration}
    (h : last? declared name = some d) : Last declared name d := by
  obtain ⟨hname, after, before, hsplit, hafter⟩ := List.find?_eq_some_iff_append.1 h
  refine ⟨before.reverse, after.reverse, ?_, by simpa using hname, fun hmem => ?_⟩
  · rw [← List.reverse_reverse declared, hsplit]
    simp
  · obtain ⟨d', hd', hname'⟩ := List.mem_map.1 hmem
    simpa [hname'] using hafter d' (List.mem_reverse.1 hd')

theorem listsOnce_eraseDups (declared : List Declaration) :
    ListsOnce declared (declared.map (·.name)).eraseDups :=
  ⟨nodup_eraseDups _, fun _ => List.mem_eraseDups, pairwise_idxOf_eraseDups _⟩

end Declaration

/-- What a pool has under a name is called so. -/
theorem Symbol.fullName_of_find? {p : Pool} {name : String} {s : Symbol} (h : find? p name = some s) :
    s.fullName = Pool.bareName name := by
  unfold find? at h
  cases hservice : p.service? name with
  | some t =>
    rw [hservice] at h
    obtain rfl := Option.some.inj h
    simpa [fullName] using List.find?_some hservice
  | none =>
    cases hmessage : p.message? name with
    | some t =>
      rw [hservice, hmessage] at h
      obtain rfl := Option.some.inj h
      simpa [fullName] using List.find?_some hmessage
    | none =>
      rw [hservice, hmessage] at h
      obtain ⟨e, he, rfl⟩ : ∃ e, p.enum? name = some e ∧ enumeration e = s :=
        Option.map_eq_some_iff.1 h
      simpa [fullName] using List.find?_some he

namespace Registry

/-- A registry shows what a model declares, as its pool defines it. -/
structure Mirrors (r : Registry) (model : Declarations) : Prop where
  interfaces : Declaration.ListsOnce model.interfaces r.interfaces
  services : Declaration.ListsOnce model.services r.services
  interfaceListed (name : String) : (r.interface? name).isSome = true ↔ name ∈ r.interfaces
  serviceListed (name : String) : (r.service? name).isSome = true ↔ name ∈ r.services
  /-- An interface is a service, with a table of exactly its methods. -/
  interface (name : String) (i : LoadedInterface) (hi : r.interface? name = some i) :
    i.name = name ∧ i.methods.toList = i.service.methods ∧
      ∃ d, Declaration.Last model.interfaces name d ∧ i.service.fullName = Pool.bareName d.fullName ∧
        Symbol.find? r.pool d.fullName = some (.service i.service)
  service (name : String) (s : LoadedService) (hs : r.service? name = some s) :
    s.name = name ∧ ∃ d, Declaration.Last model.services name d ∧
      s.symbol.fullName = Pool.bareName d.fullName ∧ Symbol.find? r.pool d.fullName = some s.symbol

variable {r : Registry} {model : Declarations}

theorem LoadedFrom.mirrors (h : r.LoadedFrom model) : r.Mirrors model where
  interfaces := h.interfaces ▸ Declaration.listsOnce_eraseDups model.interfaces
  services := h.services ▸ Declaration.listsOnce_eraseDups model.services
  interfaceListed name := by
    rw [h.interfaces, List.mem_eraseDups, ← h.exists_interface?, Option.isSome_iff_exists]
  serviceListed name := by rw [h.services, List.mem_eraseDups, h.isSome_service?]
  interface name i hi := by
    rw [h.interface?, Option.bind_eq_some_iff] at hi
    obtain ⟨d, hd, hi⟩ := hi
    obtain ⟨s, hs, rfl⟩ := Option.map_eq_some_iff.1 hi
    have hfind : Symbol.find? r.pool d.fullName = some (.service s) := by
      rw [Symbol.find?, hs]
      rfl
    exact ⟨(Declaration.of_last? hd).2, rfl, d, Declaration.last_of_last? hd,
      Symbol.fullName_of_find? hfind, hfind⟩
  service name s hs := by
    rw [h.service?, Option.bind_eq_some_iff] at hs
    obtain ⟨d, hd, hs⟩ := hs
    obtain ⟨symbol, hfind, rfl⟩ := Option.map_eq_some_iff.1 hs
    exact ⟨(Declaration.of_last? hd).2, d, Declaration.last_of_last? hd,
      Symbol.fullName_of_find? hfind, hfind⟩

/-- Every registry that is loaded, from whatever artifacts on top of whatever pool, shows what its model
declares. Over files that were loaded, the methods of an interface are those of a declared service, in
the order of their declaration. -/
theorem mirrors_of_load {disk : Disk} {host : Pool} {artifacts : List Path}
    (h : load disk host artifacts model = .ok r) :
    addArtifacts disk host artifacts = .ok r.pool ∧ r.Mirrors model ∧
      ∀ files, host.LoadedFrom files → ∃ added, r.pool.LoadedFrom (files ++ added) ∧
        ∀ name i, r.interface? name = some i →
          ∃ declared ∈ Pool.declaredServices (files ++ added), Service.Declares declared i.service := by
  have hmirrors := (loadedFrom_of_load h).mirrors
  have hpool := addArtifacts_of_load h
  refine ⟨hpool, hmirrors, fun files hfiles => ?_⟩
  obtain ⟨added, hadded⟩ := loadedFrom_addArtifacts hfiles hpool
  refine ⟨added, hadded, fun name i hi => hadded.exists_declares ?_⟩
  obtain ⟨-, -, d, -, -, hfind⟩ := hmirrors.interface name i hi
  exact List.mem_of_find?_eq_some (Symbol.service?_of_find? hfind)

/-- A file with two services. -/
def pairFile : Source.File where
  name := "pair.proto"
  package := "pair"
  dependencies := []
  publicDependencies := []
  weakDependencies := []
  messages := [Standard.message "Text" [Standard.text "text" 1]]
  enums := []
  services := [⟨"First", [⟨"one", ".pair.Text", ".pair.Text", false, false⟩]⟩,
    ⟨"Second", [⟨"two", ".pair.Text", ".pair.Text", false, false⟩,
      ⟨"three", ".pair.Text", ".pair.Text", false, false⟩]⟩]
  extensions := []
  edition := .proto3
  options := []

/-- Both services are declared under one name, with another one between them. -/
def pairModel : Declarations :=
  ⟨[⟨"Port", "pair.First"⟩, ⟨"Other", "pair.First"⟩, ⟨"Port", "pair.Second"⟩], [⟨"Text", "pair.Text"⟩]⟩

/-- The name of both services comes first and stands for the second one. -/
theorem mirrors_pair : ∃ r, load ⟨[], []⟩ (.ofFiles [pairFile]) [] pairModel = .ok r ∧
    r.Mirrors pairModel ∧ r.interfaces = ["Port", "Other"] ∧
      ∃ i, r.interface? "Port" = some i ∧ i.methods.toList.map (·.name) = ["two", "three"] := by
  have hload : (load ⟨[], []⟩ (.ofFiles [pairFile]) [] pairModel).toOption.map (fun r =>
      (r.interfaces, (r.interface? "Port").map (·.methods.toList.map (·.name)))) =
        some (["Port", "Other"], some ["two", "three"]) := by
    decide +kernel
  obtain ⟨r, hr, hshown⟩ := Option.map_eq_some_iff.1 hload
  obtain ⟨hlisted, hport⟩ := Prod.mk.inj hshown
  have hr := Except.toOption_eq_some.1 hr
  exact ⟨r, hr, (mirrors_of_load hr).2.1, hlisted, Option.map_eq_some_iff.1 hport⟩

end Registry

end ServiceCall
