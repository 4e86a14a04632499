import ServiceCall.Proofs.Registry.Load
/-!
# When loading fails, and how

Whether a registry is loaded is up to the artifacts, each on top of what those before it have made of
the host's pool (`Registry.Adds`), and to what the pool has in the end under the declared names.
Otherwise the error is that of the first failure (`Registry.Fails`): of artifacts before interfaces
before services, and among these in the order of the lists. A declaration that a later one of the same
name takes the place of is looked up like any other.
-/

namespace ServiceCall

/-! ## What a pool has under a name -/

/-- The pool has no service, message or enum of the name. -/
structure Pool.Lacks (p : Pool) (name : String) : Prop where
  service : p.service? name = none
  message : p.message? name = none
  enumeration : p.enum? name = none

variable {p : Pool} {x : Declaration}

theorem Symbol.find?_eq_none_iff {name : String} : find? p name = none ↔ p.Lacks name := by
  unfold find?
  constructor
  · intro h
    cases hservice : p.service? name with
    | some s => simp [hservice] at h
    | none =>
      cases hmessage : p.message? name with
      | some t => simp [hservice, hmessage] at h
      | none => exact ⟨hservice, hmessage, by simpa [hservice, hmessage] using h⟩
  · rintro ⟨hservice, hmessage, henumeration⟩
    rw [hservice, hmessage, henumeration]
    rfl

theorem Symbol.find?_of_service? {name : String} {s : Service} (h : p.service? name = some s) :
    find? p name = some (.service s) := by
  rw [find?, h]
  rfl

namespace Registry

theorem exists_loadInterface_iff :
    (∃ i, loadInterface p x = .ok i) ↔ (p.service? x.fullName).isSome = true := by
  constructor
  · rintro ⟨i, hi⟩
    unfold loadInterface at hi
    split at hi
    next s hs => rw [Symbol.service?_of_find? hs, Option.isSome_some]
    next => cases hi
    next => cases hi
  · intro h
    obtain ⟨s, hs⟩ := Option.isSome_iff_exists.1 h
    rw [loadInterface, Symbol.find?_of_service? hs]
    exact ⟨_, rfl⟩

theorem loadInterface_eq_error_iff {e : LoadError} : loadInterface p x = .error e ↔
    (p.Lacks x.fullName ∧ e = .missing x) ∨
      p.service? x.fullName = none ∧ ¬ p.Lacks x.fullName ∧ e = .notAnInterface x := by
  cases hservice : p.service? x.fullName with
  | some s =>
    have hlacks : ¬ p.Lacks x.fullName := fun h => by simp [h.service] at hservice
    rw [loadInterface, Symbol.find?_of_service? hservice]
    simp [hlacks]
  | none =>
    rw [loadInterface]
    cases hfind : Symbol.find? p x.fullName with
    | none =>
      have hlacks := Symbol.find?_eq_none_iff.1 hfind
      simp [hlacks, eq_comm]
    | some s =>
      have hlacks : ¬ p.Lacks x.fullName := fun h => by
        rw [Symbol.find?_eq_none_iff.2 h] at hfind
        cases hfind
      cases s with
      | service s =>
        rw [Symbol.service?_of_find? hfind] at hservice
        cases hservice
      | message | enumeration => simp [hlacks, eq_comm]

theorem exists_loadService_iff : (∃ s, loadService p x = .ok s) ↔ ¬ p.Lacks x.fullName := by
  rw [loadService, ← Symbol.find?_eq_none_iff]
  cases Symbol.find? p x.fullName <;> simp

theorem loadService_eq_error_iff {e : LoadError} :
    loadService p x = .error e ↔ p.Lacks x.fullName ∧ e = .missing x := by
  rw [loadService, ← Symbol.find?_eq_none_iff]
  cases Symbol.find? p x.fullName <;> simp [eq_comm]

/-! ## Artifacts -/

/-- Artifacts are read and added to a pool, each to what those before it have made of it. -/
inductive Adds (disk : Disk) : Pool → List Path → Pool → Prop where
  | nil (p : Pool) : Adds disk p [] p
  | cons {p q r : Pool} {path : Path} {rest : List Path} {bytes : Bytes}
      (hread : disk.read path = .ok bytes) (hadd : p.addSet bytes = .ok q)
      (h : Adds disk q rest r) : Adds disk p (path :: rest) r

variable {disk : Disk}

theorem addArtifacts_eq_ok_iff {paths : List Path} {p q : Pool} :
    addArtifacts disk p paths = .ok q ↔ Adds disk p paths q := by
  constructor
  · intro h
    induction paths generalizing p with
    | nil =>
      obtain rfl := Except.ok.inj h
      exact .nil p
    | cons path rest ih =>
      rw [addArtifacts] at h
      split at h
      next => cases h
      next bytes hread =>
        split at h
        next => cases h
        next next hadd => exact .cons hread hadd (ih h)
  · intro h
    induction h with
    | nil p => rfl
    | cons hread hadd _ ih =>
      rw [addArtifacts, hread]
      dsimp only
      rw [hadd]
      exact ih

/-- An artifact cannot be read, or not be added to a pool. -/
inductive Rejects (disk : Disk) (p : Pool) (path : Path) : LoadError → Prop where
  | unread {e : IoError} (hread : disk.read path = .error e) : Rejects disk p path (.artifact path e)
  | undecoded {bytes : Bytes} {e : SchemaError} (hread : disk.read path = .ok bytes)
      (hadd : p.addSet bytes = .error e) : Rejects disk p path (.decode path e)

/-- Adding artifacts fails at the first one that is rejected. -/
theorem addArtifacts_eq_error_iff {paths : List Path} {p : Pool} {e : LoadError} :
    addArtifacts disk p paths = .error e ↔ ∃ before path after q,
      paths = before ++ path :: after ∧ Adds disk p before q ∧ Rejects disk q path e := by
  constructor
  · intro h
    induction paths generalizing p with
    | nil => cases h
    | cons path rest ih =>
      rw [addArtifacts] at h
      split at h
      next c hread =>
        obtain rfl := Except.error.inj h
        exact ⟨[], path, rest, p, rfl, .nil p, .unread hread⟩
      next bytes hread =>
        split at h
        next c hadd =>
          obtain rfl := Except.error.inj h
          exact ⟨[], path, rest, p, rfl, .nil p, .undecoded hread hadd⟩
        next q hadd =>
          obtain ⟨before, path', after, r, rfl, hbefore, hrejects⟩ := ih h
          exact ⟨path :: before, path', after, r, rfl, .cons hread hadd hbefore, hrejects⟩
  · rintro ⟨before, path, after, q, rfl, hbefore, hrejects⟩
    induction hbefore with
    | nil p =>
      rw [List.nil_append, addArtifacts]
      cases hrejects with
      | unread hread => rw [hread]
      | undecoded hread hadd =>
        rw [hread]
        dsimp only
        rw [hadd]
    | cons hread hadd _ ih =>
      rw [List.cons_append, addArtifacts, hread]
      dsimp only
      rw [hadd]
      exact ih hrejects

/-! ## Loading -/

section

variable (disk : Disk) (host : Pool) (artifacts : List Path) (model : Declarations)

/-- Every artifact is added, and the pool has a service for every declared interface and some
definition for every declared service. -/
def Succeeds : Prop := ∃ p, Adds disk host artifacts p ∧
  (∀ x ∈ model.interfaces, (p.service? x.fullName).isSome = true) ∧
    ∀ x ∈ model.services, ¬ p.Lacks x.fullName

/-- The first failure of loading: nothing that comes before it fails. -/
inductive Fails : LoadError → Prop where
  | artifact {before after : List Path} {path : Path} {p : Pool} {e : LoadError}
      (hsplit : artifacts = before ++ path :: after) (hbefore : Adds disk host before p)
      (hrejects : Rejects disk p path e) : Fails e
  | missingInterface {before after : List Declaration} {x : Declaration} {p : Pool}
      (hpool : Adds disk host artifacts p) (hsplit : model.interfaces = before ++ x :: after)
      (hbefore : ∀ y ∈ before, (p.service? y.fullName).isSome = true)
      (hlacks : p.Lacks x.fullName) : Fails (.missing x)
  | notAnInterface {before after : List Declaration} {x : Declaration} {p : Pool}
      (hpool : Adds disk host artifacts p) (hsplit : model.interfaces = before ++ x :: after)
      (hbefore : ∀ y ∈ before, (p.service? y.fullName).isSome = true)
      (hservice : p.service? x.fullName = none)
      (hother : (p.message? x.fullName).isSome = true ∨ (p.enum? x.fullName).isSome = true) :
      Fails (.notAnInterface x)
  | missingService {before after : List Declaration} {x : Declaration} {p : Pool}
      (hpool : Adds disk host artifacts p)
      (hinterfaces : ∀ y ∈ model.interfaces, (p.service? y.fullName).isSome = true)
      (hsplit : model.services = before ++ x :: after)
      (hbefore : ∀ y ∈ before, ¬ p.Lacks y.fullName) (hlacks : p.Lacks x.fullName) :
      Fails (.missing x)

end

variable {host : Pool} {artifacts : List Path} {model : Declarations}

/-- What has no service can still be something else. -/
theorem not_lacks_iff {name : String} (h : p.service? name = none) :
    ¬ p.Lacks name ↔ (p.message? name).isSome = true ∨ (p.enum? name).isSome = true := by
  rw [Option.isSome_iff_ne_none, Option.isSome_iff_ne_none, ← not_and_or]
  exact not_congr ⟨fun hlacks => ⟨hlacks.message, hlacks.enumeration⟩, fun ⟨hm, he⟩ => ⟨h, hm, he⟩⟩

theorem interfaces_eq_ok_iff {declared : List Declaration} :
    (∃ is, declared.mapM (loadInterface p) = .ok is) ↔
      ∀ x ∈ declared, (p.service? x.fullName).isSome = true := by
  rw [List.exists_mapM_eq_ok]
  exact forall₂_congr fun x _ => exists_loadInterface_iff

theorem services_eq_ok_iff {declared : List Declaration} :
    (∃ ss, declared.mapM (loadService p) = .ok ss) ↔ ∀ x ∈ declared, ¬ p.Lacks x.fullName := by
  rw [List.exists_mapM_eq_ok]
  exact forall₂_congr fun x _ => exists_loadService_iff

theorem exists_load_iff :
    (∃ r, load disk host artifacts model = .ok r) ↔ Succeeds disk host artifacts model := by
  constructor
  · rintro ⟨r, h⟩
    obtain ⟨p, hpool, h⟩ := Except.bind_eq_ok.1 h
    obtain ⟨is, his, h⟩ := Except.bind_eq_ok.1 h
    obtain ⟨ss, hss, -⟩ := Except.bind_eq_ok.1 h
    exact ⟨p, addArtifacts_eq_ok_iff.1 hpool, interfaces_eq_ok_iff.1 ⟨is, his⟩,
      services_eq_ok_iff.1 ⟨ss, hss⟩⟩
  · rintro ⟨p, hpool, hinterfaces, hservices⟩
    obtain ⟨is, his⟩ := interfaces_eq_ok_iff.2 hinterfaces
    obtain ⟨ss, hss⟩ := services_eq_ok_iff.2 hservices
    refine ⟨_, Except.bind_eq_ok.2 ⟨p, addArtifacts_eq_ok_iff.2 hpool, Except.bind_eq_ok.2
      ⟨is, his, Except.bind_eq_ok.2 ⟨ss, hss, rfl⟩⟩⟩⟩

theorem load_eq_error_iff {e : LoadError} :
    load disk host artifacts model = .error e ↔ Fails disk host artifacts model e := by
  constructor
  · intro h
    obtain h | ⟨p, hpool, h⟩ := Except.bind_eq_error.1 h
    · obtain ⟨before, path, after, p, hsplit, hbefore, hrejects⟩ := addArtifacts_eq_error_iff.1 h
      exact .artifact hsplit hbefore hrejects
    have hpool := addArtifacts_eq_ok_iff.1 hpool
    obtain h | ⟨is, his, h⟩ := Except.bind_eq_error.1 h
    · obtain ⟨before, x, after, hsplit, hbefore, hx⟩ := List.mapM_eq_error.1 h
      have hbefore := fun y hy => exists_loadInterface_iff.1 (hbefore y hy)
      obtain ⟨hlacks, rfl⟩ | ⟨hservice, hlacks, rfl⟩ := loadInterface_eq_error_iff.1 hx
      · exact .missingInterface hpool hsplit hbefore hlacks
      · exact .notAnInterface hpool hsplit hbefore hservice ((not_lacks_iff hservice).1 hlacks)
    obtain h | ⟨ss, hss, h⟩ := Except.bind_eq_error.1 h
    · obtain ⟨before, x, after, hsplit, hbefore, hx⟩ := List.mapM_eq_error.1 h
      obtain ⟨hlacks, rfl⟩ := loadService_eq_error_iff.1 hx
      exact .missingService hpool (interfaces_eq_ok_iff.1 ⟨is, his⟩) hsplit
        (fun y hy => exists_loadService_iff.1 (hbefore y hy)) hlacks
    · cases h
  · intro h
    have hinterface {before after : List Declaration} {x : Declaration} {p : Pool}
        (hpool : Adds disk host artifacts p) (hsplit : model.interfaces = before ++ x :: after)
        (hbefore : ∀ y ∈ before, (p.service? y.fullName).isSome = true)
        (hx : loadInterface p x = .error e) : load disk host artifacts model = .error e := by
      refine Except.bind_eq_error.2 (.inr ⟨p, addArtifacts_eq_ok_iff.2 hpool, ?_⟩)
      refine Except.bind_eq_error.2 (.inl (List.mapM_eq_error.2 ⟨before, x, after, hsplit, ?_, hx⟩))
      exact fun y hy => exists_loadInterface_iff.2 (hbefore y hy)
    cases h with
    | artifact hsplit hbefore hrejects =>
      exact Except.bind_eq_error.2
        (.inl (addArtifacts_eq_error_iff.2 ⟨_, _, _, _, hsplit, hbefore, hrejects⟩))
    | missingInterface hpool hsplit hbefore hlacks =>
      exact hinterface hpool hsplit hbefore (loadInterface_eq_error_iff.2 (.inl ⟨hlacks, rfl⟩))
    | notAnInterface hpool hsplit hbefore hservice hother =>
      exact hinterface hpool hsplit hbefore
        (loadInterface_eq_error_iff.2 (.inr ⟨hservice, (not_lacks_iff hservice).2 hother, rfl⟩))
    | missingService hpool hinterfaces hsplit hbefore hlacks =>
      obtain ⟨is, his⟩ := interfaces_eq_ok_iff.2 hinterfaces
      refine Except.bind_eq_error.2 (.inr ⟨_, addArtifacts_eq_ok_iff.2 hpool, ?_⟩)
      refine Except.bind_eq_error.2 (.inr ⟨is, his, ?_⟩)
      refine Except.bind_eq_error.2 (.inl (List.mapM_eq_error.2 ⟨_, _, _, hsplit, ?_, ?_⟩))
      · exact fun y hy => exists_loadService_iff.2 (hbefore y hy)
      · exact loadService_eq_error_iff.2 ⟨hlacks, rfl⟩

/-- Loading succeeds exactly if all artifacts can be added and everything declared is there as what it
is declared as, and otherwise its error is that of the first failure. -/
theorem load_verdict (disk : Disk) (host : Pool) (artifacts : List Path) (model : Declarations) :
    ((∃ r, load disk host artifacts model = .ok r) ↔ Succeeds disk host artifacts model) ∧
      ∀ e, load disk host artifacts model = .error e ↔ Fails disk host artifacts model e :=
  ⟨exists_load_iff, fun _ => load_eq_error_iff⟩

end Registry

end ServiceCall
