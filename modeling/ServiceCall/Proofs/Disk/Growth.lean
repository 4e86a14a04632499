import ServiceCall.Proofs.Disk.Ancestor
import ServiceCall.Proofs.Disk.Links
/-!
# What creating directories adds

Creating the directory of a path changes nothing that is there (`Disk.grows_createDirectories`), and
all that it adds are directories that the path or one of its ancestors leads to
(`Disk.leadsThrough_createDirectories`), on any disk, with any links on it, and also where the attempt
fails half way. Where the directory is there already nothing is done
(`Disk.createDirectories_of_isDirectory`).
-/

namespace ServiceCall

namespace Disk

variable {d d' d₁ d₂ : Disk} {at' l : Location} {todo : List String} {p : Path}

/-! ## Directories on the way -/

/-- The parts, or some of them from the first one on, lead to a directory at the location. -/
def Passes (d : Disk) (at' : Location) (todo : List String) (l : Location) : Prop :=
  ∃ first, first ≠ [] ∧ first <+: todo ∧ d.walk true 40 at' first = .ok ⟨l, some .directory⟩

theorem Passes.keeps (h : d.Passes at' todo l) (hkeeps : Keeps d d') : d'.Passes at' todo l := by
  obtain ⟨first, hne, hfirst, hwalk⟩ := h
  exact ⟨first, hne, hfirst, walk_keeps hkeeps (by simp) (fun hne => absurd rfl hne) hwalk⟩

theorem Passes.of_front {up : List String} (h : d.Passes at' up l) (hup : up <+: todo) :
    d.Passes at' todo l := by
  obtain ⟨first, hne, hfirst, hwalk⟩ := h
  exact ⟨first, hne, hfirst.trans hup, hwalk⟩

/-- The second disk is the first one with directories that the parts lead through. -/
structure Adds (at' : Location) (todo : List String) (d d' : Disk) : Prop where
  grows : Grows d d'
  passes : ∀ l, d.lookup l = none → d'.lookup l ≠ none → d'.Passes at' todo l

namespace Adds

theorem refl (at' : Location) (todo : List String) (d : Disk) : Adds at' todo d d :=
  ⟨.refl d, fun _ hnone hsome => absurd hnone hsome⟩

theorem trans (h : Adds at' todo d d₁) (h' : Adds at' todo d₁ d₂) : Adds at' todo d d₂ := by
  refine ⟨h.grows.trans h'.grows, fun l hnone hsome => ?_⟩
  by_cases hl : d₁.lookup l = none
  · exact h'.passes l hl hsome
  · exact (h.passes l hnone hl).keeps h'.grows.keeps

theorem of_front {up : List String} (h : Adds at' up d d') (hup : up <+: todo) :
    Adds at' todo d d' :=
  ⟨h.grows, fun l hnone hsome => (h.passes l hnone hsome).of_front hup⟩

theorem of_makeDirectoryAt (h : d.makeDirectoryAt at' todo = .ok d') : Adds at' todo d d' := by
  have htodo : todo ≠ [] := by
    rintro rfl
    cases h
  obtain ⟨made, hne, hmissing, rfl, hwalk⟩ := Disk.of_makeDirectoryAt h
  refine ⟨.set hne hmissing, fun l hnone hsome => ?_⟩
  by_cases hl : l = made
  · subst hl
    exact ⟨todo, htodo, List.prefix_refl _, hwalk⟩
  · rw [lookup_set_of_ne d hl] at hsome
    exact absurd hnone hsome

end Adds

/-! ## Creating the directory of a path -/

theorem adds_makeDirectories (d : Disk) (at' : Location) (up : List String) :
    Adds at' up.reverse d (d.makeDirectories at' up).2 := by
  induction up with
  | nil => exact .refl at' _ d
  | cons part up ih =>
    have hup : up.reverse <+: (part :: up).reverse := by
      rw [List.reverse_cons]
      exact List.prefix_append ..
    -- an attempt that finds the directory, or fails, leaves the disk as it is
    have hrefused (d : Disk) (e : IoError) :
        (if d.isDirectoryAt at' (part :: up).reverse = true then
          ((.ok (), d) : Except IoError Unit × Disk) else (.error e, d)).2 = d := by
      split <;> rfl
    rw [makeDirectories]
    split
    next d₁ hmade => exact .of_makeDirectoryAt hmade
    next =>
      have habove := ih.of_front hup
      rcases hresult : d.makeDirectories at' up with ⟨e | _, d₁⟩
      · rw [hresult] at habove
        exact habove
      · rw [hresult] at habove
        dsimp only
        split
        next d₂ hmade => exact habove.trans (.of_makeDirectoryAt hmade)
        next e _ => rw [hrefused]; exact habove
    next e _ _ => rw [hrefused]; exact .refl at' _ d

/-- The directory at the location is what the path or one of its ancestors leads to. -/
def LeadsThrough (d : Disk) (p : Path) (l : Location) : Prop :=
  ∃ q : Path, q.Contains p ∧ d.follow true q = .ok ⟨l, some .directory⟩

theorem LeadsThrough.keeps (h : d.LeadsThrough p l) (hkeeps : Keeps d d') : d'.LeadsThrough p l := by
  obtain ⟨q, hq, hfollow⟩ := h
  exact ⟨q, hq, follow_keeps hkeeps (by simp) (fun hne => absurd rfl hne) hfollow⟩

theorem Passes.leadsThrough (h : d.Passes (p.base d.workingDirectory) p.steps l)
    (hrefused : p.refusal? = none) : d.LeadsThrough p l := by
  obtain ⟨first, hne, hfirst, hwalk⟩ := h
  obtain ⟨q, hq, hempty, hparts⟩ := Path.exists_ancestor hfirst hne
  refine ⟨q, hq.contains, (follow_eq_walk hempty (hq.refusal? hrefused)).trans ?_⟩
  rw [hq.base, hparts]
  exact hwalk

/-- Creating the directory of a path changes nothing that is there. -/
theorem grows_createDirectories (d : Disk) (p : Path) : Grows d (d.createDirectories p).2 := by
  rw [createDirectories_eq_makeDirectories]
  split
  next => exact .refl d
  next => exact (adds_makeDirectories d _ _).grows

/-- What is new once the directory of a path was created, or could not be, is a directory that the
path leads through. -/
theorem leadsThrough_createDirectories (hnone : d.lookup l = none)
    (hsome : (d.createDirectories p).2.lookup l ≠ none) :
    (d.createDirectories p).2.LeadsThrough p l := by
  rw [createDirectories_eq_makeDirectories] at hsome ⊢
  split at hsome
  next => exact absurd hnone hsome
  next hrefused =>
    have hadds := adds_makeDirectories d (p.base d.workingDirectory) p.steps.reverse
    generalize d.makeDirectories (p.base d.workingDirectory) p.steps.reverse = r at hadds hsome ⊢
    have hpasses := hadds.passes l hnone hsome
    rw [List.reverse_reverse, ← hadds.grows.workingDirectory] at hpasses
    exact hpasses.leadsThrough hrefused

/-! ## Directories that are there -/

/-- Where a walk ends at a directory it ends at something if a link at its end is not followed. -/
theorem walkTo_of_directory {on₁ on₂ : Location → Path → List String → Except IoError Place}
    (hon : ∀ at' target rest, on₁ at' target rest = .ok ⟨l, some .directory⟩ →
      ∃ pl, on₂ at' target rest = .ok pl ∧ pl.entry ≠ none)
    (h : walkTo d true on₁ at' todo = .ok ⟨l, some .directory⟩) :
    ∃ pl, walkTo d false on₂ at' todo = .ok pl ∧ pl.entry ≠ none := by
  induction todo generalizing at' with
  | nil => exact ⟨_, rfl, by simp⟩
  | cons part rest ih =>
    by_cases hdot : part = "."
    · rw [walkTo, if_pos hdot] at h ⊢
      exact ih h
    by_cases hback : part = ".."
    · rw [walkTo_back hback] at h ⊢
      exact ih h
    by_cases hlong : 255 < part.length
    · rw [walkTo_long hdot hback hlong] at h
      cases h
    cases hentry : d.lookup (at' ++ [part]) with
    | none =>
      rw [walkTo_missing hdot hback hlong hentry] at h
      split at h <;> simp at h
    | some e =>
      cases e with
      | directory =>
        rw [walkTo_directory hdot hback hlong hentry] at h ⊢
        exact ih h
      | file content executable =>
        rw [walkTo_file hdot hback hlong hentry] at h
        split at h <;> simp at h
      | link target =>
        rw [walkTo_link hdot hback hlong hentry] at h ⊢
        rw [if_neg (by simp)] at h
        split
        · exact ⟨_, rfl, by simp⟩
        · exact hon _ _ _ h
      | special =>
        rw [walkTo_special hdot hback hlong hentry] at h
        split at h <;> simp at h

theorem walk_of_directory {n : Nat} (h : d.walk true n at' todo = .ok ⟨l, some .directory⟩) :
    ∃ pl, d.walk false n at' todo = .ok pl ∧ pl.entry ≠ none := by
  induction n generalizing at' todo with
  | zero => exact walkTo_of_directory (fun _ _ _ hon => by cases hon) h
  | succ n ih =>
    refine walkTo_of_directory (fun _ _ _ hon => ?_) h
    split at hon
    next => cases hon
    next hempty =>
      rw [if_neg hempty]
      exact ih hon

theorem makeDirectoryAt_of_isDirectoryAt (h : d.isDirectoryAt at' todo = true) :
    d.makeDirectoryAt at' todo = .error .alreadyExists := by
  obtain ⟨l, hl⟩ := isDirectoryAt_eq_true.1 h
  obtain ⟨pl, hwalk, hentry⟩ := walk_of_directory hl
  obtain ⟨e, he⟩ := Option.ne_none_iff_exists'.1 hentry
  unfold makeDirectoryAt
  rw [hwalk]
  simp [bind, Except.bind, he]

/-- Nothing is done for a directory that is there already. -/
theorem createDirectories_of_isDirectory (hparts : parts p = p.steps) (hsteps : p.steps ≠ [])
    (h : d.isDirectory p = true) : d.createDirectories p = (.ok (), d) := by
  obtain ⟨l, hfollow⟩ := isDirectory_eq_true.1 h
  obtain ⟨hrefused, hwalk⟩ : p.refusal? = none ∧
      d.walk true 40 (p.base d.workingDirectory) p.steps = .ok ⟨l, some .directory⟩ := by
    unfold follow at hfollow
    unfold Path.refusal?
    split at hfollow
    · cases hfollow
    rw [if_neg ‹_›]
    split at hfollow
    · cases hfollow
    split at hfollow
    · cases hfollow
    rw [if_neg ‹_›]
    exact ⟨rfl, hparts ▸ hfollow⟩
  have hthere : d.isDirectoryAt (p.base d.workingDirectory) p.steps = true :=
    isDirectoryAt_eq_true.2 ⟨l, hwalk⟩
  have hexists := makeDirectoryAt_of_isDirectoryAt hthere
  obtain ⟨part, up, hup⟩ := List.exists_cons_of_ne_nil (List.reverse_ne_nil_iff.2 hsteps)
  rw [← List.reverse_reverse p.steps, hup] at hthere hexists
  rw [createDirectories_eq_makeDirectories, hrefused, hup, makeDirectories]
  simp only [hexists, hthere, if_true]

end Disk

end ServiceCall
