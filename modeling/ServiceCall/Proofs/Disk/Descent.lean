import ServiceCall.Proofs.Disk.Links
/-!
# What stands below a directory

From a directory one gets down by names, through directories and never through links
(`Disk.Descends`). On a well-formed disk this is what the table lists below a location
(`Disk.WellFormed.mem_below_iff_descends`), so link cycles and links that lead nowhere do not matter to it. A
path that leads to a directory is one, or a link to it (`Disk.linkEntry_of_follow`).
-/

namespace ServiceCall

namespace Disk

variable {d d' : Disk} {at' l : Location} {names : List String} {n : String} {e : Entry}

/-! ## Descending -/

/-- Names lead down from a directory to an entry. All but the last of them are directories; a link is
an entry like any other and leads no further. -/
inductive Descends (d : Disk) : Location → List String → Entry → Prop where
  | here {at' : Location} {n : String} {e : Entry} (h : d.lookup (at' ++ [n]) = some e) :
      Descends d at' [n] e
  | down {at' : Location} {n : String} {names : List String} {e : Entry}
      (hdirectory : d.lookup (at' ++ [n]) = some .directory)
      (h : Descends d (at' ++ [n]) names e) : Descends d at' (n :: names) e

theorem Descends.ne_nil (h : d.Descends at' names e) : names ≠ [] := by
  cases h <;> simp

theorem Descends.lookup_eq (h : d.Descends at' names e) : d.lookup (at' ++ names) = some e := by
  induction h with
  | here h => exact h
  | down _ _ ih => rwa [List.append_assoc] at ih

/-- On a tree what stands below a location is reached through directories. -/
theorem WellFormed.descends_of_lookup (h : d.WellFormed) (hnames : names ≠ [])
    (hlookup : d.lookup (at' ++ names) = some e) : d.Descends at' names e := by
  induction names generalizing at' with
  | nil => exact absurd rfl hnames
  | cons n rest ih =>
    rw [List.append_cons] at hlookup
    by_cases hrest : rest = []
    · subst hrest
      rw [List.append_nil] at hlookup
      exact .here hlookup
    · refine .down ?_ (ih hrest hlookup)
      by_contra hnot
      rw [h.lookup_below hnot (List.prefix_append ..) (by simpa using hrest)] at hlookup
      cases hlookup

theorem WellFormed.descends_iff (h : d.WellFormed) :
    d.Descends at' names e ↔ names ≠ [] ∧ d.lookup (at' ++ names) = some e :=
  ⟨fun hdown => ⟨hdown.ne_nil, hdown.lookup_eq⟩, fun hdown => h.descends_of_lookup hdown.1 hdown.2⟩

/-- The table lists what can be reached, and nothing else. -/
theorem WellFormed.mem_below_iff_descends (h : d.WellFormed) :
    (names, e) ∈ d.below at' ↔ d.Descends at' names e := by
  rw [mem_below, h.descends_iff]
  refine and_congr_right fun hnames => ?_
  rw [h.lookup_eq_some (by simp [hnames])]

/-- What can be reached is reached by names. -/
theorem WellFormed.isName_of_descends (h : d.WellFormed) (hdown : d.Descends at' names e) :
    ∀ n ∈ names, IsName n :=
  fun _ hn => h.isName hdown.lookup_eq (List.mem_append_right _ hn)

/-- What stands below a location is listed once. -/
theorem WellFormed.nodup_below (h : d.WellFormed) (at' : Location) : (d.below at').Nodup := by
  refine List.Nodup.filterMap (fun x y z hx hy => ?_) (List.Nodup.of_map _ h.nodup)
  simp only [Option.mem_def, Option.ite_none_right_eq_some, Option.some.injEq] at hx hy
  obtain ⟨⟨-, hx⟩, rfl⟩ := hx
  obtain ⟨⟨-, hy⟩, heq⟩ := hy
  obtain ⟨hl, he⟩ := Prod.mk.inj heq
  refine Prod.ext ?_ he.symm
  rw [← List.take_append_drop at'.length x.1, ← List.take_append_drop at'.length y.1, hx, hy, hl]

/-- Where the same can be reached the same is listed, in some order. -/
theorem below_perm {d₁ d₂ : Disk} (h₁ : d₁.WellFormed) (h₂ : d₂.WellFormed)
    (h : ∀ l, l ≠ [] → d₁.lookup (at' ++ l) = d₂.lookup (at' ++ l)) :
    (d₁.below at').Perm (d₂.below at') := by
  refine (List.perm_ext_iff_of_nodup (h₁.nodup_below at') (h₂.nodup_below at')).2 fun ⟨l, e⟩ => ?_
  rw [h₁.mem_below_iff_descends, h₂.mem_below_iff_descends, h₁.descends_iff, h₂.descends_iff]
  exact and_congr_right fun hl => by rw [h l hl]

/-! ## A table in another order -/

/-- The order of the table is no part of what is on a disk. -/
theorem WellFormed.lookup_of_perm (h : d.WellFormed) (hperm : d'.entries.Perm d.entries)
    (l : Location) : d'.lookup l = d.lookup l := by
  have hnodup : (d'.entries.map Prod.fst).Nodup := (hperm.map _).nodup_iff.2 h.nodup
  unfold lookup
  split
  next => rfl
  next =>
    refine Option.ext fun e => ?_
    rw [find?_eq_some hnodup, find?_eq_some h.nodup, hperm.mem_iff]

theorem WellFormed.of_perm (h : d.WellFormed) (hperm : d'.entries.Perm d.entries)
    (hwd : d'.workingDirectory = d.workingDirectory) : d'.WellFormed where
  nodup := (hperm.map _).nodup_iff.2 h.nodup
  nonempty x hx := h.nonempty x (hperm.mem_iff.1 hx)
  names x hx := h.names x (hperm.mem_iff.1 hx)
  parents x hx := (h.lookup_of_perm hperm _).trans (h.parents x (hperm.mem_iff.1 hx))
  workingDirectory := by rw [hwd, h.lookup_of_perm hperm, h.workingDirectory]

/-! ## A directory as it stands -/

/-- The entry is a directory, or a link that may lead to one. -/
def IsDirectoryOrLink (e : Entry) : Prop := e = .directory ∨ ∃ t, e = .link t

/-- Without following the last part, a walk to a directory comes to it or to a link. -/
theorem walkTo_unfollowed {on₁ on₂ : Location → Path → List String → Except IoError Place}
    {todo : List String}
    (hon : ∀ at' target rest, on₁ at' target rest = .ok ⟨l, some .directory⟩ →
      ∃ l' e, on₂ at' target rest = .ok ⟨l', some e⟩ ∧ IsDirectoryOrLink e)
    (h : walkTo d true on₁ at' todo = .ok ⟨l, some .directory⟩) :
    ∃ l' e, walkTo d false on₂ at' todo = .ok ⟨l', some e⟩ ∧ IsDirectoryOrLink e := by
  induction todo generalizing at' with
  | nil => exact ⟨_, _, rfl, .inl rfl⟩
  | cons part rest ih =>
    by_cases hdot : part = "."
    · rw [walkTo, if_pos hdot] at h ⊢
      exact ih h
    by_cases hback : part = ".."
    · rw [walkTo_back hback] at h ⊢
      exact ih h
    by_cases hlong : 255 < part.length
    · rw [walkTo_long hdot hback hlong] at h
      cases h
    cases hentry : d.lookup (at' ++ [part]) with
    | none =>
      rw [walkTo_missing hdot hback hlong hentry] at h
      split at h <;> cases h
    | some e =>
      cases e with
      | directory =>
        rw [walkTo_directory hdot hback hlong hentry] at h ⊢
        exact ih h
      | file content executable =>
        rw [walkTo_file hdot hback hlong hentry] at h
        split at h <;> cases h
      | special =>
        rw [walkTo_special hdot hback hlong hentry] at h
        split at h <;> cases h
      | link target =>
        rw [walkTo_link hdot hback hlong hentry, if_neg (by simp)] at h
        rw [walkTo_link hdot hback hlong hentry]
        split
        · exact ⟨_, _, rfl, .inr ⟨target, rfl⟩⟩
        · exact hon _ _ _ h

theorem walk_unfollowed {links : Nat} {todo : List String}
    (h : d.walk true links at' todo = .ok ⟨l, some .directory⟩) :
    ∃ l' e, d.walk false links at' todo = .ok ⟨l', some e⟩ ∧ IsDirectoryOrLink e := by
  induction links generalizing at' todo with
  | zero => exact walkTo_unfollowed (fun _ _ _ hon => by cases hon) h
  | succ links ih =>
    refine walkTo_unfollowed (fun _ _ _ hon => ?_) h
    split at hon
    next => cases hon
    next hempty =>
      rw [if_neg hempty]
      exact ih hon

/-- A path that leads to a directory is one, or a link. -/
theorem linkEntry_of_follow {p : Path} (h : d.follow true p = .ok ⟨l, some .directory⟩) :
    ∃ l' e, d.linkEntry p = .ok (l', e) ∧ IsDirectoryOrLink e := by
  obtain ⟨l', e, hfollow, he⟩ :
      ∃ l' e, d.follow false p = .ok ⟨l', some e⟩ ∧ IsDirectoryOrLink e := by
    unfold follow at h ⊢
    split at h
    · cases h
    rw [if_neg ‹_›]
    split at h
    · cases h
    rw [if_neg ‹_›]
    split at h
    · cases h
    rw [if_neg ‹_›]
    exact walk_unfollowed h
  exact ⟨l', e, by rw [linkEntry, hfollow]; rfl, he⟩

end Disk

end ServiceCall
