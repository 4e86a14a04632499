import Mathlib.Data.List.Induction
import Mathlib.Data.List.Nodup
import ServiceCall.Proofs.Disk.Path
/-!
# Disks as trees

The table of a disk stands for a tree: every location occurs once, is made of names and lies in a
directory (`Disk.WellFormed`). Operations that put an entry in a directory keep a disk well-formed
(`Disk.WellFormed.set`), unless they put something else where a directory is.
-/

namespace ServiceCall

namespace Disk

/-- The table of a disk is a tree, and the working directory is one of its directories. -/
structure WellFormed (d : Disk) : Prop where
  nodup : (d.entries.map Prod.fst).Nodup
  nonempty : ∀ x ∈ d.entries, x.1 ≠ []
  names : ∀ x ∈ d.entries, ∀ n ∈ x.1, IsName n
  parents : ∀ x ∈ d.entries, d.lookup x.1.dropLast = some .directory
  workingDirectory : d.lookup d.workingDirectory = some .directory

/-! ## Tables -/

theorem find?_eq_some {t : List (Location × Entry)} (h : (t.map Prod.fst).Nodup) {l : Location}
    {e : Entry} : find? l t = some e ↔ (l, e) ∈ t := by
  induction t with
  | nil => simp [find?]
  | cons x rest ih =>
    rw [List.map_cons, List.nodup_cons] at h
    rw [find?]
    by_cases hx : x.1 = l
    · rw [if_pos hx]
      constructor
      · intro he
        obtain rfl := Option.some.inj he
        exact hx ▸ .head _
      · intro hmem
        obtain hmem | hmem := List.mem_cons.1 hmem
        · rw [← hmem]
        · exact absurd (List.mem_map.2 ⟨_, hmem, hx.symm⟩) h.1
    · rw [if_neg hx, ih h.2, List.mem_cons]
      refine ⟨.inr, fun hmem => hmem.resolve_left ?_⟩
      rintro rfl
      exact hx rfl

theorem map_put (l : Location) (e : Entry) (t : List (Location × Entry)) :
    (put l e t).map Prod.fst = t.map Prod.fst ∨
      (put l e t).map Prod.fst = t.map Prod.fst ++ [l] ∧ l ∉ t.map Prod.fst := by
  induction t with
  | nil => exact .inr ⟨rfl, List.not_mem_nil⟩
  | cons x rest ih =>
    rw [put]
    by_cases hx : x.1 = l
    · rw [if_pos hx]
      exact .inl (congrArg (· :: _) hx.symm)
    · rw [if_neg hx, List.map_cons, List.map_cons]
      obtain ih | ⟨ih, hnew⟩ := ih
      · exact .inl (congrArg _ ih)
      · refine .inr ⟨congrArg _ ih, ?_⟩
        rw [List.mem_cons, not_or]
        exact ⟨Ne.symm hx, hnew⟩

/-- The last entry that is put at a location is the one that counts. -/
theorem put_put (l : Location) (e f : Entry) (t : List (Location × Entry)) :
    put l f (put l e t) = put l f t := by
  induction t with
  | nil => simp [put]
  | cons x rest ih =>
    rw [put, put]
    by_cases hx : x.1 = l
    · rw [if_pos hx, if_pos hx, put, if_pos rfl]
    · rw [if_neg hx, if_neg hx, put, if_neg hx, ih]

theorem set_set (d : Disk) (l : Location) (e f : Entry) : (d.set l e).set l f = d.set l f := by
  simp only [set, put_put]

/-! ## Lookups -/

namespace WellFormed

variable {d : Disk} {l l' : Location} {e : Entry} {n : String}

theorem lookup_eq_some (h : d.WellFormed) (hl : l ≠ []) :
    d.lookup l = some e ↔ (l, e) ∈ d.entries := by
  rw [lookup, if_neg hl, find?_eq_some h.nodup]

theorem isName (h : d.WellFormed) (hl : d.lookup l = some e) (hn : n ∈ l) : IsName n := by
  have hne : l ≠ [] := List.ne_nil_of_mem hn
  exact h.names _ ((h.lookup_eq_some hne).1 hl) n hn

/-- What there is lies in a directory. -/
theorem lookup_parent (h : d.WellFormed) (hl : d.lookup (l ++ [n]) = some e) :
    d.lookup l = some .directory := by
  have hparent := h.parents _ ((h.lookup_eq_some (by simp)).1 hl)
  rwa [List.dropLast_concat] at hparent

theorem lookup_dropLast (h : d.WellFormed) (hl : d.lookup l = some .directory) :
    d.lookup l.dropLast = some .directory := by
  induction l using List.reverseRecOn with
  | nil => exact hl
  | append_singleton l n _ =>
    rw [List.dropLast_concat]
    exact h.lookup_parent hl

/-- Nothing is below what is not there or not a directory. -/
theorem lookup_below (h : d.WellFormed) (hl : d.lookup l ≠ some .directory) (hbelow : l <+: l')
    (hne : l ≠ l') : d.lookup l' = none := by
  obtain ⟨more, rfl⟩ := hbelow
  induction more using List.reverseRecOn with
  | nil => exact absurd (List.append_nil l).symm hne
  | append_singleton more n ih =>
    rw [← List.append_assoc]
    rw [Option.eq_none_iff_forall_ne_some]
    intro e he
    have hparent := h.lookup_parent he
    by_cases hmore : more = []
    · subst hmore
      rw [List.append_nil] at hparent
      exact hl hparent
    · rw [ih (by simpa using Ne.symm hmore)] at hparent
      cases hparent

end WellFormed

/-! ## Putting an entry in a directory -/

theorem lookup_set (d : Disk) {l : Location} (hl : l ≠ []) (e : Entry) (l' : Location) :
    (d.set l e).lookup l' = if l' = l then some e else d.lookup l' := by
  by_cases h : l' = l
  · rw [if_pos h, h, lookup_set_self d hl]
  · rw [if_neg h, lookup_set_of_ne d h]

/-- An entry can be put in a directory, except something else where there is a directory. -/
theorem WellFormed.set {d : Disk} (h : d.WellFormed) {l : Location} {n : String} {e : Entry}
    (hparent : d.lookup l = some .directory) (hn : IsName n)
    (hdirectory : d.lookup (l ++ [n]) = some .directory → e = .directory) :
    (d.set (l ++ [n]) e).WellFormed := by
  have hne : l ++ [n] ≠ [] := by simp
  have hnames : ∀ m ∈ l ++ [n], IsName m := by
    intro m hm
    obtain hm | hm := List.mem_append.1 hm
    · exact h.isName hparent hm
    · obtain rfl := List.mem_singleton.1 hm
      exact hn
  have hlocations {x : Location × Entry} (hx : x ∈ put (l ++ [n]) e d.entries) :
      x.1 = l ++ [n] ∨ ∃ y ∈ d.entries, x.1 = y.1 := by
    have hx := List.mem_map_of_mem (f := Prod.fst) hx
    obtain hput | ⟨hput, -⟩ := map_put (l ++ [n]) e d.entries
    · rw [hput, List.mem_map] at hx
      obtain ⟨y, hy, hxy⟩ := hx
      exact .inr ⟨y, hy, hxy.symm⟩
    · rw [hput, List.mem_append, List.mem_map, List.mem_singleton] at hx
      obtain ⟨y, hy, hxy⟩ | hx := hx
      · exact .inr ⟨y, hy, hxy.symm⟩
      · exact .inl hx
  have hkept {l' : Location} (hl' : d.lookup l' = some .directory) :
      (d.set (l ++ [n]) e).lookup l' = some .directory := by
    rw [lookup_set d hne]
    by_cases heq : l' = l ++ [n]
    · subst heq
      rw [if_pos rfl, hdirectory hl']
    · rw [if_neg heq, hl']
  constructor
  · obtain hput | ⟨hput, hnew⟩ := map_put (l ++ [n]) e d.entries
    · exact hput ▸ h.nodup
    · rw [Disk.set, hput]
      exact (List.perm_append_singleton _ _).nodup_iff.2 (List.nodup_cons.2 ⟨hnew, h.nodup⟩)
  · intro x hx
    obtain hx | ⟨y, hy, hx⟩ := hlocations hx
    · exact hx ▸ hne
    · exact hx ▸ h.nonempty y hy
  · intro x hx
    obtain hx | ⟨y, hy, hx⟩ := hlocations hx
    · exact hx ▸ hnames
    · exact hx ▸ h.names y hy
  · intro x hx
    obtain hx | ⟨y, hy, hx⟩ := hlocations hx
    · rw [hx, List.dropLast_concat]
      exact hkept hparent
    · rw [hx]
      exact hkept (h.parents y hy)
  · exact hkept h.workingDirectory

end Disk

end ServiceCall
