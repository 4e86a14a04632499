import ServiceCall.Proofs.Disk.Attempts
/-!
# Ancestors of paths

A path contains another one if its components are the first ones of the other (`Path.Contains`). The
steps that a path starts with are those of a path that contains it (`Path.exists_ancestor`).
-/

namespace ServiceCall

namespace Path

variable {p q : Path}

/-! ## Parts of an ancestor -/

theorem split_joinParts {parts : List (List Char)} (hne : parts ≠ [])
    (hslash : ∀ part ∈ parts, '/' ∉ part) : split (joinParts parts) = parts := by
  induction parts with
  | nil => exact absurd rfl hne
  | cons part rest ih =>
    have hpart := split_of_not_mem (hslash part (.head _))
    cases rest with
    | nil => exact hpart
    | cons next more =>
      have hmore : next :: more ≠ [] := List.cons_ne_nil next more
      have hrest := ih hmore fun part hmem => hslash part (.tail _ hmem)
      have hjoin : joinParts (part :: next :: more) = part ++ '/' :: joinParts (next :: more) := rfl
      rw [hjoin, split_append_slash, hpart, hrest]
      rfl

theorem joinParts_prefix {parts more : List (List Char)} :
    joinParts parts <+: joinParts (parts ++ more) := by
  induction parts with
  | nil => exact List.nil_prefix
  | cons part rest ih =>
    cases rest with
    | nil =>
      cases more with
      | nil => exact List.prefix_refl _
      | cons next more => exact List.prefix_append ..
    | cons next rest =>
      rw [List.cons_append] at ih ⊢
      obtain ⟨tail, htail⟩ := ih
      exact ⟨tail, by simp [joinParts, ← htail]⟩

/-- What a filter keeps first it keeps of a list that ends with something it keeps. -/
theorem exists_of_prefix_filter {α : Type} {keep : α → Bool} {xs kept : List α}
    (h : kept <+: xs.filter keep) (hne : kept ≠ []) :
    ∃ front last back, xs = front ++ last :: back ∧ keep last = true ∧
      (front ++ [last]).filter keep = kept := by
  induction xs generalizing kept with
  | nil => exact absurd (List.prefix_nil.1 h) hne
  | cons x rest ih =>
    by_cases hx : keep x = true
    · rw [List.filter_cons_of_pos hx] at h
      obtain ⟨y, more, rfl⟩ := List.exists_cons_of_ne_nil hne
      obtain ⟨rfl, hmore⟩ := List.cons_prefix_cons.1 h
      by_cases hnil : more = []
      · exact ⟨[], y, rest, rfl, hx, by simp [hx, hnil]⟩
      · obtain ⟨front, last, back, rfl, hlast, hkept⟩ := ih hmore hnil
        exact ⟨y :: front, last, back, rfl, hlast, by rw [List.cons_append,
          List.filter_cons_of_pos hx, hkept]⟩
    · rw [List.filter_cons_of_neg hx] at h
      obtain ⟨front, last, back, rfl, hlast, hkept⟩ := ih h hne
      exact ⟨x :: front, last, back, rfl, hlast, by rw [List.cons_append,
        List.filter_cons_of_neg hx, hkept]⟩

/-- Only the first parts decide where a path starts, if the last one of them leads somewhere. -/
theorem start_append {front back : List (List Char)} {last : List Char} (hlast : isKept last = true) :
    start (front ++ [last] ++ back) = start (front ++ [last]) := by
  simp only [isKept, decide_eq_true_eq] at hlast
  cases front with
  | nil =>
    unfold start
    split <;> split <;> simp_all
  | cons first rest =>
    cases rest with
    | nil => exact start_cons_cons ..
    | cons second rest => exact start_cons_cons ..

theorem isAbsolute_iff (p : Path) : isAbsolute p = true ↔ start (split p.toList) = [.root] := by
  unfold isAbsolute
  cases hp : p.toList with
  | nil => decide
  | cons c rest =>
    by_cases hc : c = '/'
    · subst hc
      obtain ⟨part, parts, hsplit⟩ := List.exists_cons_of_ne_nil (split_ne_nil rest)
      simp [split, start, hsplit]
    · have hsplit : ∃ part parts, split (c :: rest) = (c :: part) :: parts := by
        rw [split, if_neg hc]
        split
        · exact ⟨_, _, rfl⟩
        · exact ⟨_, _, rfl⟩
      obtain ⟨part, parts, hsplit⟩ := hsplit
      refine iff_of_false (by simp [hc]) ?_
      rw [hsplit]
      unfold start
      split <;> simp_all

/-! ## Containing -/

/-- The path is the other one or leads to it, component by component. -/
def Contains (p q : Path) : Prop := p.components <+: q.components

instance (p q : Path) : Decidable (p.Contains q) :=
  inferInstanceAs (Decidable (p.components <+: q.components))

/-- What a path that contains another one has in common with it. -/
structure IsAncestor (q p : Path) : Prop where
  contains : q.Contains p
  base : ∀ wd, q.base wd = p.base wd
  text : q.toList <+: p.toList

/-- The steps that a path starts with lead to what one of its ancestors leads to. -/
theorem exists_ancestor {first : List String} (h : first <+: p.steps) (hne : first ≠ []) :
    ∃ q : Path, q.IsAncestor p ∧ q ≠ "" ∧ Disk.parts q = first := by
  obtain ⟨kept, hkept, rfl⟩ := List.prefix_map_iff.1 h
  have hne : kept ≠ [] := fun hnil => hne (by rw [hnil]; rfl)
  obtain ⟨front, last, back, hsplit, hlast, rfl⟩ := exists_of_prefix_filter hkept hne
  have hwhole : split p.toList = front ++ [last] ++ back := by
    rw [hsplit, List.append_assoc, List.singleton_append]
  have hslash : ∀ part ∈ front ++ [last], '/' ∉ part := fun part hpart =>
    not_mem_of_mem_split (s := p.toList) (hwhole ▸ List.mem_append_left back hpart)
  have hparts : split (joinParts (front ++ [last])) = front ++ [last] :=
    split_joinParts (by simp) hslash
  have hkept : last ≠ [] ∧ last ≠ ['.'] := by simpa [isKept] using hlast
  have hstart : start (split p.toList) = start (front ++ [last]) := by
    rw [hwhole, start_append hlast]
  refine ⟨String.ofList (joinParts (front ++ [last])), ⟨?_, fun wd => ?_, ?_⟩, ?_, ?_⟩
  · rw [Contains, components_eq, components_eq, String.toList_ofList, hparts, hstart, hwhole,
      @List.filterMap_append _ _ _ back, ← List.append_assoc]
    exact List.prefix_append ..
  · have habsolute : isAbsolute (String.ofList (joinParts (front ++ [last]))) = isAbsolute p := by
      rw [Bool.eq_iff_iff, isAbsolute_iff, isAbsolute_iff, String.toList_ofList, hparts, hstart]
    rw [base, base, habsolute]
  · rw [String.toList_ofList, ← joinParts_split p.toList, hwhole]
    exact joinParts_prefix
  · intro hempty
    have hnil : joinParts (front ++ [last]) = [] := by simpa using congrArg String.toList hempty
    rw [hnil, split] at hparts
    have hlast := congrArg List.getLast? hparts
    rw [List.getLast?_concat] at hlast
    exact hkept.1 (Option.some.inj hlast).symm
  · unfold Disk.parts
    rw [String.toList_ofList, hparts]
    simp only [List.getLast?_concat, hkept.1, hkept.2, decide_false, Bool.or_self, Bool.and_false,
      Bool.false_eq_true, if_false, List.append_nil]
    rfl

/-- An ancestor is refused only if the path is. -/
theorem IsAncestor.refusal? (h : q.IsAncestor p) (hp : p.refusal? = none) : q.refusal? = none := by
  unfold Path.refusal? at hp ⊢
  split at hp
  next => cases hp
  next hnul =>
    have hsize : q.length ≤ p.length := by
      obtain ⟨more, hmore⟩ := h.text
      obtain rfl : p = q ++ String.ofList more := by
        rw [← String.toList_inj, ← hmore]
        simp
      rw [String.length_append]
      exact Nat.le_add_right ..
    have hnone : ¬ q.toList.contains '\x00' := fun hmem =>
      hnul (List.contains_iff_mem.2 (h.text.subset (List.contains_iff_mem.1 hmem)))
    split at hp
    next => cases hp
    next hlong => rw [if_neg hnone, if_neg fun hq => hlong (hq.trans_le hsize)]

end Path

end ServiceCall
