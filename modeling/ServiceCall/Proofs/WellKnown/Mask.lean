import Mathlib.Data.List.Basic
import ServiceCall.WellKnown.FieldMask
/-!
# Field masks are read back from their texts

A path in camel case is read as one in snake case that has the same camel case
(`FieldMask.exists_toSnake?`), and the parts of a text put together again are the text
(`FieldMask.joined_parts`). So the text of a mask is read as a mask that has the same text again
(`FieldMask.exists_read?`), if no path in it is written as nothing: such a path would leave no trace.
-/

namespace ServiceCall.FieldMask

/-! ## Camel case -/

theorem exists_letter {first : Nat} {c : Char} (hl : first ≤ c.toNat) (hh : c.toNat ≤ first + 25) :
    ∃ k : Fin 26, c = Char.ofNat (first + k) :=
  ⟨⟨c.toNat - first, by omega⟩, by rw [Nat.add_sub_cancel' hl, Char.ofNat_toNat]⟩

theorem toUpper_toLower {c : Char} (h : isUpper c = true) :
    isLower c.toLower = true ∧ c.toLower.toUpper = c := by
  simp only [isUpper, Bool.and_eq_true, decide_eq_true_eq] at h
  obtain ⟨k, rfl⟩ := @exists_letter 65 _ h.1 h.2
  revert k
  decide

theorem isUpper_toUpper {c : Char} (h : isLower c = true) : isUpper c.toUpper = true := by
  simp only [isLower, Bool.and_eq_true, decide_eq_true_eq] at h
  obtain ⟨k, rfl⟩ := @exists_letter 97 _ h.1 h.2
  revert k
  decide

/-- Camel case has no underscores. -/
theorem not_mem_toCamel? {path camel : List Char} (h : toCamel? path = some camel) :
    '_' ∉ camel := by
  have hcons {c : Char} {tail : Option (List Char)} {camel : List Char} (hc : c ≠ '_')
      (ih : ∀ {more}, tail = some more → '_' ∉ more) (h : tail.map (c :: ·) = some camel) :
      '_' ∉ camel := by
    obtain ⟨more, hmore, rfl⟩ := Option.map_eq_some_iff.1 h
    exact List.not_mem_cons_of_ne_of_not_mem hc.symm (ih hmore)
  fun_induction toCamel? path generalizing camel with
  | case1 | case2 =>
    obtain rfl := Option.some.inj h
    exact List.not_mem_nil
  | case3 rest ih => exact hcons (by decide) ih h
  | case4 c rest hdot hlower ih =>
    have hupper : c.toUpper ≠ '_' := fun he => absurd (he ▸ isUpper_toUpper hlower) (by decide)
    exact hcons hupper ih h
  | case5 | case6 => cases h
  | case7 c rest hc hupper ih => exact hcons hc ih h

/-- A path without underscores is the camel case of one in snake case. -/
theorem exists_toSnake? {camel : List Char} (h : '_' ∉ camel) :
    ∃ snake, toSnake? camel = some snake ∧ toCamel? snake = some camel := by
  induction camel with
  | nil => exact ⟨[], rfl, by rw [toCamel?]⟩
  | cons c rest ih =>
    obtain ⟨hc, hrest⟩ := List.ne_and_not_mem_of_not_mem_cons h
    obtain ⟨snake, hsnake, hcamel⟩ := ih hrest
    by_cases hupper : isUpper c = true
    · obtain ⟨hlower, hback⟩ := toUpper_toLower hupper
      have hdot : c.toLower ≠ '.' := fun he => absurd (he ▸ hlower) (by decide)
      refine ⟨'_' :: c.toLower :: snake, by simp [toSnake?, hsnake, Ne.symm hc, hupper], ?_⟩
      rw [toCamel? , if_pos hlower, hcamel, hback, Option.map_some]
      exact hdot
    · refine ⟨c :: snake, by simp [toSnake?, hsnake, Ne.symm hc, hupper], ?_⟩
      rw [toCamel?, if_neg hupper, hcamel, Option.map_some]
      exact Ne.symm hc

/-! ## Parts -/

/-- The text of paths in camel case, none of them empty. -/
def joined : List (List Char) → List Char
  | [] => []
  | first :: rest => first ++ rest.flatMap (',' :: ·)

theorem parts_ne_nil (s : List Char) : parts s ≠ [] := by
  cases s with
  | nil => simp [parts]
  | cons c rest =>
    rw [parts]
    split
    · simp
    · split <;> simp

/-- The parts of a text put together again are the text. -/
theorem joined_parts (s : List Char) : joined (parts s) = s := by
  induction s with
  | nil => rfl
  | cons c rest ih =>
    rw [parts]
    cases hparts : parts rest with
    | nil => exact absurd hparts (parts_ne_nil rest)
    | cons part more =>
      rw [hparts, joined] at ih
      split_ifs with hc
      · rw [joined, List.nil_append, List.flatMap_cons, List.cons_append, ih, hc]
      · rw [joined, List.cons_append, ih]

theorem mem_joined {camels : List (List Char)} {camel : List Char} {c : Char} (h : camel ∈ camels)
    (hc : c ∈ camel) : c ∈ joined camels := by
  cases camels with
  | nil => cases h
  | cons first rest =>
    obtain rfl | h := List.mem_cons.1 h
    · exact List.mem_append_left _ hc
    · exact List.mem_append_right _ (List.mem_flatMap.2 ⟨camel, h, .tail _ hc⟩)

/-- The paths of parts without underscores. -/
theorem exists_mapM_toSnake? {camels : List (List Char)} (h : ∀ camel ∈ camels, '_' ∉ camel) :
    ∃ paths : List String,
      camels.mapM (fun part => (toSnake? part).map String.ofList) = some paths ∧
        List.Forall₂ (fun path camel => toCamel? path.toList = some camel) paths camels := by
  induction camels with
  | nil => exact ⟨[], rfl, .nil⟩
  | cons camel rest ih =>
    obtain ⟨snake, hsnake, hcamel⟩ := exists_toSnake? (h camel List.mem_cons_self)
    obtain ⟨paths, hpaths, hrest⟩ := ih fun part hpart => h part (.tail _ hpart)
    refine ⟨String.ofList snake :: paths, ?_, .cons (by rwa [String.toList_ofList]) hrest⟩
    rw [List.mapM_cons, hsnake, hpaths]
    rfl

/-- The text with one more path. -/
def addPath (written : List Char) (path : String) : Option (List Char) :=
  (toCamel? path.toList).map fun camel => if written.isEmpty then camel else written ++ ',' :: camel

theorem text?_eq (paths : List String) :
    text? paths = (paths.foldlM addPath []).map String.ofList := by
  have hadd : addPath = fun (written : List Char) (path : String) => do
      let camel ← toCamel? path.toList
      return if written.isEmpty then camel else written ++ ',' :: camel := by
    funext written path
    rw [addPath]
    cases toCamel? path.toList <;> rfl
  rw [hadd, text?]

/-- Texts of paths are put together one after the other. -/
theorem foldlM_addPath {paths : List String} {camels : List (List Char)}
    (h : List.Forall₂ (fun path camel => toCamel? path.toList = some camel) paths camels)
    (hcamels : [] ∉ camels) {written : List Char} (hwritten : written ≠ []) :
    paths.foldlM addPath written = some (written ++ camels.flatMap (',' :: ·)) := by
  induction h generalizing written with
  | nil => simp
  | @cons path camel paths camels hpath _ ih =>
    have hadd : addPath written path = some (written ++ ',' :: camel) := by
      rw [addPath, hpath, Option.map_some, if_neg (by simpa using hwritten)]
    rw [List.foldlM_cons, hadd, Option.bind_eq_bind, Option.bind_some,
      ih (List.not_mem_of_not_mem_cons hcamels) (by simp), List.flatMap_cons, List.append_assoc]

/-- The text of paths that are written as something. -/
theorem text?_of_forall₂ {paths : List String} {camels : List (List Char)}
    (h : List.Forall₂ (fun path camel => toCamel? path.toList = some camel) paths camels)
    (hcamels : [] ∉ camels) : text? paths = some (String.ofList (joined camels)) := by
  rw [text?_eq]
  cases h with
  | nil => rfl
  | @cons path camel paths camels hpath hrest =>
    have hfirst : camel ≠ [] := fun he => hcamels (he ▸ List.mem_cons_self)
    have hadd : addPath [] path = some camel := by
      rw [addPath, hpath, Option.map_some, if_pos List.isEmpty_nil]
    rw [List.foldlM_cons, hadd, Option.bind_eq_bind, Option.bind_some,
      foldlM_addPath hrest (List.not_mem_of_not_mem_cons hcamels) hfirst, Option.map_some, joined]

/-- The text of paths has no underscores. -/
theorem not_mem_foldlM {paths : List String} {written text : List Char}
    (hwritten : '_' ∉ written) (h : paths.foldlM addPath written = some text) : '_' ∉ text := by
  induction paths generalizing written with
  | nil =>
    obtain rfl := Option.some.inj h
    exact hwritten
  | cons path rest ih =>
    rw [List.foldlM_cons, Option.bind_eq_bind] at h
    obtain ⟨next, hnext, h⟩ := Option.bind_eq_some_iff.1 h
    obtain ⟨camel, hcamel, rfl⟩ := Option.map_eq_some_iff.1 hnext
    refine ih ?_ h
    have hnot := not_mem_toCamel? hcamel
    split_ifs
    · exact hnot
    · simpa [hwritten] using hnot

/-- The text of a mask in which no path is written as nothing is read as a mask with that text. -/
theorem exists_read? {paths : List String} {t : String} (h : text? paths = some t)
    (hparts : t.toList = [] ∨ [] ∉ parts t.toList) :
    ∃ paths', read? t = some paths' ∧ text? paths' = some t := by
  rw [text?_eq] at h
  obtain ⟨text, htext, rfl⟩ := Option.map_eq_some_iff.1 h
  rw [String.toList_ofList] at hparts
  have hunderscore := not_mem_foldlM List.not_mem_nil htext
  obtain rfl | hparts := hparts
  · exact ⟨[], rfl, rfl⟩
  obtain ⟨paths', hread, hcamels⟩ : ∃ paths' : List String,
      (parts text).mapM (fun part => (toSnake? part).map String.ofList) = some paths' ∧
        List.Forall₂ (fun path camel => toCamel? path.toList = some camel) paths' (parts text) := by
    refine exists_mapM_toSnake? fun part hpart hc => hunderscore ?_
    exact joined_parts text ▸ mem_joined hpart hc
  have hfilter : (parts text).filter (!·.isEmpty) = parts text :=
    List.filter_eq_self.2 fun part hpart => by
      simpa using fun he : part = [] => hparts (he ▸ hpart)
  refine ⟨paths', by rw [read?, String.toList_ofList, hfilter, hread], ?_⟩
  rw [text?_of_forall₂ hcamels hparts, joined_parts]

end ServiceCall.FieldMask
