import Mathlib.Data.List.Infix
import ServiceCall.Build.Basic
/-!
# Lines that are not blank

What a report is read by: the lines between its line feeds, without the blank characters at their ends
and without those that are nothing but blank (`Text.inkedLines`). That carriage returns before line
feeds are no part of a line makes no difference to them (`Text.filter_trimRight_lines`), and they can be
told apart again when they are written below a heading (`Text.lines_heading`).
-/

/-- What holds of every character of some texts and of what stands between them holds of them joined. -/
theorem List.forall_mem_intercalate {α : Type} {P : α → Prop} {sep : List α} {xs : List (List α)}
    (hsep : ∀ x ∈ sep, P x) (h : ∀ s ∈ xs, ∀ x ∈ s, P x) : ∀ x ∈ sep.intercalate xs, P x := by
  induction xs with
  | nil => exact fun _ hx => absurd hx List.not_mem_nil
  | cons s xs ih =>
    obtain ⟨hs, hrest⟩ := List.forall_mem_cons.1 h
    cases xs with
    | nil => simpa using hs
    | cons t xs =>
      rw [List.intercalate_cons_cons, List.forall_mem_append, List.forall_mem_append]
      exact ⟨⟨hs, hsep⟩, ih hrest⟩

namespace ServiceCall.Text

/-! ## Words -/

/-- A text holds a word exactly if the word stands somewhere in it. -/
theorem holds_iff {word s : List Char} : holds word s = true ↔ word <:+: s := by
  rw [holds]
  induction s with
  | nil =>
    rw [before?, List.infix_nil]
    split
    next h => simpa using h
    next h => simpa using h
  | cons c s ih =>
    rw [before?, List.infix_cons_iff]
    split
    next h => exact iff_of_true rfl (.inl (List.isPrefixOf_iff_prefix.1 h))
    next h =>
      rw [List.isPrefixOf_iff_prefix] at h
      rw [Option.isSome_map, ih, or_iff_right h]

/-- What stands before a word that stands nowhere earlier. -/
theorem before?_append {word stem : List Char} (hword : word ≠ [])
    (h : ¬ word <:+: stem ++ word.dropLast) (rest : List Char) :
    before? word (stem ++ word ++ rest) = some stem := by
  induction stem with
  | nil =>
    obtain ⟨c, w, rfl⟩ := List.exists_cons_of_ne_nil hword
    rw [List.nil_append, List.cons_append, before?, if_pos]
    exact List.isPrefixOf_iff_prefix.2 (List.prefix_append (c :: w) rest)
  | cons c stem ih =>
    rw [List.cons_append, List.infix_cons_iff, not_or] at h
    have hnot : ¬ word <+: c :: (stem ++ word ++ rest) := fun hprefix => by
      refine h.1 (List.prefix_of_prefix_length_le hprefix ?_ ?_)
      · refine (List.cons_prefix_cons.2 ⟨rfl, ?_⟩)
        rw [List.append_assoc, List.prefix_append_right_inj]
        exact (List.dropLast_prefix word).trans (List.prefix_append word rest)
      · have hlength := List.length_pos_iff.2 hword
        simp only [List.length_cons, List.length_append, List.length_dropLast]
        omega
    rw [List.cons_append, List.cons_append, before?, if_neg (by rwa [List.isPrefixOf_iff_prefix]), ih h.2]
    rfl

/-- The characters of a kind at the start of a text end with the first one of another kind. -/
theorem takeWhile_append_of_stop {P : Char → Bool} {s rest : List Char} (h : ∀ c ∈ s, P c = true)
    (hrest : ∀ c ∈ rest.head?, P c = false) :
    (s ++ rest).takeWhile P = s ∧ (s ++ rest).dropWhile P = rest := by
  have hend : rest.takeWhile P = [] ∧ rest.dropWhile P = rest := by
    cases rest with
    | nil => exact ⟨rfl, rfl⟩
    | cons c rest =>
      have hc := hrest c rfl
      exact ⟨List.takeWhile_cons_of_neg (by simp [hc]), List.dropWhile_cons_of_neg (by simp [hc])⟩
  rw [List.takeWhile_append_of_pos h, List.dropWhile_append_of_pos h, hend.1, hend.2,
    List.append_nil]
  exact ⟨rfl, rfl⟩

/-- A text divides in one way into characters of a kind and a rest that does not start with one. -/
theorem append_unique {P : Char → Bool} {s t u v : List Char} (hs : ∀ c ∈ s, P c = true)
    (ht : ∀ c ∈ t, P c = true) (hu : ∀ c ∈ u.head?, P c = false) (hv : ∀ c ∈ v.head?, P c = false)
    (h : s ++ u = t ++ v) : s = t ∧ u = v := by
  obtain ⟨hstart, hrest⟩ := takeWhile_append_of_stop hs hu
  obtain ⟨hstart', hrest'⟩ := takeWhile_append_of_stop ht hv
  rw [← h] at hstart' hrest'
  exact ⟨hstart.symm.trans hstart', hrest.symm.trans hrest'⟩

/-! ## Blank characters at the end -/

theorem trimRight_cons (c : Char) (s : List Char) : trimRight (c :: s) =
    if trimRight s = [] then if isBlank c then [] else [c] else c :: trimRight s := by
  simp only [trimRight, List.reverse_cons, List.dropWhile_append, List.reverse_eq_nil_iff]
  cases s.reverse.dropWhile isBlank with
  | nil => cases hc : isBlank c <;> simp [hc]
  | cons d t => simp

theorem isPrefix_trimRight (s : List Char) : trimRight s <+: s := by
  rw [← List.reverse_suffix, trimRight, List.reverse_reverse]
  exact List.dropWhile_suffix _

/-- What is left does not end with a blank character. -/
theorem not_isBlank_getLast_trimRight {s : List Char} (h : trimRight s ≠ []) :
    isBlank ((trimRight s).getLast h) = false := by
  have hdrop : s.reverse.dropWhile isBlank ≠ [] := fun hnil => h (congrArg List.reverse hnil)
  have hhead := List.head_dropWhile_not isBlank hdrop
  simpa [trimRight] using hhead

theorem trimRight_append (s : List Char) {t : List Char} (ht : trimRight t = t) (hne : t ≠ []) :
    trimRight (s ++ t) = s ++ t := by
  have hink := not_isBlank_getLast_trimRight (s := t) (by rwa [ht])
  have hlast := List.dropLast_append_getLast hne
  simp only [ht] at hink
  rw [← hlast, ← List.append_assoc, trimRight_append_ink _ hink]

/-! ## Lines -/

/-- The lines of a text that are not blank, without the blank characters at their ends. -/
def inkedLines (s : List Char) : List (List Char) :=
  ((s.splitOn '\n').map trimRight).filter (· ≠ [])

theorem not_mem_of_mem_splitOn {s l : List Char} (h : l ∈ s.splitOn '\n') : '\n' ∉ l := by
  induction s generalizing l with
  | nil =>
    obtain rfl : l = [] := by simpa using h
    exact List.not_mem_nil
  | cons c s ih =>
    rw [List.splitOn_cons_eq_if_modifyHead] at h
    split at h
    next =>
      obtain rfl | h := List.mem_cons.1 h
      · exact List.not_mem_nil
      · exact ih h
    next hc =>
      obtain ⟨line, more, hsplit⟩ := List.exists_cons_of_ne_nil (List.splitOn_ne_nil '\n' s)
      rw [hsplit, List.modifyHead_cons] at h
      obtain rfl | h := List.mem_cons.1 h
      · have hline := ih (hsplit ▸ List.mem_cons_self)
        rw [List.mem_cons, not_or]
        exact ⟨fun hfeed => hc (beq_iff_eq.2 hfeed.symm), hline⟩
      · exact ih (hsplit ▸ List.mem_cons_of_mem _ h)

/-- A line that is not blank has no line feed in it and something else than a blank at its end. -/
theorem of_mem_inkedLines {s l : List Char} (h : l ∈ inkedLines s) :
    '\n' ∉ l ∧ ∃ hl : l ≠ [], isBlank (l.getLast hl) = false := by
  obtain ⟨hmem, hl⟩ := List.mem_filter.1 h
  obtain ⟨line, hline, rfl⟩ := List.mem_map.1 hmem
  have hl := of_decide_eq_true hl
  exact ⟨fun hfeed => not_mem_of_mem_splitOn hline ((isPrefix_trimRight line).subset hfeed), hl,
    not_isBlank_getLast_trimRight hl⟩

theorem splitOn_append_feed (s t : List Char) :
    (s ++ '\n' :: t).splitOn '\n' = s.splitOn '\n' ++ t.splitOn '\n' := by
  induction s with
  | nil =>
    rw [List.nil_append, List.splitOn_cons_eq_if_modifyHead, if_pos (beq_self_eq_true _)]
    rfl
  | cons c s ih =>
    obtain ⟨line, more, hsplit⟩ := List.exists_cons_of_ne_nil (List.splitOn_ne_nil '\n' s)
    rw [List.cons_append, List.splitOn_cons_eq_if_modifyHead, ih,
      List.splitOn_cons_eq_if_modifyHead c s, hsplit]
    split <;> rfl

/-- Of texts with a line feed between them the lines of the first come first. -/
theorem inkedLines_append_feed (s t : List Char) :
    inkedLines (s ++ '\n' :: t) = inkedLines s ++ inkedLines t := by
  rw [inkedLines, splitOn_append_feed, List.map_append, List.filter_append]
  rfl

/-- A line that is not blank is the only one of its own text. -/
theorem inkedLines_of_mem {s l : List Char} (h : l ∈ inkedLines s) : inkedLines l = [l] := by
  obtain ⟨hfeed, hne, hink⟩ := of_mem_inkedLines h
  have hsplit : l.splitOn '\n' = [l] := by
    have hsplit := [l].splitOn_intercalate '\n' (by simpa using hfeed) (by simp)
    rwa [List.intercalate_singleton] at hsplit
  have htrim : trimRight l = l := by
    have htrim := trimRight_append_ink l.dropLast hink
    rwa [List.dropLast_append_getLast hne] at htrim
  rw [inkedLines, hsplit, List.map_singleton, htrim, List.filter_singleton]
  simp [hne]

theorem lines_feed (s : List Char) : lines ('\n' :: s) = [] :: lines s := by
  rw [lines.eq_def]
  rfl

theorem lines_return_feed (s : List Char) : lines ('\r' :: '\n' :: s) = [] :: lines s := by
  rw [lines.eq_def]
  rfl

theorem lines_singleton {c : Char} (hc : c ≠ '\n') : lines [c] = [[c]] := by
  rw [lines.eq_def]
  simp [hc]

theorem lines_ne_nil {s : List Char} (hs : s ≠ []) : lines s ≠ [] := by
  rw [lines.eq_def]
  split
  next => exact absurd rfl hs
  next c s =>
    split_ifs
    · simp
    · split <;> simp
    · split <;> simp

/-- A character in front of a text is the first of its first line. -/
theorem lines_cons {c : Char} {s : List Char} (hc : c ≠ '\n') (hs : s ≠ [])
    (hend : ¬ (c = '\r' ∧ s.head? = some '\n')) : lines (c :: s) = (lines s).modifyHead (c :: ·) := by
  obtain ⟨d, t, rfl⟩ := List.exists_cons_of_ne_nil hs
  obtain ⟨line, more, hlines⟩ := List.exists_cons_of_ne_nil (lines_ne_nil hs)
  rw [lines.eq_def]
  simp only [if_neg hc, if_neg hend, hlines, List.modifyHead_cons]

/-- Apart from blank characters at their ends, the lines are what stands between the line feeds; after
the last one there may be nothing. -/
theorem map_trimRight_splitOn (s : List Char) :
    (s.splitOn '\n').map trimRight = (lines s).map trimRight ∨
      (s.splitOn '\n').map trimRight = (lines s).map trimRight ++ [[]] := by
  match s with
  | [] => exact .inr rfl
  | c :: s =>
    rw [List.splitOn_cons_eq_if_modifyHead]
    by_cases hc : c = '\n'
    · subst hc
      rw [if_pos (beq_self_eq_true _), lines_feed]
      exact (map_trimRight_splitOn s).imp (congrArg ([] :: ·)) (congrArg ([] :: ·))
    rw [if_neg fun h => hc (beq_iff_eq.1 h)]
    by_cases hend : c = '\r' ∧ s.head? = some '\n'
    · obtain ⟨rfl, hhead⟩ := hend
      obtain ⟨rest, rfl⟩ : ∃ rest, s = '\n' :: rest := List.head?_eq_some_iff.1 hhead
      rw [lines_return_feed, List.splitOn_cons_eq_if_modifyHead, if_pos (beq_self_eq_true _)]
      exact (map_trimRight_splitOn rest).imp (congrArg ([] :: ·)) (congrArg ([] :: ·))
    by_cases hs : s = []
    · subst hs
      rw [lines_singleton hc]
      exact .inl rfl
    have hmap (ls : List (List Char)) : (ls.modifyHead (c :: ·)).map trimRight =
        (ls.map trimRight).modifyHead fun t =>
          if t = [] then if isBlank c then [] else [c] else c :: t := by
      cases ls with
      | nil => rfl
      | cons l ls => simp [trimRight_cons]
    rw [lines_cons hc hs hend, hmap, hmap]
    obtain ⟨line, more, hlines⟩ := List.exists_cons_of_ne_nil (lines_ne_nil hs)
    refine (map_trimRight_splitOn s).imp (congrArg _) fun h => ?_
    rw [h, hlines]
    rfl
termination_by s.length

theorem filter_trimRight_lines (s : List Char) :
    ((lines s).map trimRight).filter (!·.isEmpty) = inkedLines s := by
  have hempty : (fun l : List Char => !l.isEmpty) = fun l => decide (l ≠ []) := by
    funext l
    cases l <;> rfl
  rw [inkedLines, hempty]
  obtain h | h := map_trimRight_splitOn s
  · rw [h]
  · rw [h, List.filter_append]
    exact (List.append_nil _).symm

/-! ## Lines below a heading -/

theorem lines_append_feed {l : List Char} (hfeed : '\n' ∉ l) (hend : l.getLast? ≠ some '\r')
    (s : List Char) : lines (l ++ '\n' :: s) = l :: lines s := by
  induction l with
  | nil => exact lines_feed s
  | cons c l ih =>
    obtain ⟨hc, hl⟩ := not_or.1 (fun h => hfeed (List.mem_cons.2 h))
    have hreturn : ¬ (c = '\r' ∧ (l ++ '\n' :: s).head? = some '\n') := by
      rintro ⟨rfl, hhead⟩
      cases l with
      | nil => exact hend rfl
      | cons d l => exact hl (Option.some.inj hhead ▸ List.mem_cons_self)
    have hlast : l.getLast? ≠ some '\r' := by
      cases l with
      | nil => simp
      | cons d l => simpa using hend
    rw [List.cons_append, lines_cons (Ne.symm hc) (by simp) hreturn, ih hl hlast, List.modifyHead_cons]

theorem lines_of_not_mem {l : List Char} (hl : l ≠ []) (hfeed : '\n' ∉ l) : lines l = [l] := by
  induction l with
  | nil => exact absurd rfl hl
  | cons c l ih =>
    obtain ⟨hc, hrest⟩ := not_or.1 (fun h => hfeed (List.mem_cons.2 h))
    by_cases hnil : l = []
    · subst hnil
      exact lines_singleton (Ne.symm hc)
    · have hreturn : ¬ (c = '\r' ∧ l.head? = some '\n') :=
        fun h => hrest (List.mem_of_mem_head? (Option.mem_def.2 h.2))
      rw [lines_cons (Ne.symm hc) hnil hreturn, ih hnil hrest, List.modifyHead_cons]

theorem lines_append_return_feed {l : List Char} (hfeed : '\n' ∉ l) (s : List Char) :
    lines (l ++ '\r' :: '\n' :: s) = l :: lines s := by
  induction l with
  | nil => exact lines_return_feed s
  | cons c l ih =>
    obtain ⟨hc, hl⟩ := not_or.1 (fun h => hfeed (List.mem_cons.2 h))
    have hreturn : ¬ (c = '\r' ∧ (l ++ '\r' :: '\n' :: s).head? = some '\n') := by
      rintro ⟨-, hhead⟩
      cases l with
      | nil => exact absurd (Option.some.inj hhead) (by decide)
      | cons d l => exact hl (Option.some.inj hhead ▸ List.mem_cons_self)
    rw [List.cons_append, lines_cons (Ne.symm hc) (by simp) hreturn, ih hl, List.modifyHead_cons]

/-- Lines that are written one below the other are read back, if each of them is. -/
theorem lines_intercalate_of {br : List Char} {ls : List (List Char)}
    (h : ∀ l ∈ ls, lines l = [l] ∧ ∀ s, lines (l ++ br ++ s) = l :: lines s) :
    lines (br.intercalate ls) = ls := by
  induction ls with
  | nil => rfl
  | cons l ls ih =>
    obtain ⟨⟨hl, hbreak⟩, hrest⟩ := List.forall_mem_cons.1 h
    cases ls with
    | nil => rwa [List.intercalate_singleton]
    | cons l' ls => rw [List.intercalate_cons_cons, hbreak, ih hrest]

/-- Lines that are written one below the other are read back, if none is empty or has a line feed in it
or a carriage return at its end. -/
theorem lines_intercalate {ls : List (List Char)}
    (h : ∀ l ∈ ls, l ≠ [] ∧ '\n' ∉ l ∧ l.getLast? ≠ some '\r') :
    lines (['\n'].intercalate ls) = ls := by
  refine lines_intercalate_of fun l hl => ?_
  obtain ⟨hne, hfeed, hend⟩ := h l hl
  refine ⟨lines_of_not_mem hne hfeed, fun s => ?_⟩
  rw [List.append_assoc, List.singleton_append]
  exact lines_append_feed hfeed hend s

/-- Below a heading the lines that are not blank can be told apart. -/
theorem lines_heading {heading : List Char} (hfeed : '\n' ∉ heading)
    (hend : heading.getLast? ≠ some '\r') (s : List Char) :
    lines (heading ++ '\n' :: ['\n'].intercalate (inkedLines s)) = heading :: inkedLines s := by
  rw [lines_append_feed hfeed hend, lines_intercalate]
  intro l hl
  obtain ⟨hfeed, hne, hink⟩ := of_mem_inkedLines hl
  refine ⟨hne, hfeed, fun hreturn => ?_⟩
  rw [List.getLast?_eq_some_getLast hne, Option.some.injEq] at hreturn
  rw [hreturn] at hink
  cases hink

end ServiceCall.Text
