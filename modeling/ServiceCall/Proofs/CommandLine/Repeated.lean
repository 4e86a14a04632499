import Mathlib.Data.List.Flatten
import ServiceCall.Proofs.CommandLine.Reading
/-!
# Options that are repeated

An option that may be given more than once has the values of the innermost level that gives it, in the
order in which they are written there (`Collects.innermost`). These are all its values exactly if no two
levels give it (`Collects.all_iff`): on a command line with the option in front of a command and behind it
the values in front are left out (`exists_left_out`).
-/

namespace ServiceCall.CommandLine

variable {a : Argument} {levels : List (Level × List Occurrence)} {gs : List Given} {c : Command}

/-- The texts that are written for an argument at the levels that have any, the outermost first. -/
def textsByLevel (a : Argument) (levels : List (Level × List Occurrence)) : List (List String) :=
  (levels.map fun x => textsOf a x.2).filter (· ≠ [])

/-- Texts are collected from what is written for an argument. -/
structure Collects (a : Argument) (levels : List (Level × List Occurrence)) (ts : List String) :
    Prop where
  /-- They are those of the innermost level that has any. -/
  innermost : ts = (textsByLevel a levels).getLast?.getD []
  /-- They are all that is written exactly if no two levels have any. -/
  all_iff : ts = textsOf a (levels.flatMap (·.2)) ↔ (textsByLevel a levels).length ≤ 1

/-- The last of some lists that are not empty is all of them exactly if there are no two. -/
theorem getLast?_eq_flatten_iff {α : Type} {xss : List (List α)} (h : ∀ xs ∈ xss, xs ≠ []) :
    xss.getLast?.getD [] = xss.flatten ↔ xss.length ≤ 1 := by
  rcases List.eq_nil_or_concat xss with rfl | ⟨before, last, rfl⟩
  · simp
  · have hnil : before.flatten = [] ↔ before = [] := by
      refine ⟨fun hflat => ?_, fun hnil => by rw [hnil]; rfl⟩
      cases before with
      | nil => rfl
      | cons x rest =>
        rw [List.flatten_cons, List.append_eq_nil_iff] at hflat
        exact absurd hflat.1 (h x (by simp))
    simp [List.flatten_append, hnil]

theorem textsOf_flatMap (a : Argument) (levels : List (Level × List Occurrence)) :
    textsOf a (levels.flatMap (·.2)) = (textsByLevel a levels).flatten := by
  rw [textsByLevel, List.flatten_filter_ne_nil]
  induction levels with
  | nil => rfl
  | cons x levels ih => simp [ih]

theorem Asks.texts_eq (ha : a.form = .text ∨ a.form = .path) (h : Asks levels gs c) :
    gs.map (·.texts a) = levels.map fun x => textsOf a x.2 := by
  induction h with
  | inner h hc => simp [texts_of_reads ha h.reads]
  | outer h hs ih => simp [texts_of_reads ha h.reads, ih]

theorem Asks.collects (ha : a.form = .text ∨ a.form = .path) (h : Asks levels gs c) :
    Collects a levels (innermost gs a) := by
  have hinnermost : innermost gs a = (textsByLevel a levels).getLast?.getD [] := by
    rw [innermost, h.texts_eq ha, textsByLevel, List.getLast?_filter]
    congr 3
    funext xs
    cases xs <;> rfl
  refine ⟨hinnermost, ?_⟩
  rw [hinnermost, textsOf_flatMap]
  exact getLast?_eq_flatten_iff fun xs hxs => by simpa using (List.mem_filter.1 hxs).2

/-- For every command line that is read, wherever its options stand. Its words are a command line in just
one way. The include paths, as texts, and the generator's arguments are those of the innermost level that
has any, in order, and are all that are written if and only if no two levels have any. -/
theorem collects_of_parse {words : List String} {l : CommandLine} (h : parse words = .ok l) :
    ∃ levels includes, (∀ levels', Line words levels' ↔ levels' = levels) ∧
      l.includePaths = includes.map Path.ofText ∧ Collects .includePath levels includes ∧
      Collects .generatorArg levels l.generatorArgs := by
  obtain ⟨levels, gs, hline, hasks, hincludes, harguments⟩ := exists_line_of_parse h
  refine ⟨levels, _, fun levels' => ⟨fun h' => h'.unique hline, fun he => he ▸ hline⟩, hincludes,
    hasks.collects (.inr rfl), ?_⟩
  rw [harguments]
  exact hasks.collects (.inl rfl)

/-- Include paths and an argument of the generator behind the innermost command, in every form. -/
def gathered : List String :=
  ["d.wsdl", "list", "interfaces", "-Ia", "--include=b", "--generator-arg", "-x", "-vI", "c"]

/-- Given at one level, they are all there. -/
theorem collects_gathered : ∃ l, parse gathered = .ok l ∧ l.includePaths = ["a", "b", "c"] ∧
    l.generatorArgs = ["-x"] ∧ ∃ levels includes, (∀ levels', Line gathered levels' ↔ levels' = levels) ∧
      l.includePaths = includes.map Path.ofText ∧ Collects .includePath levels includes ∧
      Collects .generatorArg levels l.generatorArgs := by
  obtain ⟨l, hl⟩ : ∃ l, parse gathered = .ok l := Except.exists_of_isOk (by decide +kernel)
  have hgiven : (parse gathered).toOption.map (fun l => (l.includePaths, l.generatorArgs)) =
      some (["a", "b", "c"], ["-x"]) := by decide +kernel
  rw [hl] at hgiven
  obtain ⟨hincludes, harguments⟩ := Prod.mk.inj (Option.some.inj hgiven)
  exact ⟨l, hl, hincludes, harguments, collects_of_parse hl⟩

/-- An include path in front of a command and one behind it. -/
def parted : List String := ["-I", "a", "d.wsdl", "list", "-I", "b", "interfaces"]

/-- What is written at its levels. -/
def partedLevels : List (Level × List Occurrence) :=
  [(.program, [(.includePath, some "a"), (.address, some "d.wsdl")]),
    (.list, [(.includePath, some "b")]), (.interfaces, [])]

theorem line_parted : Line parted partedLevels := by
  have hflag (l : Level) (hl : l.short? 'I' = some .includePath) :
      Flags l "-I" [] (.wanting .includePath) := .letters (.wanting hl (by decide))
  have hbare {w : String} (hw : w.toList.head? ≠ some '-') : IsBare w := .inr hw
  refine .mk (.word (.flags (hflag .program rfl)) (.word (.value (.inr (hbare (by decide))))
    (.word (.position (hbare (by decide)) (by decide) rfl) (.command (m := .list) (by decide)
      (.word (.flags (hflag .list rfl)) (.word (.value (.inr (hbare (by decide))))
        (.command (m := .interfaces) (by decide) (.done (by simp)))))))))

/-- The one in front is left out. -/
theorem exists_left_out : ∃ l, parse parted = .ok l ∧ Line parted partedLevels ∧
    textsOf .includePath (partedLevels.flatMap (·.2)) = ["a", "b"] ∧ l.includePaths = ["b"] := by
  obtain ⟨l, hl⟩ : ∃ l, parse parted = .ok l := Except.exists_of_isOk (by decide +kernel)
  have hgiven : (parse parted).toOption.map (·.includePaths) = some ["b"] := by decide +kernel
  rw [hl] at hgiven
  exact ⟨l, hl, line_parted, rfl, Option.some.inj hgiven⟩

end ServiceCall.CommandLine
