import Mathlib.Data.List.Nodup
import ServiceCall.CommandLine.Basic
import ServiceCall.Proofs.Basic.Except
/-!
# What is written on a command line

The grammar of command lines: `Line words levels` says that the words are a command line of these
levels, the outermost first, each with the arguments that are written at it. A word is an option, an
option's value, two hyphens, a position, or a command (`Word`, `Words`). The grammar knows nothing of
what the values are or of which arguments go together.

The words leave no choice (`Line.unique`), and a command line that is read is one
(`exists_line_of_parse`): at every level just what is written there has been read, in order, and what is
asked for is asked for by the innermost level (`Asks`).
-/

namespace ServiceCall.CommandLine

/-- An argument as it is written, with the text of its value if it has one. -/
abbrev Occurrence := Argument × Option String

/-- The texts that are written for an argument, in order. -/
def textsOf (a : Argument) (os : List Occurrence) : List String :=
  os.filterMap fun o => if o.1 = a then o.2 else none

@[simp]
theorem textsOf_append (a : Argument) (os os' : List Occurrence) :
    textsOf a (os ++ os') = textsOf a os ++ textsOf a os' := List.filterMap_append

/-! ## Words -/

/-- What a word may be. -/
inductive Stage where
  /-- An option, a position or a command. -/
  | free
  /-- The value of an option. -/
  | wanting (a : Argument)
  /-- A position, as two hyphens have gone before. -/
  | trailing

/-- A word that is no option: it does not start with a hyphen, or it is one. -/
def IsBare (w : String) : Prop := w = "-" ∨ w.toList.head? ≠ some '-'

/-- A run of letters behind one hyphen, and what the next word may be. The value of an option is the
rest of the run, without an equals sign in front, or else the next word. -/
inductive Letters (l : Level) : List Char → List Occurrence → Stage → Prop
  | nil : Letters l [] [] .free
  | mark {c : Char} {a : Argument} {cs : List Char} {os : List Occurrence} {s : Stage}
    (h : l.short? c = some a) (ha : a.form = .mark) (hs : Letters l cs os s) :
    Letters l (c :: cs) ((a, none) :: os) s
  | wanting {c : Char} {a : Argument} (h : l.short? c = some a) (ha : a.form ≠ .mark) :
    Letters l [c] [] (.wanting a)
  | equals {c : Char} {a : Argument} {v : List Char} (h : l.short? c = some a)
    (ha : a.form ≠ .mark) : Letters l (c :: '=' :: v) [(a, some (String.ofList v))] .free
  | attached {c d : Char} {a : Argument} {v : List Char} (h : l.short? c = some a)
    (ha : a.form ≠ .mark) (hd : d ≠ '=') :
    Letters l (c :: d :: v) [(a, some (String.ofList (d :: v)))] .free

/-- A word of options, and what the next word may be. -/
inductive Flags (l : Level) : String → List Occurrence → Stage → Prop
  | mark {name : String} {a : Argument} (h : l.long? name = some a) (ha : a.form = .mark) :
    Flags l ("--" ++ name) [(a, none)] .free
  | wanting {name : String} {a : Argument} (h : l.long? name = some a) (ha : a.form ≠ .mark) :
    Flags l ("--" ++ name) [] (.wanting a)
  | attached {name v : String} {a : Argument} (h : l.long? name = some a) (ha : a.form ≠ .mark) :
    Flags l ("--" ++ name ++ "=" ++ v) [(a, some v)] .free
  | letters {c : Char} {cs : List Char} {os : List Occurrence} {s : Stage}
    (h : Letters l (c :: cs) os s) : Flags l (String.ofList ('-' :: c :: cs)) os s

/-- How many positions are filled when one more is. -/
def filled (a : Argument) (n : Nat) : Nat := if a.isRepeatable then n else n + 1

/-- A word that does not leave the level: what is written by it, how many positions are filled before
and after it, and what it and the next word may be. -/
inductive Word (l : Level) : Nat → Stage → String → List Occurrence → Nat → Stage → Prop
  | flags {n : Nat} {w : String} {os : List Occurrence} {s : Stage} (h : Flags l w os s) :
    Word l n .free w os n s
  | value {n : Nat} {a : Argument} {w : String} (h : a.takesAnything = true ∨ IsBare w) :
    Word l n (.wanting a) w [(a, some w)] n .free
  | position {n : Nat} {a : Argument} {w : String} (h : IsBare w) (hcommand : w ∉ l.commandNames)
    (ha : l.positions[n]? = some a) : Word l n .free w [(a, some w)] (filled a n) .free
  | hyphens {n : Nat} : Word l n .free "--" [] n .trailing
  | behind {n : Nat} {a : Argument} {w : String} (ha : l.positions[n]? = some a) :
    Word l n .trailing w [(a, some w)] (filled a n) .trailing

/-- The words from a level on: what is written at it, and at the levels below. -/
inductive Words : Level → Nat → Stage → List String → List Occurrence →
    List (Level × List Occurrence) → Prop
  | done {l : Level} {n : Nat} {s : Stage} (h : ∀ a, s ≠ .wanting a) : Words l n s [] [] []
  | word {l : Level} {n n' : Nat} {s s' : Stage} {w : String} {ws : List String}
    {os os' : List Occurrence} {below : List (Level × List Occurrence)} (h : Word l n s w os n' s')
    (hs : Words l n' s' ws os' below) : Words l n s (w :: ws) (os ++ os') below
  | command {l m : Level} {n : Nat} {w : String} {ws : List String} {os : List Occurrence}
    {below : List (Level × List Occurrence)} (h : (w, m) ∈ l.commands)
    (hs : Words m 0 .free ws os below) : Words l n .free (w :: ws) [] ((m, os) :: below)

/-- The words are a command line of these levels, the outermost first. -/
inductive Line (words : List String) : List (Level × List Occurrence) → Prop
  | mk {os : List Occurrence} {below : List (Level × List Occurrence)}
    (h : Words .program 0 .free words os below) : Line words ((.program, os) :: below)

/-! ## The words leave no choice -/

/-- The name of an option is not empty and has no equals sign. -/
theorem name_of_long? {l : Level} {name : String} {a : Argument} (h : l.long? name = some a) :
    name.toList ≠ [] ∧ '=' ∉ name.toList := by
  have hname : a.long? = some name := by simpa using List.find?_some h
  cases a <;> simp only [Argument.long?, Option.some.injEq, reduceCtorEq] at hname <;>
    subst hname <;> decide

theorem ne_hyphen_of_short? {l : Level} {c : Char} {a : Argument} (h : l.short? c = some a) :
    c ≠ '-' := by
  have hletter : a.short? = some c := by simpa using List.find?_some h
  rintro rfl
  cases a <;> cases hletter

theorem Letters.exists_short? {l : Level} {c : Char} {cs : List Char} {os : List Occurrence}
    {s : Stage} (h : Letters l (c :: cs) os s) : ∃ a, l.short? c = some a := by
  cases h <;> exact ⟨_, by assumption⟩

/-- What is written with an option's name and what stands behind it, and what the next word may be. -/
def longMeans (a : Argument) : List Char → List Occurrence × Stage
  | [] => if a.form = .mark then ([(a, none)], .free) else ([], .wanting a)
  | _ :: v => ([(a, some (String.ofList v))], .free)

/-- A word of options is a name, with an equals sign in front of what stands behind it, or a run of
letters. -/
theorem Flags.long_or_letters {l : Level} {w : String} {os : List Occurrence} {s : Stage}
    (h : Flags l w os s) :
    (∃ name a v, l.long? name = some a ∧ (∀ c ∈ v.head?, c = '=') ∧
      w.toList = '-' :: '-' :: (name.toList ++ v) ∧ (os, s) = longMeans a v) ∨
    ∃ c cs, w.toList = '-' :: c :: cs ∧ Letters l (c :: cs) os s := by
  cases h with
  | @mark name a h ha => exact .inl ⟨name, a, [], h, by simp, by simp, by simp [longMeans, ha]⟩
  | @wanting name a h ha => exact .inl ⟨name, a, [], h, by simp, by simp, by simp [longMeans, ha]⟩
  | @attached name v a h ha =>
    exact .inl ⟨name, a, '=' :: v.toList, h, by simp, by simp, by simp [longMeans]⟩
  | @letters c cs os s h => exact .inr ⟨c, cs, String.toList_ofList, h⟩

/-- A word of options is no other word. -/
theorem Flags.not_isBare {l : Level} {w : String} {os : List Occurrence} {s : Stage}
    (h : Flags l w os s) : ¬IsBare w ∧ w ≠ "--" := by
  obtain ⟨c, cs, hw, hcs⟩ : ∃ c cs, w.toList = '-' :: c :: cs ∧ c :: cs ≠ ['-'] := by
    rcases h.long_or_letters with ⟨name, a, v, ha, -, hw, -⟩ | ⟨c, cs, hw, hletters⟩
    · refine ⟨'-', name.toList ++ v, hw, ?_⟩
      simp [(name_of_long? ha).1]
    · obtain ⟨a, ha⟩ := hletters.exists_short?
      refine ⟨c, cs, hw, ?_⟩
      simp [ne_hyphen_of_short? ha]
  refine ⟨?_, ?_⟩
  · rintro (rfl | hhead)
    · simp at hw
    · simp [hw] at hhead
  · rintro rfl
    exact hcs (List.cons.inj hw).2.symm

theorem not_isBare_hyphens : ¬IsBare "--" := by simp [IsBare]

theorem Letters.unique {l : Level} {cs : List Char} {os os' : List Occurrence} {s s' : Stage}
    (h : Letters l cs os s) (h' : Letters l cs os' s') : os = os' ∧ s = s' := by
  induction h generalizing os' s' with
  | nil =>
    cases h'
    exact ⟨rfl, rfl⟩
  | mark h ha hs ih =>
    cases h' with
    | mark h' ha' hs' =>
      obtain rfl := Option.some.inj (h.symm.trans h')
      obtain ⟨rfl, rfl⟩ := ih hs'
      exact ⟨rfl, rfl⟩
    | _ => simp_all
  | wanting h ha => cases h' <;> simp_all
  | equals h ha => cases h' <;> simp_all
  | attached h ha hd => cases h' <;> simp_all

/-- A name ends at the first equals sign. -/
theorem name_inj {n n' v v' : List Char} (hn : '=' ∉ n) (hn' : '=' ∉ n')
    (hv : ∀ c ∈ v.head?, c = '=') (hv' : ∀ c ∈ v'.head?, c = '=') (h : n ++ v = n' ++ v') :
    n = n' ∧ v = v' := by
  have htake {n v : List Char} (hn : '=' ∉ n) (hv : ∀ c ∈ v.head?, c = '=') :
      (n ++ v).takeWhile (· ≠ '=') = n := by
    have hall : ∀ c ∈ n, decide (c ≠ '=') = true := by
      intro c hc
      exact decide_eq_true fun he => hn (he ▸ hc)
    rw [List.takeWhile_append_of_pos hall]
    cases v with
    | nil => simp
    | cons c v => simp [hv c rfl]
  obtain rfl : n = n' := by rw [← htake hn hv, h, htake hn' hv']
  exact ⟨rfl, List.append_cancel_left h⟩

theorem Flags.unique {l : Level} {w : String} {os os' : List Occurrence} {s s' : Stage}
    (h : Flags l w os s) (h' : Flags l w os' s') : os = os' ∧ s = s' := by
  have hmixed {name : String} {v : List Char} {c : Char} {cs : List Char} {os : List Occurrence}
      {s : Stage} (hw : w.toList = '-' :: '-' :: (name.toList ++ v))
      (hw' : w.toList = '-' :: c :: cs) (h : Letters l (c :: cs) os s) : False := by
    obtain ⟨a, ha⟩ := h.exists_short?
    rw [hw] at hw'
    exact ne_hyphen_of_short? ha (List.cons.inj (List.cons.inj hw').2).1.symm
  rcases h.long_or_letters with ⟨name, a, v, ha, hv, hw, hmeant⟩ | ⟨c, cs, hw, hletters⟩ <;>
    rcases h'.long_or_letters with ⟨name', a', v', ha', hv', hw', hmeant'⟩ | ⟨c', cs', hw', hletters'⟩
  · have hsame : name.toList ++ v = name'.toList ++ v' := by
      rw [hw] at hw'
      simpa using hw'
    obtain ⟨hname, rfl⟩ := name_inj (name_of_long? ha).2 (name_of_long? ha').2 hv hv' hsame
    obtain rfl := String.toList_inj.1 hname
    obtain rfl := Option.some.inj (ha.symm.trans ha')
    exact Prod.mk.inj (hmeant.trans hmeant'.symm)
  · exact (hmixed hw hw' hletters').elim
  · exact (hmixed hw' hw hletters).elim
  · rw [hw] at hw'
    obtain ⟨rfl, rfl⟩ : c = c' ∧ cs = cs' := by simpa using hw'
    exact hletters.unique hletters'

theorem isBare_of_mem_commandNames {l : Level} {w : String} (h : w ∈ l.commandNames) :
    IsBare w := by
  have hall : ∀ w ∈ l.commandNames, w.toList.head? ≠ some '-' := by cases l <;> decide
  exact .inr (hall w h)

theorem mem_commandNames_of_mem {l m : Level} {w : String} (h : (w, m) ∈ l.commands) :
    w ∈ l.commandNames := by
  have hne : l.commands.isEmpty = false := by
    cases hl : l.commands with
    | nil => rw [hl] at h; cases h
    | cons x xs => rfl
  rw [Level.commandNames, hne]
  exact List.mem_append_left _ (List.mem_map_of_mem h)

theorem command_unique {l m m' : Level} {w : String} (h : (w, m) ∈ l.commands)
    (h' : (w, m') ∈ l.commands) : m = m' := by
  have hnodup : (l.commands.map (·.1)).Nodup := by cases l <;> decide
  exact congrArg Prod.snd (List.inj_on_of_nodup_map hnodup h h' rfl)

/-- A word says one thing. -/
theorem Word.unique {l : Level} {n n₁ n₂ : Nat} {s s₁ s₂ : Stage} {w : String}
    {os₁ os₂ : List Occurrence} (h₁ : Word l n s w os₁ n₁ s₁) (h₂ : Word l n s w os₂ n₂ s₂) :
    os₁ = os₂ ∧ n₁ = n₂ ∧ s₁ = s₂ := by
  cases h₁ with
  | flags h =>
    cases h₂ with
    | flags h' =>
      obtain ⟨rfl, rfl⟩ := h.unique h'
      exact ⟨rfl, rfl, rfl⟩
    | position hbare => exact absurd hbare h.not_isBare.1
    | hyphens => exact absurd rfl h.not_isBare.2
  | value h =>
    cases h₂ with
    | value h' => exact ⟨rfl, rfl, rfl⟩
  | position hbare hcommand ha =>
    cases h₂ with
    | flags h' => exact absurd hbare h'.not_isBare.1
    | position hbare' hcommand' ha' =>
      obtain rfl := Option.some.inj (ha.symm.trans ha')
      exact ⟨rfl, rfl, rfl⟩
    | hyphens => exact absurd hbare not_isBare_hyphens
  | hyphens =>
    cases h₂ with
    | flags h' => exact absurd rfl h'.not_isBare.2
    | position hbare' => exact absurd hbare' not_isBare_hyphens
    | hyphens => exact ⟨rfl, rfl, rfl⟩
  | behind ha =>
    cases h₂ with
    | behind ha' =>
      obtain rfl := Option.some.inj (ha.symm.trans ha')
      exact ⟨rfl, rfl, rfl⟩

/-- A command is no other word. -/
theorem Word.not_command {l m : Level} {n n' : Nat} {s : Stage} {w : String}
    {os : List Occurrence} (h : Word l n .free w os n' s) : (w, m) ∉ l.commands := by
  intro hm
  have hname := mem_commandNames_of_mem hm
  cases h with
  | flags h => exact h.not_isBare.1 (isBare_of_mem_commandNames hname)
  | position hbare hcommand => exact hcommand hname
  | hyphens => exact not_isBare_hyphens (isBare_of_mem_commandNames hname)

theorem Words.unique {l : Level} {n : Nat} {s : Stage} {ws : List String}
    {os os' : List Occurrence} {below below' : List (Level × List Occurrence)}
    (h : Words l n s ws os below) (h' : Words l n s ws os' below') : os = os' ∧ below = below' := by
  induction h generalizing os' below' with
  | done h =>
    cases h'
    exact ⟨rfl, rfl⟩
  | word h hs ih =>
    cases h' with
    | word h' hs' =>
      obtain ⟨rfl, rfl, rfl⟩ := h.unique h'
      obtain ⟨rfl, rfl⟩ := ih hs'
      exact ⟨rfl, rfl⟩
    | command h' => exact absurd h' h.not_command
  | command h hs ih =>
    cases h' with
    | word h' => exact absurd h h'.not_command
    | command h' hs' =>
      obtain rfl := command_unique h h'
      obtain ⟨rfl, rfl⟩ := ih hs'
      exact ⟨rfl, rfl⟩

/-- A command line is one in one way. -/
theorem Line.unique {words : List String} {levels levels' : List (Level × List Occurrence)}
    (h : Line words levels) (h' : Line words levels') : levels = levels' := by
  obtain ⟨h⟩ := h
  obtain ⟨h'⟩ := h'
  obtain ⟨rfl, rfl⟩ := h.unique h'
  rfl

end ServiceCall.CommandLine
