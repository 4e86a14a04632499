import ServiceCall.Proofs.Json.Members
import ServiceCall.Proofs.Json.Record
/-!
# Reading what is printed

A printed value spells a document (`exists_spells_pretty`), and this document is read as the value, as
long as its numbers are integers in range, its objects are in order and its containers are not nested
too deep (`Json.isPlain`). Blanks around the text do not matter (`parse_pretty`).
-/

namespace ServiceCall.Json

open Document (keyed ofObject ofText)

/-! ## Integers -/

/-- The number that an integer is printed as. -/
def RawNumber.ofInteger (i : Int) : RawNumber :=
  ⟨decide (i < 0), Nat.toDigits 10 i.natAbs, none, none⟩

theorem digits_toDigits (n : Nat) : Digits (Nat.toDigits 10 n) :=
  ⟨Nat.toDigits_ne_nil, fun _ => isDigit_of_mem_toDigits⟩

/-- Only zero starts with a zero. -/
theorem head?_toDigits {n : Nat} (h : 0 < n) : (Nat.toDigits 10 n).head? ≠ some '0' := by
  induction n using Nat.strongRecOn with
  | ind n ih =>
    rw [Nat.toDigits_eq_if (by decide)]
    split_ifs with hn
    · intro hzero
      have hdigit : digit? n.digitChar = some 0 := by
        rw [Option.some.inj hzero]
        rfl
      rw [digit?_digitChar hn, Option.some.injEq] at hdigit
      omega
    · rw [List.head?_append_of_ne_nil _ Nat.toDigits_ne_nil]
      exact ih (n / 10) (by omega) (by omega)

theorem spellsWhole_toDigits (n : Nat) : SpellsWhole (Nat.toDigits 10 n) := by
  rcases Nat.eq_zero_or_pos n with rfl | hn
  · exact .zero
  · exact .digits (digits_toDigits n) (head?_toDigits hn)

theorem spellsNumber_integerText (i : Int) : SpellsNumber (.ofInteger i) (integerText i) := by
  have htext : integerText i = minus (decide (i < 0)) ++ (Nat.toDigits 10 i.natAbs ++ ([] ++ [])) := by
    by_cases hi : i < 0 <;> simp [integerText, minus, hi]
  rw [htext]
  exact .mk (spellsWhole_toDigits i.natAbs) .none .none

theorem RawNumber.significand_eq {ds : List Char} {before : Nat}
    (h : digitsFrom before ds < 0x10000000000000000) :
    significand before ds = (digitsFrom before ds, []) := by
  induction ds generalizing before with
  | nil => rfl
  | cons c ds ih =>
    rw [digitsFrom_cons] at h ⊢
    have hle := le_digitsFrom (10 * before + (digit? c).getD 0) ds
    simp only [significand]
    rw [if_pos (by omega), ih h]

/-- An integer in range is read back. -/
theorem RawNumber.read_ofInteger {i : Int} (h : integerBounds i = true) :
    (ofInteger i).read = .ok (.integer i) := by
  have hvalue : digitsFrom 0 (Nat.toDigits 10 i.natAbs) = i.natAbs := digitsValue_toDigits i.natAbs
  simp only [integerBounds, Bool.and_eq_true, decide_eq_true_eq] at h
  have hsignificand : significand 0 (Nat.toDigits 10 i.natAbs) = (i.natAbs, []) := by
    rw [significand_eq (by omega), hvalue]
  by_cases hi : i < 0
  · have hne : i.natAbs ≠ 0 := by omega
    have hle : i.natAbs ≤ 0x8000000000000000 := by omega
    have habs : -(i.natAbs : Int) = i := by omega
    rw [read, ofInteger]
    dsimp only
    rw [hsignificand]
    generalize i.natAbs = n at hne hle habs
    simp [hi, hne, hle, habs]
  · have habs : (i.natAbs : Int) = i := by omega
    rw [read, ofInteger]
    dsimp only
    rw [hsignificand]
    generalize i.natAbs = n at habs
    simp [hi, habs]

/-! ## Objects in order -/

theorem of_areMembersPlain {depth : Nat} {before : Option String} {ms : List (String × Json)}
    (h : areMembersPlain depth before ms = true) :
    (∀ k ∈ before, ∀ m ∈ ms, k < m.1) ∧ Ascending ms := by
  induction ms generalizing before with
  | nil => exact ⟨fun _ _ m hm => absurd hm List.not_mem_nil, .nil⟩
  | cons m ms ih =>
    obtain ⟨k, v⟩ := m
    simp only [areMembersPlain, Bool.and_eq_true] at h
    obtain ⟨⟨hbefore, -⟩, hms⟩ := h
    obtain ⟨hless, hascending⟩ := ih hms
    have hfirst : ∀ m ∈ ms, k < m.1 := hless k rfl
    refine ⟨fun b hb m hm => ?_, List.pairwise_cons.2 ⟨hfirst, hascending⟩⟩
    obtain rfl := Option.mem_def.1 hb
    have hbk : b < k := of_decide_eq_true hbefore
    rcases List.mem_cons.1 hm with rfl | hm
    · exact hbk
    · exact lt_trans hbk (hfirst m hm)

/-- An object in order is made of its members. -/
theorem ofMembers_of_plain {depth : Nat} {before : Option String} {ms : List (String × Json)}
    (h : areMembersPlain depth before ms = true) : ofMembers ms = .object ms := by
  rw [ofMembers_eq, (of_areMembersPlain h).2.sorted_eq]

/-! ## Values -/

theorem blank_newline (level : Nat) : Blank (newline level) := by
  intro c hc
  rcases List.mem_cons.1 hc with rfl | hc
  · rfl
  · rw [List.eq_of_mem_replicate hc]
    rfl

theorem blank_space : Blank [' '] := fun c hc => by rw [List.mem_singleton.1 hc]; rfl

theorem Spells.pads_before {v : Document} {b t : List Char} (hb : Blank b) (h : Spells v t) :
    Pads v (b ++ t) := by
  simpa using Pads.mk hb h blank_nil

/-- The key of a member on a line of its own. -/
theorem spellsKey_newline (level : Nat) (k : String) :
    SpellsKey k (newline level ++ (quote k ++ [':'])) := by
  simpa [quote] using SpellsKey.mk (blank_newline level) (spellsChars_escape k.toList) blank_nil

mutual

/-- A printed value spells a document that is read as the value. -/
theorem exists_spells_pretty (level : Nat) : ∀ {depth : Nat} {v : Json}, v.isPlain depth = true →
    ∃ d, Spells d (prettyChars level v) ∧ d.readValue depth = .ok v
  | _, .null, _ => ⟨.null, .null, by simp [Document.readValue]⟩
  | _, .bool true, _ => ⟨.bool true, .yes, by simp [Document.readValue]⟩
  | _, .bool false, _ => ⟨.bool false, .no, by simp [Document.readValue]⟩
  | _, .integer i, h => by
    refine ⟨.number (.ofInteger i), .number (spellsNumber_integerText i), ?_⟩
    simp only [isPlain] at h
    simp [Document.readValue, RawNumber.read_ofInteger h]
  | _, .float x, h => by simp [isPlain] at h
  | _, .string s, _ => ⟨ofText s, spells_quote s, by simp [Document.readValue, ofText, Except.map]⟩
  | 0, .array vs, h => by simp [isPlain] at h
  | 0, .object ms, h => by simp [isPlain] at h
  | depth + 1, .array [], _ => ⟨.array [] none, .emptyArray blank_nil, rfl⟩
  | depth + 1, .object [], _ => ⟨ofObject [], .emptyObject blank_nil, rfl⟩
  | depth + 1, .array (v :: vs), h => by
    rw [isPlain] at h
    obtain ⟨ds, hspells, hread⟩ := exists_spells_items level h (List.cons_ne_nil v vs)
    refine ⟨.array ds none, ?_, ?_⟩
    · simpa [prettyChars] using Spells.array hspells
    · simp [Document.readValue, hread, Document.readEnd, bind, Except.bind, pure, Except.pure]
  | depth + 1, .object (m :: ms), h => by
    rw [isPlain] at h
    obtain ⟨ds, hspells, hread⟩ := exists_spells_members level h (List.cons_ne_nil m ms)
    refine ⟨ofObject ds, ?_, ?_⟩
    · simpa [prettyChars] using Spells.object hspells
    · simp [ofObject, Document.readValue, hread, Document.readEnd, ofMembers_of_plain h, bind,
        Except.bind, pure, Except.pure]

/-- The lines of an array spell items that are read as its items. -/
theorem exists_spells_items (level : Nat) : ∀ {depth : Nat} {vs : List Json},
    arePlain depth vs = true → vs ≠ [] →
    ∃ ds, SpellsItems ds (newline (level + 1) ++ (prettyItems level vs ++ newline level)) ∧
      Document.readItems depth ds = .ok vs
  | _, [], _, h => absurd rfl h
  | depth, [v], h, _ => by
    simp only [arePlain, Bool.and_true] at h
    obtain ⟨d, hspells, hread⟩ := exists_spells_pretty (level + 1) h
    refine ⟨[d], .one ?_, ?_⟩
    · simpa [prettyItems] using Pads.mk (blank_newline (level + 1)) hspells (blank_newline level)
    · simp [Document.readItems, hread, bind, Except.bind, pure, Except.pure]
  | depth, v :: w :: rest, h, _ => by
    rw [arePlain, Bool.and_eq_true] at h
    obtain ⟨d, hspells, hread⟩ := exists_spells_pretty (level + 1) h.1
    obtain ⟨ds, hitems, hrest⟩ := exists_spells_items level h.2 (List.cons_ne_nil w rest)
    refine ⟨d :: ds, ?_, ?_⟩
    · simpa [prettyItems] using
        SpellsItems.more (hspells.pads_before (blank_newline (level + 1))) hitems
    · simp [Document.readItems, hread, hrest, bind, Except.bind, pure, Except.pure]

/-- The lines of an object spell members that are read as its members. -/
theorem exists_spells_members (level : Nat) : ∀ {depth : Nat} {before : Option String}
    {ms : List (String × Json)}, areMembersPlain depth before ms = true → ms ≠ [] →
    ∃ ds, SpellsMembers ds (newline (level + 1) ++ (prettyMembers level ms ++ newline level)) ∧
      Document.readMembers depth (keyed ds) = .ok ms
  | _, _, [], _, h => absurd rfl h
  | depth, before, [(k, v)], h, _ => by
    simp only [areMembersPlain, Bool.and_true, Bool.and_eq_true] at h
    obtain ⟨d, hspells, hread⟩ := exists_spells_pretty (level + 1) h.2
    refine ⟨[(k, d)], ?_, ?_⟩
    · simpa [prettyMembers] using SpellsMembers.one (spellsKey_newline (level + 1) k)
        (Pads.mk blank_space hspells (blank_newline level))
    · simp [keyed, Document.readMembers, hread, bind, Except.bind, pure, Except.pure]
  | depth, before, (k, v) :: m :: rest, h, _ => by
    simp only [areMembersPlain.eq_def depth before, Bool.and_eq_true] at h
    obtain ⟨d, hspells, hread⟩ := exists_spells_pretty (level + 1) h.1.2
    obtain ⟨ds, hmembers, hrest⟩ := exists_spells_members level h.2 (List.cons_ne_nil m rest)
    refine ⟨(k, d) :: ds, ?_, ?_⟩
    · simpa [prettyMembers] using SpellsMembers.more (spellsKey_newline (level + 1) k)
        (hspells.pads_before blank_space) hmembers
    · simp only [keyed] at hrest
      simp [keyed, Document.readMembers, hread, hrest, bind, Except.bind, pure, Except.pure]

end

/-- A value is read back from its text with blanks around it. -/
theorem parse_pretty {v : Json} (h : v.isPlain Document.maxDepth = true) {before after : String}
    (hbefore : Blank before.toList) (hafter : Blank after.toList) :
    parse (before ++ v.pretty ++ after) = .ok v := by
  obtain ⟨d, hspells, hread⟩ := exists_spells_pretty 0 h
  have hpads : Pads d (before ++ v.pretty ++ after).toList := by
    simpa [pretty] using Pads.mk hbefore hspells hafter
  rw [parse, readText_of_pads hpads, hread]

end ServiceCall.Json
