import ServiceCall.Proofs.Json.Spelling
/-!
# Scanning what is spelled

A text that spells a document is scanned as this document (`Scan.document_of_pads`). The scanner goes by
fuel, two for every character of the text, and so does the proof: from what it reads with some fuel
follows what it reads with one more.
-/

namespace ServiceCall.Json

open Utf8 (Symbol)
open Document (ofText ofObject keyed)

namespace Scan

variable {s : List Symbol}

/-- What follows is no digit. -/
def NoDigit (s : List Symbol) : Prop := ∀ c, s.head? = some (some c) → isDigit c = false

/-- What follows is no part of a number. -/
def Ends (s : List Symbol) : Prop :=
  ∀ c, s.head? = some (some c) → isDigit c = false ∧ c ≠ '.' ∧ c ≠ 'e' ∧ c ≠ 'E'

theorem Ends.noDigit (h : Ends s) : NoDigit s := fun c hc => (h c hc).1

theorem noDigit_cons {c : Char} (h : isDigit c = false) : NoDigit (some c :: s) := by
  intro d hd
  obtain rfl : c = d := by simpa using hd
  exact h

/-! ## Blanks -/

theorem isSpace_iff {c : Char} : isSpace c = true ↔ c = ' ' ∨ c = '\n' ∨ c = '\t' ∨ c = '\r' := by
  simp [isSpace, or_assoc]

theorem skipSpace_cons {c : Char} (h : isSpace c = false) (s : List Symbol) :
    skipSpace (some c :: s) = some c :: s := by
  rw [skipSpace, if_neg (by simp [h])]

theorem skipSpace_blank {b : List Char} (h : Blank b) (s : List Symbol) :
    skipSpace (b.map some ++ s) = skipSpace s := by
  induction b with
  | nil => rfl
  | cons c b ih =>
    rw [List.map_cons, List.cons_append, skipSpace, if_pos (h c List.mem_cons_self)]
    exact ih fun d hd => h d (.tail _ hd)

theorem skipSpace_skipSpace (s : List Symbol) : skipSpace (skipSpace s) = skipSpace s := by
  fun_induction skipSpace s with
  | case1 c rest h ih => exact ih
  | case2 c rest h => exact skipSpace_cons (by simpa using h) rest
  | case3 s h =>
    unfold skipSpace
    split
    · rename_i c rest
      exact absurd rfl (h c rest)
    · rfl

theorem Ends.blank {b : List Char} (hb : Blank b) (h : Ends s) : Ends (b.map some ++ s) := by
  cases b with
  | nil => exact h
  | cons c b =>
    intro d hd
    obtain rfl : c = d := by simpa using hd
    obtain rfl | rfl | rfl | rfl := isSpace_iff.1 (hb c List.mem_cons_self) <;> decide

theorem ends_cons {c : Char} (h : isDigit c = false ∧ c ≠ '.' ∧ c ≠ 'e' ∧ c ≠ 'E') :
    Ends (some c :: s) := by
  intro d hd
  obtain rfl : c = d := by simpa using hd
  exact h

/-! ## Strings -/

theorem hex4_of_spells {n : Nat} {t : List Char} (h : SpellsUnit n t) (rest : List Symbol) :
    hex4 (t.map some ++ rest) = .ok (n, rest) := by
  obtain ⟨hp, hq, hr, hs⟩ := h
  simp only [List.map_cons, List.map_nil, List.cons_append, List.nil_append, hex4, hp, hq, hr, hs]

theorem escaped?_of_mem {l c : Char} (h : (l, c) ∈ letters) : escaped? l = some c := by
  simp only [letters, List.mem_cons, Prod.mk.injEq, List.not_mem_nil, or_false] at h
  obtain ⟨rfl, rfl⟩ | ⟨rfl, rfl⟩ | ⟨rfl, rfl⟩ | ⟨rfl, rfl⟩ | ⟨rfl, rfl⟩ | ⟨rfl, rfl⟩ | ⟨rfl, rfl⟩ |
    ⟨rfl, rfl⟩ := h <;> rfl

theorem ne_u_of_mem {l c : Char} (h : (l, c) ∈ letters) : l ≠ 'u' := by
  rintro rfl
  have hnone := escaped?_of_mem h
  cases hnone

/-- A character is no half of a surrogate pair. -/
theorem not_surrogate (c : Char) : ¬(0xD800 ≤ c.toNat ∧ c.toNat ≤ 0xDFFF) := by
  rintro ⟨hle, hge⟩
  obtain h | ⟨h, -⟩ : c.toNat < 0xD800 ∨ 0xDFFF < c.toNat ∧ c.toNat < 0x110000 := c.valid
  · omega
  · omega

theorem joinPieces_toNat (c : Char) (s : List Symbol) : joinPieces c.toNat s = (.char c, s) := by
  have hno := not_surrogate c
  rw [joinPieces.eq_def, if_neg (by omega), unitPiece, if_neg (by omega), if_neg (by omega),
    Char.ofNat_toNat]

theorem joinPieces_pair {c : Char} {m n : Nat} {t : List Char} (h : SpellsUnit n t)
    (hm : 0xD800 ≤ m ∧ m ≤ 0xDBFF) (hn : 0xDC00 ≤ n ∧ n ≤ 0xDFFF)
    (hc : c.toNat = 0x10000 + (m - 0xD800) * 0x400 + (n - 0xDC00)) (s : List Symbol) :
    joinPieces m (some '\\' :: some 'u' :: (t.map some ++ s)) = (.char c, s) := by
  rw [joinPieces, if_pos hm, hex4_of_spells h]
  simp only [if_pos hn, ← hc, Char.ofNat_toNat]

/-- What stands for a character is read as this character. -/
theorem stringBody_of_spells {c : Char} {t : List Char} (h : SpellsChar c t) (fuel : Nat)
    (s : List Symbol) :
    stringBody (fuel + 1) (t.map some ++ s) =
      (cons (.char c) (stringBody fuel s).1, (stringBody fuel s).2) := by
  cases h with
  | plain hcontrol hquote hslash =>
    rw [List.map_cons, List.map_nil, List.singleton_append, stringBody,
      if_neg (Nat.not_lt.2 hcontrol)]
    · exact hquote
    · exact fun _ => hslash
    · exact fun _ _ => hslash
    · exact fun _ _ _ => hslash
    · exact fun _ _ => hslash
  | letter h =>
    have hu := ne_u_of_mem h
    rw [List.map_cons, List.map_cons, List.map_nil, List.cons_append, List.singleton_append,
      stringBody]
    · rw [escaped?_of_mem h]
    · exact hu
  | unit h =>
    rw [List.map_cons, List.map_cons, List.cons_append, List.cons_append, stringBody,
      hex4_of_spells h]
    simp only [joinPieces_toNat]
  | pair h h' hm hn hc =>
    simp only [List.map_append, List.map_cons, List.cons_append, List.append_assoc, stringBody,
      hex4_of_spells h, joinPieces_pair h' hm hn hc]

theorem length_pos_of_spells {c : Char} {t : List Char} (h : SpellsChar c t) : 0 < t.length := by
  cases h <;> simp

theorem stringBody_of_chars {cs t : List Char} (h : SpellsChars cs t) {fuel : Nat}
    (hfuel : t.length < fuel) (rest : List Symbol) :
    stringBody fuel (t.map some ++ some '"' :: rest) = (⟨cs.map .char, none⟩, some rest) := by
  obtain ⟨fuel, rfl⟩ := Nat.exists_eq_add_of_lt hfuel
  clear hfuel
  induction h generalizing fuel with
  | nil => rfl
  | @cons c cs t ts h hs ih =>
    obtain ⟨n, hn⟩ := Nat.exists_eq_add_of_lt (length_pos_of_spells h)
    have hlength : (t ++ ts).length + fuel + 1 = ts.length + (n + fuel) + 1 + 1 := by
      rw [List.length_append]
      omega
    rw [hlength, List.map_append, List.append_assoc, stringBody_of_spells h, ih]
    rfl

/-- A string is read up to its closing quote. -/
theorem string_of_chars {k : String} {t : List Char} (h : SpellsChars k.toList t)
    (rest : List Symbol) :
    string (t.map some ++ some '"' :: rest) = (.ofString k, some rest) := by
  refine stringBody_of_chars h ?_ rest
  simp only [List.length_append, List.length_map, List.length_cons]
  omega

/-! ## Numbers -/

theorem digits_of_noDigit {ds : List Char} (h : ∀ c ∈ ds, isDigit c = true) (hs : NoDigit s) :
    digits (ds.map some ++ s) = (ds, s) := by
  induction ds with
  | nil =>
    rw [List.map_nil, List.nil_append]
    unfold digits
    split
    · next c rest => rw [if_neg (by simp [hs c rfl])]
    · rfl
  | cons c ds ih =>
    rw [List.map_cons, List.cons_append, digits, if_pos (h c List.mem_cons_self),
      ih fun d hd => h d (.tail _ hd)]

theorem digits1_of_noDigit {ds : List Char} (h : Digits ds) (hs : NoDigit s) :
    digits1 (ds.map some ++ s) = .ok (ds, s) := by
  rw [digits1, digits_of_noDigit h.2 hs]
  obtain ⟨c, ds, rfl⟩ := List.exists_cons_of_ne_nil h.1
  rfl

/-- The first of some digits is neither a sign nor a point. -/
theorem exists_cons_of_digits {ds : List Char} (h : Digits ds) :
    ∃ c rest, ds = c :: rest ∧ isDigit c = true := by
  obtain ⟨c, rest, rfl⟩ := List.exists_cons_of_ne_nil h.1
  exact ⟨c, rest, rfl, h.2 c List.mem_cons_self⟩

theorem exponent_of_spells {x : Option (Bool × List Char)} {t : List Char}
    (h : SpellsExponent x t) (hs : Ends s) : exponent (t.map some ++ s) = .ok (x, s) := by
  cases h with
  | none =>
    rw [List.map_nil, List.nil_append]
    unfold exponent
    split
    · next c rest =>
      rw [if_neg (not_or.2 ⟨(hs c rfl).2.2.1, (hs c rfl).2.2.2⟩)]
    · rfl
    · rfl
  | some he hsign hd =>
    simp only [List.map_cons, List.cons_append, List.map_append, List.append_assoc, exponent, if_pos he]
    have hread := digits1_of_noDigit hd hs.noDigit
    cases hsign with
    | plus => simp [hread, Except.map]
    | minus => simp [hread, Except.map]
    | none =>
      obtain ⟨c, rest, rfl, hc⟩ := exists_cons_of_digits hd
      have hminus : c ≠ '-' := by rintro rfl; exact absurd hc (by decide)
      have hplus : c ≠ '+' := by rintro rfl; exact absurd hc (by decide)
      simp only [List.map_cons, List.cons_append, List.map_nil, List.nil_append] at hread ⊢
      split <;> simp_all [Except.map]

theorem fraction_of_spells {x : Option (List Char)} {t : List Char} (h : SpellsFraction x t)
    (hs : NoDigit s) (hpoint : s.head? ≠ some (some '.')) :
    fraction (t.map some ++ s) = .ok (x, s) := by
  cases h with
  | none =>
    rw [List.map_nil, List.nil_append]
    unfold fraction
    split
    · exact absurd rfl hpoint
    · rfl
  | some hd =>
    rw [List.map_cons, List.cons_append, fraction, digits1_of_noDigit hd hs]
    rfl

theorem whole_of_spells {t : List Char} (h : SpellsWhole t) (hs : NoDigit s) :
    whole (t.map some ++ s) = .ok (t, s) := by
  cases h with
  | zero =>
    rw [List.map_cons, List.map_nil, List.singleton_append, whole.eq_def]
    simp only
    split
    · next c rest => rw [if_neg (by simp [hs c rfl])]
    · rfl
  | digits hd hzero =>
    have hread := digits1_of_noDigit hd hs
    obtain ⟨c, rest, rfl, hc⟩ := exists_cons_of_digits hd
    have hc : c ≠ '0' := fun he => hzero (congrArg some he)
    rw [← hread, whole.eq_def, List.map_cons, List.cons_append]
    split
    · next he => exact absurd (Option.some.inj (List.cons.inj he).1) hc
    · rfl

theorem exists_cons_of_whole {t : List Char} (h : SpellsWhole t) :
    ∃ c rest, t = c :: rest ∧ isDigit c = true := by
  cases h with
  | zero => exact ⟨_, _, rfl, by decide⟩
  | digits hd hzero => exact exists_cons_of_digits hd

theorem exponent_head {x : Option (Bool × List Char)} {t : List Char} (h : SpellsExponent x t)
    (hs : Ends s) : NoDigit (t.map some ++ s) ∧ (t.map some ++ s).head? ≠ some (some '.') := by
  cases h with
  | none => exact ⟨hs.noDigit, fun he => (hs _ he).2.1 rfl⟩
  | some he hsign hd => obtain rfl | rfl := he <;> exact ⟨noDigit_cons (by decide), by simp⟩

theorem fraction_head {x : Option (List Char)} {t : List Char} (h : SpellsFraction x t)
    (hs : NoDigit s) : NoDigit (t.map some ++ s) := by
  cases h with
  | none => exact hs
  | some hd => exact noDigit_cons (by decide)

theorem number_of_spells {n : RawNumber} {t : List Char} (h : SpellsNumber n t) (hs : Ends s) :
    number (t.map some ++ s) = .ok (n, s) := by
  obtain @⟨negative, w, f, e, x, y, hw, hf, he⟩ := h
  obtain ⟨hnoDigit, hpoint⟩ := exponent_head he hs
  have hwhole := whole_of_spells hw (fraction_head hf hnoDigit)
  have hfraction := fraction_of_spells hf hnoDigit hpoint
  have hexponent := exponent_of_spells he hs
  simp only [List.map_append, List.append_assoc]
  cases negative with
  | true =>
    simp only [minus, if_true, List.map_cons, List.map_nil, List.singleton_append, number, hwhole,
      hfraction, hexponent, bind, Except.bind, pure, Except.pure]
  | false =>
    obtain ⟨c, rest, rfl, hc⟩ := exists_cons_of_whole hw
    have hminus : c ≠ '-' := by rintro rfl; exact absurd hc (by decide)
    have hunsigned : List.map some (minus false) ++ (List.map some (c :: rest) ++
        (List.map some f ++ (List.map some e ++ s))) =
        List.map some (c :: rest) ++ (List.map some f ++ (List.map some e ++ s)) := rfl
    rw [hunsigned, number]
    · simp only [hwhole, hfraction, hexponent, bind, Except.bind, pure, Except.pure]
    · exact fun r hr => hminus (Option.some.inj (List.cons.inj hr).1)

/-! ## What a value starts with -/

/-- What a value may start with: no blank, and no bracket that closes an array. -/
def Starts (c : Char) : Prop := isSpace c = false ∧ c ≠ ']'

instance (c : Char) : Decidable (Starts c) := inferInstanceAs (Decidable (_ ∧ _))

theorem starts_of_isDigit {c : Char} (h : isDigit c = true) : Starts c := by
  constructor
  · by_contra hspace
    obtain rfl | rfl | rfl | rfl := isSpace_iff.1 (by simpa using hspace) <;> exact absurd h (by decide)
  · rintro rfl
    exact absurd h (by decide)

theorem exists_cons_of_number {n : RawNumber} {t : List Char} (h : SpellsNumber n t) :
    ∃ c rest, t = c :: rest ∧ (c = '-' ∨ isDigit c = true) := by
  obtain @⟨negative, w, f, e, x, y, hw, hf, he⟩ := h
  cases negative with
  | true => exact ⟨_, _, rfl, .inl rfl⟩
  | false =>
    obtain ⟨c, rest, rfl, hc⟩ := exists_cons_of_whole hw
    exact ⟨c, rest ++ (f ++ e), rfl, .inr hc⟩

theorem exists_starts {v : Document} {t : List Char} (h : Spells v t) :
    ∃ c rest, t = c :: rest ∧ Starts c := by
  cases h with
  | number h =>
    obtain ⟨c, rest, rfl, rfl | hc⟩ := exists_cons_of_number h
    · exact ⟨_, rest, rfl, by decide⟩
    · exact ⟨c, rest, rfl, starts_of_isDigit hc⟩
  | _ => exact ⟨_, _, rfl, by decide⟩

theorem skipSpace_pads {v : Document} {t : List Char} (h : Pads v t) (s : List Symbol) :
    ∃ c rest, skipSpace (t.map some ++ s) = some c :: rest ∧ Starts c := by
  obtain @⟨v, b, t, b', hb, hv, hb'⟩ := h
  obtain ⟨c, rest, rfl, hc⟩ := exists_starts hv
  refine ⟨c, rest.map some ++ (b'.map some ++ s), ?_, hc⟩
  rw [List.map_append, List.map_append, List.append_assoc, List.append_assoc, skipSpace_blank hb]
  exact skipSpace_cons hc.1 _

theorem skipSpace_items {vs : List Document} {t : List Char} (h : SpellsItems vs t)
    (s : List Symbol) : ∃ c rest, skipSpace (t.map some ++ s) = some c :: rest ∧ Starts c := by
  cases h with
  | one h => exact skipSpace_pads h s
  | more h hs =>
    rw [List.map_append, List.append_assoc]
    exact skipSpace_pads h _

theorem skipSpace_key {k : String} {t : List Char} (h : SpellsKey k t) (s : List Symbol) :
    ∃ kt b, SpellsChars k.toList kt ∧ Blank b ∧ skipSpace (t.map some ++ s) =
      some '"' :: (kt.map some ++ some '"' :: (b.map some ++ some ':' :: s)) := by
  obtain @⟨b, t, b', hb, ht, hb'⟩ := h
  refine ⟨t, b', ht, hb', ?_⟩
  simp only [List.map_append, List.map_cons, List.cons_append, List.append_assoc, List.map_nil,
    List.nil_append]
  rw [skipSpace_blank hb]
  exact skipSpace_cons (by decide) _

theorem skipSpace_members {ms : List (String × Document)} {t : List Char} (h : SpellsMembers ms t)
    (s : List Symbol) : ∃ rest, skipSpace (t.map some ++ s) = some '"' :: rest := by
  cases h with
  | one hk h =>
    rw [List.map_append, List.append_assoc]
    obtain ⟨kt, b, -, -, hskip⟩ := skipSpace_key hk (_ ++ s)
    exact ⟨_, hskip⟩
  | more hk h hs =>
    rw [List.map_append, List.append_assoc]
    obtain ⟨kt, b, -, -, hskip⟩ := skipSpace_key hk (_ ++ s)
    exact ⟨_, hskip⟩

/-! ## Values -/

/-- Blanks in front of a value do not matter. -/
theorem value_skipSpace (fuel : Nat) (s : List Symbol) :
    value fuel (skipSpace s) = value fuel s := by
  cases fuel with
  | zero => rw [value, value]
  | succ fuel => rw [value.eq_def, value.eq_def]; simp only [skipSpace_skipSpace]

theorem items_skipSpace (fuel : Nat) (s : List Symbol) :
    items fuel (skipSpace s) = items fuel s := by
  cases fuel with
  | zero => rw [items, items]
  | succ fuel => rw [items, items, value_skipSpace]

theorem members_skipSpace (fuel : Nat) (s : List Symbol) :
    members fuel (skipSpace s) = members fuel s := by
  cases fuel with
  | zero => rw [members, members]
  | succ fuel => rw [members.eq_def, members.eq_def]; simp only [skipSpace_skipSpace]

/-- With this fuel every spelled value is read that the fuel suffices for. -/
def ReadsValues (fuel : Nat) : Prop :=
  ∀ ⦃v : Document⦄ ⦃t : List Char⦄ ⦃s : List Symbol⦄, Spells v t → 2 * t.length ≤ fuel → Ends s →
    value fuel (t.map some ++ s) = (v, some s)

/-- With this fuel the spelled items of an array are read up to its closing bracket. -/
def ReadsItems (fuel : Nat) : Prop :=
  ∀ ⦃vs : List Document⦄ ⦃t : List Char⦄ ⦃s : List Symbol⦄, SpellsItems vs t →
    2 * t.length + 1 ≤ fuel → items fuel (t.map some ++ some ']' :: s) = (vs, none, some s)

/-- With this fuel the spelled members of an object are read up to its closing brace. -/
def ReadsMembers (fuel : Nat) : Prop :=
  ∀ ⦃ms : List (String × Document)⦄ ⦃t : List Char⦄ ⦃s : List Symbol⦄, SpellsMembers ms t →
    2 * t.length + 1 ≤ fuel →
      members fuel (t.map some ++ some '}' :: s) = (keyed ms, none, some s)

theorem ReadsValues.pads {fuel : Nat} (h : ReadsValues fuel) {v : Document} {t : List Char}
    (ht : Pads v t) (hfuel : 2 * t.length ≤ fuel) (hs : Ends s) :
    ∃ rest, value fuel (t.map some ++ s) = (v, some rest) ∧ skipSpace rest = skipSpace s := by
  obtain @⟨v, b, t, b', hb, hv, hb'⟩ := ht
  refine ⟨b'.map some ++ s, ?_, skipSpace_blank hb' s⟩
  simp only [List.length_append] at hfuel
  rw [List.map_append, List.map_append, List.append_assoc, List.append_assoc, ← value_skipSpace,
    skipSpace_blank hb, value_skipSpace]
  exact h hv (by omega) (hs.blank hb')

theorem named_of_name (v : Document) (cs : List Char) (s : List Symbol) :
    named v cs (cs.map some ++ s) = (v, some s) := by
  have hname : name cs (cs.map some ++ s) = .ok s := by
    induction cs with
    | nil => rw [name]; rfl
    | cons c cs ih => rw [List.map_cons, List.cons_append, name, if_pos rfl, ih]
  rw [named, hname]

theorem value_number {fuel : Nat} {c : Char} {n : RawNumber} {s rest : List Symbol}
    (hc : c = '-' ∨ isDigit c = true) (h : number (some c :: s) = .ok (n, rest)) :
    value (fuel + 1) (some c :: s) = (.number n, some rest) := by
  have hspace : isSpace c = false := by
    obtain rfl | hc := hc
    · decide
    · exact (starts_of_isDigit hc).1
  have hother {d : Char} {tail : List Symbol} (he : some c :: s = some d :: tail)
      (hd : ¬(d = '-' ∨ isDigit d = true)) : False :=
    hd (Option.some.inj (List.cons.inj he).1 ▸ hc)
  rw [value.eq_def]
  simp only [skipSpace_cons hspace]
  split
  · next he => cases he
  · next he => cases he
  · next he => exact (hother he (by decide)).elim
  · next he => exact (hother he (by decide)).elim
  · next he => exact (hother he (by decide)).elim
  · next he => exact (hother he (by decide)).elim
  · next he => exact (hother he (by decide)).elim
  · next he => exact (hother he (by decide)).elim
  · next he =>
    obtain ⟨hd, rfl⟩ := List.cons.inj he
    obtain rfl := Option.some.inj hd
    rw [if_pos hc, h]

theorem value_string {fuel : Nat} {k : String} {t : List Char} (h : SpellsChars k.toList t)
    (s : List Symbol) :
    value (fuel + 1) (some '"' :: (t.map some ++ some '"' :: s)) = (ofText k, some s) := by
  rw [value.eq_def]
  simp only [skipSpace_cons (c := '"') (by decide), string_of_chars h]
  rfl

theorem value_emptyArray {fuel : Nat} {s rest : List Symbol} (h : skipSpace s = some ']' :: rest) :
    value (fuel + 1) (some '[' :: s) = (.array [] none, some rest) := by
  rw [value.eq_def]
  simp only [skipSpace_cons (c := '[') (by decide), h]

theorem value_array {fuel : Nat} {c : Char} {vs : List Document} {s tail rest : List Symbol}
    (hskip : skipSpace s = some c :: tail) (hc : c ≠ ']')
    (h : items fuel s = (vs, none, some rest)) :
    value (fuel + 1) (some '[' :: s) = (.array vs none, some rest) := by
  rw [← items_skipSpace, hskip] at h
  rw [value.eq_def]
  simp only [skipSpace_cons (c := '[') (by decide), hskip]
  split
  · next he => cases he
  · next he => exact absurd (Option.some.inj (List.cons.inj he).1) hc
  · rw [h]

theorem value_emptyObject {fuel : Nat} {s rest : List Symbol}
    (h : skipSpace s = some '}' :: rest) :
    value (fuel + 1) (some '{' :: s) = (ofObject [], some rest) := by
  rw [value.eq_def]
  simp only [skipSpace_cons (c := '{') (by decide), h]
  rfl

theorem value_object {fuel : Nat} {ms : List (String × Document)} {s tail rest : List Symbol}
    (hskip : skipSpace s = some '"' :: tail)
    (h : members fuel s = (keyed ms, none, some rest)) :
    value (fuel + 1) (some '{' :: s) = (ofObject ms, some rest) := by
  rw [← members_skipSpace, hskip] at h
  rw [value.eq_def]
  simp only [skipSpace_cons (c := '{') (by decide), hskip]
  split
  · next he => cases he
  · next he => exact absurd (Option.some.inj (List.cons.inj he).1) (by decide)
  · rw [h]
    rfl

theorem readsValues_succ {fuel : Nat} (hitems : ReadsItems fuel) (hmembers : ReadsMembers fuel) :
    ReadsValues (fuel + 1) := by
  intro v t s h hfuel hs
  cases h with
  | null => exact named_of_name .null ['u', 'l', 'l'] s
  | yes => exact named_of_name (.bool true) ['r', 'u', 'e'] s
  | no => exact named_of_name (.bool false) ['a', 'l', 's', 'e'] s
  | number h =>
    obtain ⟨c, rest, rfl, hc⟩ := exists_cons_of_number h
    exact value_number hc (number_of_spells h hs)
  | string h =>
    rw [List.cons_append, List.map_cons, List.cons_append, List.map_append, List.append_assoc]
    exact value_string h s
  | emptyArray hb =>
    rw [List.cons_append, List.map_cons, List.cons_append, List.map_append, List.append_assoc]
    exact value_emptyArray ((skipSpace_blank hb _).trans (skipSpace_cons (by decide) s))
  | array h =>
    simp only [List.length_append, List.length_cons, List.length_nil] at hfuel
    rw [List.cons_append, List.map_cons, List.cons_append, List.map_append, List.append_assoc]
    obtain ⟨c, tail, htail, hc⟩ := skipSpace_items h (some ']' :: s)
    exact value_array htail hc.2 (hitems h (by omega))
  | emptyObject hb =>
    rw [List.cons_append, List.map_cons, List.cons_append, List.map_append, List.append_assoc]
    exact value_emptyObject ((skipSpace_blank hb _).trans (skipSpace_cons (by decide) s))
  | object h =>
    simp only [List.length_append, List.length_cons, List.length_nil] at hfuel
    rw [List.cons_append, List.map_cons, List.cons_append, List.map_append, List.append_assoc]
    obtain ⟨tail, htail⟩ := skipSpace_members h (some '}' :: s)
    exact value_object htail (hmembers h (by omega))

theorem readsItems_succ {fuel : Nat} (hvalues : ReadsValues fuel) (hitems : ReadsItems fuel) :
    ReadsItems (fuel + 1) := by
  intro vs t s h hfuel
  cases h with
  | one h =>
    have hends : Ends (some ']' :: s) := ends_cons (by decide)
    obtain ⟨rest, hread, hskip⟩ := hvalues.pads h (by omega) hends
    rw [items, hread]
    simp only [hskip, skipSpace_cons (c := ']') (by decide)]
  | @more v vs t ts h hs =>
    simp only [List.length_append, List.length_cons] at hfuel
    rw [List.map_append, List.map_cons, List.append_assoc, List.cons_append]
    have hends : Ends (some ',' :: (ts.map some ++ some ']' :: s)) := ends_cons (by decide)
    obtain ⟨rest, hread, hskip⟩ := hvalues.pads h (by omega) hends
    obtain ⟨c, tail, htail, hc⟩ := skipSpace_items hs (some ']' :: s)
    rw [items, hread]
    simp only [hskip, skipSpace_cons (c := ',') (by decide), htail, hitems hs (s := s) (by omega)]
    split
    · next he => exact absurd (Option.some.inj (List.cons.inj he).1) hc.2
    · rfl

theorem readsMembers_succ {fuel : Nat} (hvalues : ReadsValues fuel) (hmembers : ReadsMembers fuel) :
    ReadsMembers (fuel + 1) := by
  intro ms t s h hfuel
  cases h with
  | one hk h =>
    simp only [List.length_append] at hfuel
    have hends : Ends (some '}' :: s) := ends_cons (by decide)
    obtain ⟨rest, hread, hskip⟩ := hvalues.pads h (by omega) hends
    rw [List.map_append, List.append_assoc]
    obtain ⟨kt, b, hkt, hb, hkey⟩ := skipSpace_key hk (_ ++ some '}' :: s)
    rw [members, hkey]
    simp only [string_of_chars hkt, skipSpace_blank hb, skipSpace_cons (c := ':') (by decide), hread,
      hskip, skipSpace_cons (c := '}') (by decide)]
    rfl
  | @more k v ms kt t ts hk h hs =>
    simp only [List.length_append, List.length_cons] at hfuel
    have hends : Ends (some ',' :: (ts.map some ++ some '}' :: s)) := ends_cons (by decide)
    obtain ⟨rest, hread, hskip⟩ := hvalues.pads h (by omega) hends
    simp only [List.map_append, List.map_cons, List.append_assoc, List.cons_append]
    obtain ⟨kt, b, hkt, hb, hkey⟩ := skipSpace_key hk
      (t.map some ++ some ',' :: (ts.map some ++ some '}' :: s))
    rw [members, hkey]
    simp only [string_of_chars hkt, skipSpace_blank hb, skipSpace_cons (c := ':') (by decide), hread,
      hskip, skipSpace_cons (c := ',') (by decide), hmembers hs (s := s) (by omega)]
    rfl

/-- With every fuel all is read that it suffices for. -/
theorem reads (fuel : Nat) : ReadsValues fuel ∧ ReadsItems fuel ∧ ReadsMembers fuel := by
  induction fuel with
  | zero =>
    refine ⟨fun v t s h hfuel => ?_, fun vs t s h hfuel => ?_, fun ms t s h hfuel => ?_⟩
    · obtain ⟨c, rest, rfl, -⟩ := exists_starts h
      exact absurd hfuel (by simp)
    · omega
    · omega
  | succ fuel ih =>
    obtain ⟨hvalues, hitems, hmembers⟩ := ih
    exact ⟨readsValues_succ hitems hmembers, readsItems_succ hvalues hitems,
      readsMembers_succ hvalues hmembers⟩

/-- What is spelled is scanned, and nothing follows it. -/
theorem document_of_pads {v : Document} {t : List Char} (h : Pads v t) :
    document (t.map some) = (v, false) := by
  have hvalues := (reads (2 * (t.map (some : Char → Symbol)).length + 2)).1
  have hends : Ends [] := fun c hc => by cases hc
  obtain ⟨rest, hread, hskip⟩ := hvalues.pads h (by rw [List.length_map]; omega) hends
  rw [List.append_nil] at hread
  rw [document, hread]
  simp only [hskip]
  rfl

end Scan

/-- A text that spells a document is read as the document is. -/
theorem readText_of_pads {α : Type} {v : Document} {s : String} (h : Pads v s.toList)
    (reader : Document → Except Category α) : readText reader (symbols s) = reader v := by
  have hdocument : Scan.document (symbols s) = (v, false) := Scan.document_of_pads h
  rw [readText, hdocument]
  cases hv : reader v <;> simp [hv, bind, Except.bind]

end ServiceCall.Json
