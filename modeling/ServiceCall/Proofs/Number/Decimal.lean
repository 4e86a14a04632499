import Mathlib.Tactic.SplitIfs
import ServiceCall.Proofs.Number.Range
import ServiceCall.WellKnown.Time
/-!
# Decimal texts

The digits that are written for a number stand for it (`digitsValue_toDigits`), with zeros in
front too (`digitsValue_padded`), and an integer of a range is read back from its text
(`IntegerRange.read_toString`).
-/

namespace ServiceCall

/-! ## Digits -/

theorem digit?_of_isDigit {c : Char} (h : c.isDigit = true) : digit? c = some (c.toNat - 48) := by
  refine if_pos ?_
  simp only [Char.isDigit, Bool.and_eq_true, decide_eq_true_eq, ge_iff_le, UInt32.le_iff_toNat_le] at h
  exact h

theorem digit?_digitChar {d : Nat} (h : d < 10) : digit? d.digitChar = some d := by
  rw [digit?_of_isDigit (by rw [Nat.isDigit_digitChar, decide_eq_true h]),
    Nat.toNat_digitChar_sub_48_of_lt_ten h]

theorem isDigit_of_mem_toDigits {n : Nat} {c : Char} (h : c ∈ Nat.toDigits 10 n) :
    isDigit c = true := by
  rw [isDigit, digit?_of_isDigit (Nat.isDigit_of_mem_toDigits (by decide) (by decide) h)]
  rfl

/-- The number that digits make of the one in front of them. -/
def digitsFrom (before : Nat) (ds : List Char) : Nat :=
  ds.foldl (fun n c => 10 * n + (digit? c).getD 0) before

theorem digitsFrom_cons (before : Nat) (c : Char) (rest : List Char) :
    digitsFrom before (c :: rest) = digitsFrom (10 * before + (digit? c).getD 0) rest := rfl

theorem le_digitsFrom (before : Nat) (ds : List Char) : before ≤ digitsFrom before ds := by
  induction ds generalizing before with
  | nil => exact Nat.le_refl before
  | cons c rest ih => exact Nat.le_trans (by omega) (ih (10 * before + (digit? c).getD 0))

theorem digitsFrom_eq_ofDigitChars (before : Nat) {ds : List Char}
    (h : ∀ c ∈ ds, c.isDigit = true) : digitsFrom before ds = Nat.ofDigitChars 10 ds before := by
  rw [Nat.ofDigitChars_eq_foldl]
  induction ds generalizing before with
  | nil => rfl
  | cons c rest ih =>
    rw [digitsFrom_cons, List.foldl_cons, digit?_of_isDigit (h c List.mem_cons_self)]
    exact ih _ fun d hd => h d (.tail _ hd)

/-- The digits of a number stand for it. -/
@[simp]
theorem digitsValue_toDigits (n : Nat) : digitsValue (Nat.toDigits 10 n) = n :=
  (digitsFrom_eq_ofDigitChars 0 fun _ hc =>
    Nat.isDigit_of_mem_toDigits (by decide) (by decide) hc).trans Nat.ofDigitChars_ten_toDigits

/-! ## Leading zeros -/

theorem isDigit_of_mem_padded {width n : Nat} {c : Char} (h : c ∈ padded width n) :
    isDigit c = true := by
  obtain h | h := List.mem_append.1 h
  · rw [List.eq_of_mem_replicate h]
    rfl
  · exact isDigit_of_mem_toDigits h

/-- Zeros in front of a number change nothing. -/
@[simp]
theorem digitsValue_padded (width n : Nat) : digitsValue (padded width n) = n := by
  have hzeros (k : Nat) : (List.replicate k '0').foldl (fun n c => 10 * n + (digit? c).getD 0) 0 = 0 := by
    induction k with
    | zero => rfl
    | succ k ih => exact ih
  rw [padded, digitsValue, List.foldl_append, hzeros]
  exact digitsValue_toDigits n

theorem length_padded {width n : Nat} (hw : 0 < width) (h : n < 10 ^ width) :
    (padded width n).length = width := by
  have hlength := (Nat.length_toDigits_le_iff (by decide) hw).2 h
  rw [padded, List.length_append, List.length_replicate]
  omega

theorem padded_ne_nil (width n : Nat) : padded width n ≠ [] := by
  rw [padded]
  exact List.append_ne_nil_of_right_ne_nil _ Nat.toDigits_ne_nil

/-- The first two of a run of digits. -/
theorem two?_of_isDigit {a b : Char} (ha : isDigit a = true) (hb : isDigit b = true) :
    Timestamp.two? a b = some (digitsValue [a, b]) := by
  obtain ⟨m, hm⟩ := Option.isSome_iff_exists.1 ha
  obtain ⟨n, hn⟩ := Option.isSome_iff_exists.1 hb
  simp [Timestamp.two?, digitsValue, hm, hn]

/-! ## Integers -/

namespace IntegerRange

variable {r : IntegerRange}

/-- An integer by its sign and its magnitude. -/
def signed (negative : Bool) (n : Nat) : Int := if negative then -n else n

/-- Digits are read as the number that they make, if that is in range. -/
theorem readDigits_eq_ok (hr : r.mem 0 = true) {ds : List Char} (hds : ∀ c ∈ ds, isDigit c = true)
    (negative : Bool) (before : Nat) (h : r.mem (signed negative (digitsFrom before ds)) = true) :
    r.readDigits negative (signed negative before) ds =
      .ok (signed negative (digitsFrom before ds)) := by
  induction ds generalizing before with
  | nil => rw [readDigits]; rfl
  | cons c rest ih =>
    obtain ⟨d, hd⟩ := Option.isSome_iff_exists.1 (hds c List.mem_cons_self)
    rw [digitsFrom_cons, hd, Option.getD_some] at h ⊢
    have hrest := ih (fun e he => hds e (.tail _ he)) (10 * before + d) h
    have hle := le_digitsFrom (10 * before + d) rest
    rw [mem_iff] at h hr
    rw [readDigits, hd, ← hrest]
    -- The number read so far is no greater than the whole, so it is in range too.
    cases negative with
    | true =>
      simp only [signed, if_true] at h ⊢
      rw [if_neg (by omega), if_neg (by omega)]
      congr 1
      omega
    | false =>
      simp only [signed, Bool.false_eq_true, if_false] at h ⊢
      rw [if_neg (by omega), if_neg (by omega)]
      congr 1

theorem readDigits_toDigits (hr : r.mem 0 = true) (negative : Bool) {n : Nat}
    (h : r.mem (signed negative n) = true) :
    r.readDigits negative 0 (Nat.toDigits 10 n) = .ok (signed negative n) := by
  have hvalue : digitsFrom 0 (Nat.toDigits 10 n) = n := digitsValue_toDigits n
  have hzero : signed negative 0 = 0 := by cases negative <;> rfl
  have hread := readDigits_eq_ok hr (fun c hc => isDigit_of_mem_toDigits (n := n) hc) negative 0
    (by rwa [hvalue])
  rwa [hvalue, hzero] at hread

/-- The first of some digits is no sign. -/
theorem read_of_isDigit {c : Char} (hc : isDigit c = true) (rest : List Char) :
    r.read (c :: rest) = r.readDigits false 0 (c :: rest) := by
  have hplus : c ≠ '+' := fun h => by rw [h] at hc; exact absurd hc (by decide)
  have hminus : c ≠ '-' := fun h => by rw [h] at hc; exact absurd hc (by decide)
  unfold read
  split <;> simp_all

/-- An integer of a range is read back from its text. -/
theorem read_toString (hr : r.mem 0 = true) {i : Int} (hi : r.mem i = true) :
    r.read (toString i).toList = .ok i := by
  cases i with
  | ofNat n =>
    have htext : (toString (Int.ofNat n)).toList = Nat.toDigits 10 n := Nat.toList_repr
    obtain ⟨c, rest, hds⟩ := List.exists_cons_of_ne_nil (Nat.toDigits_ne_nil (n := n) (b := 10))
    have hc : isDigit c = true := isDigit_of_mem_toDigits (n := n) (hds ▸ List.mem_cons_self)
    rw [htext, hds, read_of_isDigit hc, ← hds]
    exact readDigits_toDigits hr false hi
  | negSucc n =>
    have htext : (toString (Int.negSucc n)).toList = '-' :: Nat.toDigits 10 (n + 1) := by
      have : toString (Int.negSucc n) = "-" ++ (n + 1).repr := rfl
      rw [this, String.toList_append, Nat.toList_repr]
      rfl
    obtain ⟨c, rest, hds⟩ := List.exists_cons_of_ne_nil (Nat.toDigits_ne_nil (n := n + 1) (b := 10))
    have hsigned : r.isSigned = true := by
      rw [mem_iff] at hi
      simp only [isSigned, decide_eq_true_eq]
      omega
    have hread := readDigits_toDigits hr true (n := n + 1) hi
    rw [hds] at hread
    rw [htext, hds, read, if_pos hsigned, hread]
    · rfl
    · simp

end IntegerRange

end ServiceCall
