import Mathlib.Tactic.SplitIfs
import ServiceCall.Text.Base64
/-!
# Base 64 is read as it was written

The symbols of bytes are read group by group (`readGroups_symbols`); the last group may be a
short one with its padding. So bytes are read back from their text (`decode_text`).
-/

namespace ServiceCall.Base64

/-- The byte that stands for a symbol. -/
def symbolByte (n : Nat) : UInt8 := UInt8.ofNat (symbol standard n).toNat

/-- A symbol is one byte, which has its six bits and is no padding. -/
theorem symbol_spec : ∀ n < 64, String.utf8EncodeChar (symbol standard n) = [symbolByte n] ∧
    value? standard (symbolByte n) = some n ∧ symbolByte n ≠ pad := by
  decide

/-- The bytes of the text that is written for bytes. -/
def symbols (bytes : Bytes) : Bytes := (encodeChars standard bytes).flatMap String.utf8EncodeChar

/-! ## Groups -/

theorem symbols_two (x : UInt8) : symbols [x] =
    [symbolByte (x.toNat / 4), symbolByte (x.toNat % 4 * 16), pad, pad] := by
  have hx := x.toNat_lt
  have hpad : String.utf8EncodeChar '=' = [pad] := by decide
  simp only [symbols, encodeChars, List.flatMap_cons, List.flatMap_nil, hpad,
    (symbol_spec (x.toNat / 4) (by omega)).1, (symbol_spec (x.toNat % 4 * 16) (by omega)).1]
  rfl

theorem symbols_three (x y : UInt8) : symbols [x, y] =
    [symbolByte (x.toNat / 4), symbolByte (x.toNat % 4 * 16 + y.toNat / 16),
      symbolByte (y.toNat % 16 * 4), pad] := by
  have hx := x.toNat_lt
  have hy := y.toNat_lt
  have hpad : String.utf8EncodeChar '=' = [pad] := by decide
  simp only [symbols, encodeChars, List.flatMap_cons, List.flatMap_nil, hpad,
    (symbol_spec (x.toNat / 4) (by omega)).1,
    (symbol_spec (x.toNat % 4 * 16 + y.toNat / 16) (by omega)).1,
    (symbol_spec (y.toNat % 16 * 4) (by omega)).1]
  rfl

theorem symbols_four (x y z : UInt8) (rest : Bytes) : symbols (x :: y :: z :: rest) =
    symbolByte (x.toNat / 4) :: symbolByte (x.toNat % 4 * 16 + y.toNat / 16) ::
      symbolByte (y.toNat % 16 * 4 + z.toNat / 64) :: symbolByte (z.toNat % 64) ::
        symbols rest := by
  have hx := x.toNat_lt
  have hy := y.toNat_lt
  have hz := z.toNat_lt
  simp only [symbols, encodeChars, List.flatMap_cons,
    (symbol_spec (x.toNat / 4) (by omega)).1,
    (symbol_spec (x.toNat % 4 * 16 + y.toNat / 16) (by omega)).1,
    (symbol_spec (y.toNat % 16 * 4 + z.toNat / 64) (by omega)).1,
    (symbol_spec (z.toNat % 64) (by omega)).1]
  rfl

theorem ofNat_eq {x : UInt8} {n : Nat} (h : n = x.toNat) : UInt8.ofNat n = x := by
  rw [h, UInt8.ofNat_toNat]

theorem join_four (x y z : UInt8) :
    join [x.toNat / 4, x.toNat % 4 * 16 + y.toNat / 16, y.toNat % 16 * 4 + z.toNat / 64,
      z.toNat % 64] = [x, y, z] := by
  have hy := y.toNat_lt
  have hz := z.toNat_lt
  rw [join, ofNat_eq (x := x) (by omega), ofNat_eq (x := y) (by omega),
    ofNat_eq (x := z) (by omega)]

theorem join_three (x y : UInt8) :
    join [x.toNat / 4, x.toNat % 4 * 16 + y.toNat / 16, y.toNat % 16 * 4] = [x, y] := by
  have hy := y.toNat_lt
  rw [join, ofNat_eq (x := x) (by omega), ofNat_eq (x := y) (by omega)]

theorem join_two (x : UInt8) : join [x.toNat / 4, x.toNat % 4 * 16] = [x] := by
  rw [join, ofNat_eq (x := x) (by omega)]

/-! ## The last group -/

theorem readLast_symbol {n : Nat} (h : n < 64) (start count : Nat) (values : List Nat)
    (rest : Bytes) : readLast standard start count none values (symbolByte n :: rest) =
      readLast standard start (count + 1) none (values ++ [n]) rest := by
  obtain ⟨-, hvalue, hpad⟩ := symbol_spec n h
  rw [readLast, if_neg hpad, hvalue]

theorem readLast_pad {count : Nat} (h : 2 ≤ count) (start : Nat) (padding : Option Nat)
    (values : List Nat) (rest : Bytes) :
    readLast standard start count padding values (pad :: rest) =
      readLast standard start (count + 1) (some (padding.getD count)) values rest := by
  rw [readLast.eq_def]
  simp only [if_true, if_neg (Nat.not_lt.2 h)]

theorem readLast_nil {values : List Nat} (h : 2 ≤ values.length) (start count : Nat)
    (padding : Option Nat) :
    readLast standard start count padding values [] = .ok (join values) := by
  unfold readLast
  refine if_neg fun hshort => ?_
  obtain hone | ⟨hempty, -⟩ := hshort
  · omega
  · rw [List.isEmpty_iff.1 hempty] at h
    cases h

theorem readGroups_two (start : Nat) (x : UInt8) :
    readGroups standard start (symbols [x]) = .ok [x] := by
  have hx := x.toNat_lt
  rw [symbols_two, readGroups, readLast_symbol (by omega), readLast_symbol (by omega),
    readLast_pad (by omega), readLast_pad (by omega), readLast_nil (by simp)]
  · exact congrArg Except.ok (join_two x)
  · simp

theorem readGroups_three (start : Nat) (x y : UInt8) :
    readGroups standard start (symbols [x, y]) = .ok [x, y] := by
  have hx := x.toNat_lt
  have hy := y.toNat_lt
  rw [symbols_three, readGroups, readLast_symbol (by omega), readLast_symbol (by omega),
    readLast_symbol (by omega), readLast_pad (by omega), readLast_nil (by simp)]
  · exact congrArg Except.ok (join_three x y)
  · simp

theorem readGroups_four (start : Nat) (x y z : UInt8) :
    readGroups standard start (symbols [x, y, z]) = .ok [x, y, z] := by
  have hx := x.toNat_lt
  have hy := y.toNat_lt
  have hz := z.toNat_lt
  have hnil : symbols [] = [] := rfl
  rw [symbols_four, hnil, readGroups, readLast_symbol (by omega), readLast_symbol (by omega),
    readLast_symbol (by omega), readLast_symbol (by omega), readLast_nil (by simp)]
  · exact congrArg Except.ok (join_four x y z)
  · simp

/-! ## All groups -/

theorem symbols_ne_nil {bytes : Bytes} (h : bytes ≠ []) : symbols bytes ≠ [] := by
  match bytes, h with
  | [x], _ => simp [symbols_two]
  | [x, y], _ => simp [symbols_three]
  | x :: y :: z :: rest, _ => simp [symbols_four]

/-- Groups of symbols are read as the bytes that they were written for. -/
theorem readGroups_symbols (start : Nat) {bytes : Bytes} (h : bytes ≠ []) :
    readGroups standard start (symbols bytes) = .ok bytes := by
  match bytes, h with
  | [x], _ => exact readGroups_two start x
  | [x, y], _ => exact readGroups_three start x y
  | [x, y, z], _ => exact readGroups_four start x y z
  | x :: y :: z :: w :: rest, _ =>
    have hx := x.toNat_lt
    have hy := y.toNat_lt
    have hz := z.toNat_lt
    have hne : w :: rest ≠ [] := List.cons_ne_nil w rest
    have hrest := readGroups_symbols (start + 4) hne
    obtain ⟨e, more, hmore⟩ := List.exists_cons_of_ne_nil (symbols_ne_nil hne)
    rw [hmore] at hrest
    rw [symbols_four, hmore, readGroups, (symbol_spec (x.toNat / 4) (by omega)).2.1,
      (symbol_spec (x.toNat % 4 * 16 + y.toNat / 16) (by omega)).2.1,
      (symbol_spec (y.toNat % 16 * 4 + z.toNat / 64) (by omega)).2.1,
      (symbol_spec (z.toNat % 64) (by omega)).2.1]
    simp only [hrest, join_four]
    rfl

theorem length_symbols_mod (bytes : Bytes) : (symbols bytes).length % 4 = 0 := by
  match bytes with
  | [] => rfl
  | [x] => simp [symbols_two]
  | [x, y] => simp [symbols_three]
  | x :: y :: z :: rest =>
    have hrest := length_symbols_mod rest
    simp only [symbols_four, List.length_cons]
    omega

/-- Bytes are read back from their text. -/
theorem decode_text (bytes : Bytes) : decode (encode bytes) = .ok bytes := by
  have hutf8 : utf8 (encode bytes) = symbols bytes := by
    rw [utf8, encode, String.toList_ofList]
    rfl
  have hread : readWith standard (symbols bytes) = .ok bytes := by
    by_cases hnil : bytes = []
    · subst hnil
      rfl
    · have hlength := length_symbols_mod bytes
      rw [readWith, List.getLast?_eq_some_getLast (symbols_ne_nil hnil)]
      simp only
      rw [if_neg (by omega)]
      exact readGroups_symbols 0 hnil
  rw [decode, hutf8]
  simp only [hread]

end ServiceCall.Base64
