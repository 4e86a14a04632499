import Mathlib.Algebra.Group.Int.Defs
import Mathlib.Algebra.Group.Nat.Defs
import Mathlib.Tactic.SplitIfs
import ServiceCall.Wire.Varint
/-!
# Numbers are read back from the wire

What is written for a number, a key or a byte string is read back with whatever stands
behind it, and what is read is in the range of what can be written: numbers below `2 ^ 64`
(`readVarint_writeVarint`, `lt_of_readVarint`), words of a fixed size
(`readFixed_writeFixed`, `lt_of_readFixed`), and field numbers from 1 below `2 ^ 29`
(`readKey_writeKey`, `number_of_readKey`).
-/

namespace ServiceCall.Wire

/-! ## Varints -/

theorem writeVarint_of_lt {n : Nat} (h : n < 128) : writeVarint n = [UInt8.ofNat n] := by
  rw [writeVarint, if_pos h]

theorem writeVarint_of_le {n : Nat} (h : 128 ≤ n) :
    writeVarint n = UInt8.ofNat (n % 128 + 128) :: writeVarint (n / 128) := by
  rw [writeVarint, if_neg (Nat.not_lt.2 h)]

theorem length_writeVarint_pos (n : Nat) : 0 < (writeVarint n).length := by
  rcases Nat.lt_or_ge n 128 with h | h
  · simp [writeVarint_of_lt h]
  · simp [writeVarint_of_le h]

/-- With room for `left + 1` bytes, a number of `7 * left + 1` bits is read back. -/
theorem readVarintFrom_writeVarint {left n : Nat} (h : n < 2 ^ (7 * left + 1)) (rest : Bytes) :
    readVarintFrom (left + 1) (writeVarint n ++ rest) = .ok (n, rest) := by
  induction left generalizing n with
  | zero =>
    have hn : n < 2 := by simpa using h
    have hb : (UInt8.ofNat n).toNat = n := by
      rw [UInt8.toNat_ofNat', Nat.mod_eq_of_lt (by omega)]
    rw [writeVarint_of_lt (by omega), List.singleton_append, readVarintFrom]
    simp only [UInt8.lt_iff_toNat_lt, UInt8.le_iff_toNat_le, hb, UInt8.reduceToNat]
    rw [if_pos (show n < 128 by omega), if_neg (show ¬(True ∧ 2 ≤ n) by omega)]
  | succ left ih =>
    rcases Nat.lt_or_ge n 128 with hn | hn
    · have hb : (UInt8.ofNat n).toNat = n := by
        rw [UInt8.toNat_ofNat', Nat.mod_eq_of_lt (by omega)]
      rw [writeVarint_of_lt hn, List.singleton_append, readVarintFrom]
      simp only [UInt8.lt_iff_toNat_lt, hb, UInt8.reduceToNat]
      rw [if_pos (show n < 128 by omega), if_neg (by omega)]
    · have hb : (UInt8.ofNat (n % 128 + 128)).toNat = n % 128 + 128 := by
        rw [UInt8.toNat_ofNat', Nat.mod_eq_of_lt (by omega)]
      have hq : n / 128 < 2 ^ (7 * left + 1) := by
        rw [Nat.div_lt_iff_lt_mul (by decide)]
        calc n < 2 ^ (7 * (left + 1) + 1) := h
          _ = 2 ^ (7 * left + 1) * 128 := by
            rw [show 7 * (left + 1) + 1 = 7 * left + 1 + 7 by omega, Nat.pow_add]
      rw [writeVarint_of_le hn, List.cons_append, readVarintFrom]
      simp only [UInt8.lt_iff_toNat_lt, hb, UInt8.reduceToNat]
      rw [if_neg (show ¬n % 128 + 128 < 128 by omega), ih hq]
      simp only [Except.map, Except.ok.injEq, Prod.mk.injEq, and_true]
      omega

/-- A number that is read from at most `left + 1` bytes has at most `7 * left + 1` bits. -/
theorem lt_of_readVarintFrom {left n : Nat} {s rest : Bytes}
    (h : readVarintFrom (left + 1) s = .ok (n, rest)) : n < 2 ^ (7 * left + 1) := by
  induction left generalizing n s rest with
  | zero =>
    cases s with
    | nil => simp [readVarintFrom] at h
    | cons b s =>
      rw [readVarintFrom] at h
      split_ifs at h with hb h2
      · obtain ⟨rfl, -⟩ : b.toNat = n ∧ s = rest := by simpa using h
        simpa [UInt8.le_iff_toNat_le] using h2
      · cases s <;> simp [readVarintFrom, Except.map] at h
  | succ left ih =>
    cases s with
    | nil => simp [readVarintFrom] at h
    | cons b s =>
      rw [readVarintFrom] at h
      have hbound : 2 ^ (7 * (left + 1) + 1) = 128 * 2 ^ (7 * left + 1) := by
        rw [show 7 * (left + 1) + 1 = 7 + (7 * left + 1) by omega, Nat.pow_add _ 7]
      have hpos : 0 < 2 ^ (7 * left + 1) := Nat.two_pow_pos _
      rw [hbound]
      split_ifs at h with hb h2
      · obtain ⟨rfl, -⟩ : b.toNat = n ∧ s = rest := by simpa using h
        have : b.toNat < 128 := by simpa [UInt8.lt_iff_toNat_lt] using hb
        omega
      · cases hr : readVarintFrom (left + 1) s with
        | error e => simp [hr, Except.map] at h
        | ok v =>
          obtain ⟨m, r⟩ := v
          obtain ⟨rfl, -⟩ : b.toNat % 128 + 128 * m = n ∧ r = rest := by
            simpa [hr, Except.map] using h
          have := ih hr
          omega

theorem readVarint_writeVarint {n : Nat} (h : n < 2 ^ 64) (rest : Bytes) :
    readVarint (writeVarint n ++ rest) = .ok (n, rest) :=
  readVarintFrom_writeVarint h rest

theorem lt_of_readVarint {n : Nat} {s rest : Bytes} (h : readVarint s = .ok (n, rest)) :
    n < 2 ^ 64 :=
  lt_of_readVarintFrom h

/-! ## Words of a fixed size -/

theorem length_writeFixed (size n : Nat) : (writeFixed size n).length = size := by
  induction size generalizing n with
  | zero => rfl
  | succ size ih => simp [writeFixed, ih]

theorem fixedValue_writeFixed {size n : Nat} (h : n < 256 ^ size) :
    fixedValue (writeFixed size n) = n := by
  induction size generalizing n with
  | zero =>
    obtain rfl : n = 0 := by simpa using h
    rfl
  | succ size ih =>
    have hq : n / 256 < 256 ^ size := by
      rw [Nat.div_lt_iff_lt_mul (by decide), ← Nat.pow_succ]
      exact h
    rw [writeFixed, fixedValue, ih hq, UInt8.toNat_ofNat']
    omega

theorem fixedValue_lt (s : Bytes) : fixedValue s < 256 ^ s.length := by
  induction s with
  | nil => decide
  | cons b s ih =>
    have := b.toNat_lt
    rw [fixedValue, List.length_cons, Nat.pow_succ]
    omega

theorem readFixed_writeFixed {size n : Nat} (h : n < 256 ^ size) (rest : Bytes) :
    readFixed size (writeFixed size n ++ rest) = .ok (n, rest) := by
  have hl := length_writeFixed size n
  rw [readFixed, if_neg (by simp [hl]), List.take_append_of_le_length (by omega),
    List.take_of_length_le (by omega), fixedValue_writeFixed h]
  rw [List.drop_append_of_le_length (by omega), List.drop_of_length_le (by omega), List.nil_append]

theorem lt_of_readFixed {size n : Nat} {s rest : Bytes} (h : readFixed size s = .ok (n, rest)) :
    n < 256 ^ size := by
  unfold readFixed at h
  split_ifs at h with hs
  obtain ⟨rfl, -⟩ : fixedValue (s.take size) = n ∧ s.drop size = rest := by simpa using h
  have := fixedValue_lt (s.take size)
  rwa [List.length_take, Nat.min_eq_left (by omega)] at this

/-! ## Byte strings -/

theorem readDelimited_writeDelimited {bytes : Bytes} (h : bytes.length < 2 ^ 64) (rest : Bytes) :
    readDelimited (writeDelimited bytes ++ rest) = .ok (bytes, rest) := by
  rw [readDelimited, writeDelimited, List.append_assoc, readVarint_writeVarint h]
  simp [bind, Except.bind]

/-! ## Signed numbers -/

theorem two_pow_eq_double {bits : Nat} (h : 1 ≤ bits) : 2 ^ bits = 2 * 2 ^ (bits - 1) := by
  obtain ⟨b, rfl⟩ : ∃ b, bits = b + 1 := ⟨bits - 1, by omega⟩
  rw [Nat.add_sub_cancel, Nat.pow_succ, Nat.mul_comm]

theorem ofSigned_cast (bits : Nat) (i : Int) : (ofSigned bits i : Int) = i % (2 ^ bits : Nat) := by
  have hpos : (0 : Int) < (2 ^ bits : Nat) := Int.natCast_pos.2 (Nat.two_pow_pos bits)
  rw [ofSigned, Nat.pow_eq, Int.toNat_of_nonneg (Int.emod_nonneg i (Int.ne_of_gt hpos))]

theorem ofSigned_lt (bits : Nat) (i : Int) : ofSigned bits i < 2 ^ bits := by
  have hpos : (0 : Int) < (2 ^ bits : Nat) := Int.natCast_pos.2 (Nat.two_pow_pos bits)
  have hlt := Int.emod_lt_of_pos i hpos
  rw [← ofSigned_cast] at hlt
  exact Int.ofNat_lt.1 hlt

theorem ofSigned_of_nonneg {bits : Nat} {i : Int} (h0 : 0 ≤ i) (h : i < (2 ^ bits : Nat)) :
    (ofSigned bits i : Int) = i := by
  rw [ofSigned_cast, Int.emod_eq_of_lt h0 h]

/-- A number of few bits is read back from as many or more. -/
theorem toSigned_ofSigned {bits wide : Nat} (hbits : 1 ≤ bits) (hwide : bits ≤ wide) {i : Int}
    (hl : -(2 ^ (bits - 1) : Nat) ≤ i) (hh : i < (2 ^ (bits - 1) : Nat)) :
    toSigned bits (ofSigned wide i) = i := by
  have hpos : (0 : Int) < (2 ^ bits : Nat) := Int.natCast_pos.2 (Nat.two_pow_pos bits)
  have htwo := two_pow_eq_double hbits
  have hmod : ((ofSigned wide i % 2 ^ bits : Nat) : Int) = i % (2 ^ bits : Nat) := by
    rw [Int.natCast_emod, ofSigned_cast]
    exact Int.emod_emod_of_dvd i (Int.natCast_dvd_natCast.2 (Nat.pow_dvd_pow 2 hwide))
  unfold toSigned
  simp only [Nat.pow_eq]
  by_cases hneg : i < 0
  · have hi : i % (2 ^ bits : Nat) = i + (2 ^ bits : Nat) := by
      rw [← Int.add_emod_right, Int.emod_eq_of_lt (by omega) (by omega)]
    rw [hi] at hmod
    rw [if_neg (by omega)]
    omega
  · have hi : i % (2 ^ bits : Nat) = i := Int.emod_eq_of_lt (by omega) (by omega)
    rw [hi] at hmod
    rw [if_pos (by omega)]
    omega

theorem toSigned_bounds {bits : Nat} (hbits : 1 ≤ bits) (n : Nat) :
    -(2 ^ (bits - 1) : Nat) ≤ toSigned bits n ∧ toSigned bits n < (2 ^ (bits - 1) : Nat) := by
  have htwo := two_pow_eq_double hbits
  have hlt : n % 2 ^ bits < 2 ^ bits := Nat.mod_lt _ (Nat.two_pow_pos bits)
  unfold toSigned
  simp only [Nat.pow_eq]
  split_ifs <;> omega

theorem zigzag_lt {bits : Nat} {i : Int} (hl : -(2 ^ bits : Nat) ≤ i) (hh : i < (2 ^ bits : Nat)) :
    zigzag i < 2 ^ (bits + 1) := by
  rw [Nat.pow_succ]
  unfold zigzag
  split_ifs <;> omega

theorem unzigzag_bounds {bits n : Nat} (h : n < 2 ^ (bits + 1)) :
    -(2 ^ bits : Nat) ≤ unzigzag n ∧ unzigzag n < (2 ^ bits : Nat) := by
  rw [Nat.pow_succ] at h
  unfold unzigzag
  split_ifs <;> omega

/-! ## Keys -/

theorem WireType.code_lt (t : WireType) : t.code < 8 := by cases t <;> decide

theorem readKey_writeKey {number : Nat} (hpos : 1 ≤ number) (hlt : number < 2 ^ 29) (t : WireType)
    (rest : Bytes) : readKey (writeKey number t ++ rest) = .ok (number, t, rest) := by
  have hcode := t.code_lt
  have hmod : (8 * number + t.code) % 8 = t.code := by omega
  have hdiv : (8 * number + t.code) / 8 = number := by omega
  rw [readKey, writeKey, readVarint_writeVarint (by omega)]
  simp only [bind, Except.bind, hmod, hdiv, WireType.ofCode?_code]
  rw [if_neg (by omega), if_neg (by omega)]

theorem number_of_readKey {number : Nat} {t : WireType} {s rest : Bytes}
    (h : readKey s = .ok (number, t, rest)) : 1 ≤ number ∧ number < 2 ^ 29 := by
  unfold readKey at h
  cases hv : readVarint s with
  | error e => simp [hv, bind, Except.bind] at h
  | ok v =>
    obtain ⟨key, r⟩ := v
    simp only [hv, bind, Except.bind] at h
    cases ht : WireType.ofCode? (key % 8) with
    | none =>
      simp only [ht] at h
      split_ifs at h
    | some u =>
      simp only [ht] at h
      split_ifs at h with hkey hz
      obtain ⟨rfl, -⟩ : key / 8 = number ∧ u = t ∧ r = rest := by simpa using h
      omega

theorem length_writeKey_pos (number : Nat) (t : WireType) : 0 < (writeKey number t).length :=
  length_writeVarint_pos _

end ServiceCall.Wire
