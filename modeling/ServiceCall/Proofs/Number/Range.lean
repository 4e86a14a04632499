import Mathlib.Algebra.Group.Int.Defs
import Mathlib.Algebra.Group.Nat.Defs
import Mathlib.Tactic.SplitIfs
import ServiceCall.Message.Json.Scalar
/-!
# The ranges of numbers

A floating-point number has bits when the number of its magnitude leaves room for the sign.
Such a number is what its bits say (`ofBits_toBits`), and every number that is rounded,
converted or read from a literal is one (`hasBits_ofJson`). An integer that is read for a
range lies in it, whether it was given as an integer, as a whole floating-point number or as
a text (`mem_ofJson`).
-/

namespace ServiceCall

/-! ## Bits -/

namespace Floating

variable {f : Format}

/-- A whole number that is not below an integer has an integer part that is not either. -/
theorem le_truncate {x : Floating f} (hx : x.isIntegral = true) {i : Int}
    (h : x.geInt i = true) : i ≤ x.truncate := by
  simp only [isIntegral, isFinite, Bool.and_eq_true, decide_eq_true_eq] at hx
  obtain ⟨hfin, hmod⟩ := hx
  have hnan : x.isNaN = false := by
    simp only [isNaN, decide_eq_false_iff_not]
    omega
  have hinf : x.isInfinite = false := by
    simp only [isInfinite, decide_eq_false_iff_not]
    omega
  have hq : f.inUnits x.number = f.inUnits x.number / Nat.pow 2 f.units * Nat.pow 2 f.units := by
    have := Nat.div_add_mod (f.inUnits x.number) (Nat.pow 2 f.units)
    rw [hmod, Nat.add_zero, Nat.mul_comm] at this
    exact this.symm
  have hpos : (0 : Int) < (Nat.pow 2 f.units : Nat) := by
    exact_mod_cast Nat.pow_pos (by decide)
  simp only [geInt, hnan, hinf, Bool.false_eq_true, if_false, decide_eq_true_eq] at h
  rw [hq] at h
  unfold truncate
  push_cast at h ⊢
  split_ifs at h ⊢
  · rw [← Int.neg_mul] at h
    exact Int.le_of_mul_le_mul_right h hpos
  · exact Int.le_of_mul_le_mul_right h hpos

/-- The number of the magnitude leaves the sign bit free. -/
def HasBits (x : Floating f) : Prop := x.number < f.signBit

theorem ofBits_toBits {x : Floating f} (hx : x.HasBits) : ofBits f x.toBits = x := by
  obtain ⟨negative, number⟩ := x
  simp only [HasBits] at hx
  cases negative
  · simp [ofBits, toBits, Nat.mod_eq_of_lt hx, hx]
  · simp [ofBits, toBits, Nat.mod_eq_of_lt hx]

theorem hasBits_ofBits (bits : Nat) : (ofBits f bits).HasBits :=
  Nat.mod_lt _ (Nat.pow_pos (by decide))

theorem toBits_lt {x : Floating f} (hx : x.HasBits) : x.toBits < 2 * f.signBit := by
  simp only [HasBits] at hx
  unfold toBits
  split_ifs <;> omega

theorem signBit_eq (f : Format) :
    f.signBit = f.infinity + Nat.pow 2 (f.precision - 1) := by
  have : 1 ≤ Nat.pow 2 f.exponentBits := Nat.one_le_two_pow
  simp only [Format.signBit, Format.infinity, Nat.pow_eq, Nat.pow_add, Nat.sub_mul] at *
  rw [Nat.one_mul, Nat.mul_comm, Nat.sub_add_cancel]
  exact Nat.le_mul_of_pos_left _ this

theorem infinity_lt_signBit (f : Format) : f.infinity < f.signBit := by
  have : 0 < Nat.pow 2 (f.precision - 1) := Nat.pow_pos (by decide)
  rw [signBit_eq]
  omega

theorem hasBits_of_isFinite {x : Floating f} (hx : x.isFinite = true) : x.HasBits := by
  have : x.number < f.infinity := by simpa [isFinite] using hx
  exact Nat.lt_trans this (infinity_lt_signBit f)

theorem hasBits_infinite (negative : Bool) : (infinite f negative).HasBits :=
  infinity_lt_signBit f

theorem hasBits_ofQuotient (negative : Bool) (n d : Nat) : (ofQuotient f negative n d).HasBits :=
  Nat.lt_of_le_of_lt (Nat.min_le_left _ _) (infinity_lt_signBit f)

theorem hasBits_zero (negative : Bool) : (zero f negative).HasBits :=
  Nat.lt_of_le_of_lt (Nat.zero_le _) (infinity_lt_signBit f)

/-- A payload of a not-a-number fits behind the bit that marks it as a quiet one. -/
theorem quiet_lt_signBit (hf : 2 ≤ f.precision) (payload : Nat) :
    f.infinity + (payload % Nat.pow 2 (f.precision - 2) + Nat.pow 2 (f.precision - 2))
      < f.signBit := by
  have hlt : payload % Nat.pow 2 (f.precision - 2) < Nat.pow 2 (f.precision - 2) :=
    Nat.mod_lt _ (Nat.pow_pos (by decide))
  have htwo : Nat.pow 2 (f.precision - 1) = 2 * Nat.pow 2 (f.precision - 2) := by
    rw [show f.precision - 1 = f.precision - 2 + 1 by omega]
    exact Nat.pow_succ'
  rw [signBit_eq]
  omega

theorem hasBits_nan (hf : 2 ≤ f.precision) (negative : Bool) :
    ({ nan f with negative } : Floating f).HasBits := by
  simpa [HasBits, nan] using quiet_lt_signBit hf 0

theorem hasBits_convert {g : Format} (hg : 2 ≤ g.precision) (x : Floating f) :
    (x.convert g).HasBits := by
  unfold convert
  split_ifs
  · exact hasBits_ofQuotient _ _ _
  · exact hasBits_infinite _
  · exact quiet_lt_signBit hg _
  · exact quiet_lt_signBit hg _

theorem hasBits_ofDecimal (negative : Bool) (digits : Nat) (exponent : Int) :
    (ofDecimal f negative digits exponent).HasBits := by
  unfold ofDecimal
  dsimp only
  split_ifs
  · exact hasBits_zero _
  · exact hasBits_infinite _
  · exact hasBits_ofQuotient _ _ _

theorem hasBits_readUnsigned (hf : 2 ≤ f.precision) {negative : Bool} {s : List Char}
    {x : Floating f} (h : readUnsigned f negative s = some x) : x.HasBits := by
  unfold readUnsigned at h
  simp only at h
  split_ifs at h
  · obtain rfl := Option.some.inj h
    exact hasBits_infinite _
  · obtain rfl := Option.some.inj h
    exact hasBits_nan hf _
  · split at h
    · obtain rfl := Option.some.inj h
      exact hasBits_ofDecimal _ _ _
    · split_ifs at h
      obtain ⟨e, -, rfl⟩ := Option.map_eq_some_iff.1 h
      exact hasBits_ofDecimal _ _ _

theorem hasBits_read (hf : 2 ≤ f.precision) {s : List Char} {x : Floating f}
    (h : read f s = .ok x) : x.HasBits := by
  unfold read at h
  split at h
  · simp at h
  all_goals
    dsimp only at h
    split at h
    next y hu =>
      obtain rfl := Except.ok.inj h
      exact hasBits_readUnsigned hf hu
    next => cases h

/-- Numbers that JSON values stand for have bits when those that are taken from doubles do. -/
theorem hasBits_ofJson (hf : 2 ≤ f.precision) {narrow : Double → Except MappingFault (Floating f)}
    {e : Expected} {v : Json} {x : Floating f} (h : ofJson f narrow e v = .ok x)
    (hn : ∀ y, v = .float y → narrow y = .ok x → x.HasBits) : x.HasBits := by
  unfold ofJson at h
  split at h
  · obtain rfl := Except.ok.inj h
    exact hasBits_ofQuotient _ _ _
  · exact hn _ rfl h
  · rename_i s
    cases hs : read f s.toList with
    | error e => simp [hs, Except.mapError] at h
    | ok y =>
      obtain rfl : y = x := by simpa [hs, Except.mapError] using h
      exact hasBits_read hf hs
  · simp at h

end Floating

/-! ## Integers -/

namespace IntegerRange

/-- Reading digits ends at the value it began with or inside the range. -/
theorem mem_iff {r : IntegerRange} {i : Int} :
    r.mem i = true ↔ r.least ≤ i ∧ i ≤ r.greatest := by
  rw [mem, Bool.and_eq_true, decide_eq_true_iff, decide_eq_true_iff]

theorem mem_int32 {i : Int} :
    int32.mem i = true ↔ -(2 ^ (32 - 1) : Nat) ≤ i ∧ i < (2 ^ (32 - 1) : Nat) := by
  rw [mem_iff]
  simp only [int32]
  omega

theorem mem_int64 {i : Int} :
    int64.mem i = true ↔ -(2 ^ (64 - 1) : Nat) ≤ i ∧ i < (2 ^ (64 - 1) : Nat) := by
  rw [mem_iff]
  simp only [int64]
  omega

theorem mem_uint32 {i : Int} : uint32.mem i = true ↔ 0 ≤ i ∧ i < (2 ^ 32 : Nat) := by
  rw [mem_iff]
  simp only [uint32]
  omega

theorem mem_uint64 {i : Int} : uint64.mem i = true ↔ 0 ≤ i ∧ i < (2 ^ 64 : Nat) := by
  rw [mem_iff]
  simp only [uint64]
  omega

theorem mem_readDigits {r : IntegerRange} {negative : Bool} {value i : Int} {ds : List Char}
    (hv : r.mem value) (h : r.readDigits negative value ds = .ok i) : r.mem i := by
  induction ds generalizing value with
  | nil =>
    obtain rfl : value = i := by simpa [readDigits] using h
    exact hv
  | cons c ds ih =>
    unfold readDigits at h
    cases hd : digit? c with
    | none => simp [hd] at h
    | some d =>
      simp only [hd] at h
      split_ifs at h with hn hl hg hl hg
      all_goals exact ih (by simp only [mem, Bool.and_eq_true, decide_eq_true_eq]; omega) h

theorem mem_read {r : IntegerRange} (h0 : r.mem 0) {s : List Char} {i : Int}
    (h : r.read s = .ok i) : r.mem i := by
  unfold read at h
  split at h
  · simp at h
  · simp at h
  · simp at h
  · exact mem_readDigits h0 h
  · split_ifs at h
    exact mem_readDigits h0 h
  · exact mem_readDigits h0 h

theorem mem_ofDouble {r : IntegerRange} (hr : r.least ≤ r.greatest) {x : Double} {i : Int}
    (h : r.ofDouble x = .ok i) : r.mem i := by
  unfold ofDouble at h
  split_ifs at h with hint hb
  obtain rfl : min x.truncate r.greatest = i := by simpa using h
  rw [Bool.and_eq_true] at hb
  have hlow := Floating.le_truncate (by simpa using hint) hb.1
  simp only [mem, Bool.and_eq_true, decide_eq_true_eq]
  omega

theorem mem_ofJson {r : IntegerRange} (h0 : r.mem 0) {e : Expected} {v : Json} {i : Int}
    (h : r.ofJson e v = .ok i) : r.mem i := by
  have hr : r.least ≤ r.greatest := by
    simp only [mem, Bool.and_eq_true, decide_eq_true_eq] at h0
    omega
  unfold ofJson at h
  split at h
  · split_ifs at h
    obtain rfl : _ = i := by simpa using h
    simp only [mem, Bool.and_eq_true, decide_eq_true_eq]
    omega
  · exact mem_ofDouble hr h
  · rename_i s
    cases hs : r.read s.toList with
    | error f => simp [hs, Except.mapError] at h
    | ok j =>
      obtain rfl : j = i := by simpa [hs, Except.mapError] using h
      exact mem_read h0 hs
  · simp at h

end IntegerRange

end ServiceCall
