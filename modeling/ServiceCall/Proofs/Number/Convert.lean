import Mathlib.Tactic.Linarith
import Mathlib.Tactic.Ring
import ServiceCall.Proofs.Number.Range
/-!
# Single precision in double precision

A number that a format has is rounded to itself (`Format.roundUnits_inUnits`), and every
single-precision number is a double-precision one too (`Format.exists_double`). So a finite
single-precision number is the same after it was widened and narrowed again
(`Floating.narrow_convert`).
-/

namespace ServiceCall

theorem roundHalfEven_mul {m d : Nat} (hd : 0 < d) : roundHalfEven (m * d) d = m := by
  simp [roundHalfEven, Nat.mul_div_cancel m hd, hd]

theorem log2_mul_two_pow {m k e : Nat} (hl : 2 ^ k ≤ m) (hh : m < 2 ^ (k + 1)) :
    (m * 2 ^ e).log2 = k + e := by
  have hpos : 0 < m := Nat.lt_of_lt_of_le (Nat.two_pow_pos k) hl
  have hne : m * 2 ^ e ≠ 0 := Nat.mul_ne_zero (by omega) (Nat.two_pow_pos e).ne'
  refine Nat.le_antisymm (Nat.lt_succ_iff.1 ((Nat.log2_lt hne).2 ?_)) ((Nat.le_log2 hne).2 ?_)
  · rw [Nat.succ_eq_add_one, Nat.add_right_comm, Nat.pow_add]
    exact Nat.mul_lt_mul_of_pos_right hh (Nat.two_pow_pos e)
  · rw [Nat.pow_add]
    exact Nat.mul_le_mul_right _ hl

namespace Format

/-- A finite magnitude below the least normal one is its number. -/
theorem inUnits_of_lt {f : Format} {n : Nat} (h : n < 2 ^ (f.precision - 1)) : f.inUnits n = n := by
  have hdiv : n / 2 ^ (f.precision - 1) = 0 := Nat.div_eq_of_lt h
  simp only [inUnits, split, Nat.pow_eq, hdiv, if_true, Nat.mod_eq_of_lt h, Nat.pow_zero, Nat.mul_one]

/-- A normal magnitude is a mantissa with its leading bit and a power of two. -/
theorem inUnits_normal (f : Format) {e r : Nat} (hr : r < 2 ^ (f.precision - 1)) :
    f.inUnits ((e + 1) * 2 ^ (f.precision - 1) + r) = (r + 2 ^ (f.precision - 1)) * 2 ^ e := by
  have hpos := Nat.two_pow_pos (f.precision - 1)
  have hdiv : ((e + 1) * 2 ^ (f.precision - 1) + r) / 2 ^ (f.precision - 1) = e + 1 := by
    rw [Nat.add_comm, Nat.add_mul_div_right _ _ hpos, Nat.div_eq_of_lt hr, Nat.zero_add]
  have hmod : ((e + 1) * 2 ^ (f.precision - 1) + r) % 2 ^ (f.precision - 1) = r := by
    rw [Nat.add_comm, Nat.add_mul_mod_self_right, Nat.mod_eq_of_lt hr]
  simp only [inUnits, split, Nat.pow_eq, hdiv, hmod, Nat.add_sub_cancel, if_neg (Nat.succ_ne_zero e)]

/-- A number is below the least normal one, or it has an exponent and a mantissa. -/
theorem lt_or_exists_normal (f : Format) (n : Nat) : n < 2 ^ (f.precision - 1) ∨
    ∃ e r, r < 2 ^ (f.precision - 1) ∧ n = (e + 1) * 2 ^ (f.precision - 1) + r := by
  have hpos := Nat.two_pow_pos (f.precision - 1)
  by_cases h : n < 2 ^ (f.precision - 1)
  · exact .inl h
  · obtain ⟨e, he⟩ : ∃ e, n / 2 ^ (f.precision - 1) = e + 1 :=
      Nat.exists_eq_add_one_of_ne_zero (Nat.div_pos (Nat.not_lt.1 h) hpos).ne'
    refine .inr ⟨e, n % 2 ^ (f.precision - 1), Nat.mod_lt n hpos, ?_⟩
    rw [← he, Nat.mul_comm]
    exact (Nat.div_add_mod n _).symm

/-- A magnitude that the format has is rounded to itself. -/
theorem roundUnits_inUnits {f : Format} (hf : 1 ≤ f.precision) {n d : Nat} (hd : 0 < d)
    (h : n ≤ f.infinity) : f.roundUnits (f.inUnits n * d) d = n := by
  unfold roundUnits
  rw [Nat.mul_div_cancel _ hd]
  obtain hn | ⟨e, r, hr, rfl⟩ := f.lt_or_exists_normal n
  · have hlog : n.log2 + 1 - f.precision = 0 := by
      by_cases hzero : n = 0
      · subst hzero
        have : Nat.log2 0 = 0 := by decide
        omega
      · have := (Nat.log2_lt hzero).2 hn
        omega
    simp only [inUnits_of_lt hn, hlog, Nat.pow_eq, Nat.pow_zero, Nat.mul_one, roundHalfEven_mul hd]
    omega
  · have hhigh : r + 2 ^ (f.precision - 1) < 2 ^ (f.precision - 1 + 1) := by
      rw [Nat.pow_succ]
      omega
    have hlog := log2_mul_two_pow (e := e) (Nat.le_add_left (2 ^ (f.precision - 1)) r) hhigh
    have hexponent : f.precision - 1 + e + 1 - f.precision = e := by omega
    have hmul : (r + 2 ^ (f.precision - 1)) * 2 ^ e * d =
        (r + 2 ^ (f.precision - 1)) * (d * 2 ^ e) := by ring
    simp only [inUnits_normal f hr, hlog, hexponent, Nat.pow_eq]
    rw [hmul, roundHalfEven_mul (Nat.mul_pos hd (Nat.two_pow_pos e))]
    have hsum : e * 2 ^ (f.precision - 1) + (r + 2 ^ (f.precision - 1)) =
        (e + 1) * 2 ^ (f.precision - 1) + r := by ring
    rw [hsum]
    exact Nat.min_eq_right h

/-! ## Singles as doubles -/

/-- The units of double precision in one of single precision. -/
def widening : Nat := 925

theorem two_pow_units : (2 : Nat) ^ double.units = 2 ^ widening * 2 ^ single.units := by
  rw [← Nat.pow_add]
  congr 1

/-- A mantissa of few bits with a large exponent is a magnitude of double precision. -/
theorem exists_double {m t : Nat} (hm : m < 2 ^ 24) (hl : 52 ≤ t) (hh : t ≤ 1200) :
    ∃ y, y < double.infinity ∧ double.inUnits y = m * 2 ^ t := by
  have hinfinity : double.infinity = 2047 * 2 ^ 52 := rfl
  by_cases hzero : m = 0
  · refine ⟨0, by rw [hinfinity]; decide, ?_⟩
    rw [hzero, Nat.zero_mul]
    exact inUnits_of_lt (Nat.two_pow_pos _)
  · have hlog : m.log2 < 24 := (Nat.log2_lt hzero).2 hm
    have hlow : 2 ^ m.log2 ≤ m := Nat.log2_self_le hzero
    have hhigh : m < 2 ^ (m.log2 + 1) := Nat.lt_log2_self
    -- The mantissa is moved up until its leading bit is that of the format.
    have hmove : 2 ^ m.log2 * 2 ^ (52 - m.log2) = 2 ^ 52 := by
      rw [← Nat.pow_add]
      congr 1
      omega
    have hfrom : 2 ^ 52 ≤ m * 2 ^ (52 - m.log2) := hmove ▸ Nat.mul_le_mul_right _ hlow
    have hto : m * 2 ^ (52 - m.log2) < 2 ^ 53 := by
      have h := Nat.mul_lt_mul_of_pos_right hhigh (Nat.two_pow_pos (52 - m.log2))
      rwa [Nat.pow_succ, Nat.mul_right_comm, hmove] at h
    obtain ⟨r, hr⟩ := Nat.exists_eq_add_of_le' hfrom
    have hrlt : r < 2 ^ (double.precision - 1) := by
      have : (2 : Nat) ^ (double.precision - 1) = 2 ^ 52 := rfl
      omega
    refine ⟨(t - 52 + m.log2 + 1) * 2 ^ (double.precision - 1) + r, ?_, ?_⟩
    · have : (2 : Nat) ^ (double.precision - 1) = 2 ^ 52 := rfl
      rw [hinfinity]
      rw [this] at hrlt ⊢
      have hexponent : (t - 52 + m.log2 + 1) * 2 ^ 52 ≤ 2000 * 2 ^ 52 :=
        Nat.mul_le_mul_right _ (by omega)
      omega
    · rw [inUnits_normal double hrlt, show (2 : Nat) ^ (double.precision - 1) = 2 ^ 52 from rfl, ← hr,
        Nat.mul_assoc, ← Nat.pow_add]
      congr 2
      omega

/-- The mantissa of a finite single-precision magnitude with its exponent. -/
theorem exists_inUnits_single {n : Nat} (h : n < single.infinity) :
    ∃ m e, m < 2 ^ 24 ∧ e ≤ 253 ∧ single.inUnits n = m * 2 ^ e := by
  obtain hn | ⟨e, r, hr, rfl⟩ := single.lt_or_exists_normal n
  · exact ⟨n, 0, Nat.lt_trans hn (by decide), by decide, by rw [inUnits_of_lt hn, Nat.pow_zero, Nat.mul_one]⟩
  · have hpow : (2 : Nat) ^ (single.precision - 1) = 2 ^ 23 := rfl
    have hinfinity : single.infinity = 255 * 2 ^ 23 := rfl
    rw [hpow] at hr
    rw [hpow, hinfinity] at h
    refine ⟨r + 2 ^ 23, e, by omega, by omega, ?_⟩
    rw [inUnits_normal single (hpow ▸ hr), hpow]

/-- The magnitude of double precision that a finite one of single precision is. -/
theorem exists_round_single {n : Nat} (h : n < single.infinity) :
    ∃ y, y < double.infinity ∧ double.inUnits y = single.inUnits n * 2 ^ widening ∧
      double.round (single.inUnits n) (2 ^ single.units) = y := by
  obtain ⟨m, e, hm, he, hunits⟩ := exists_inUnits_single h
  obtain ⟨y, hy, hdouble⟩ := exists_double (t := e + widening) hm (by rw [widening]; omega)
    (by rw [widening]; omega)
  rw [Nat.pow_add, ← Nat.mul_assoc, ← hunits] at hdouble
  refine ⟨y, hy, hdouble, ?_⟩
  rw [round, Nat.pow_eq, two_pow_units, ← Nat.mul_assoc, ← hdouble]
  exact roundUnits_inUnits (by decide) (Nat.two_pow_pos _) (Nat.le_of_lt hy)

end Format

namespace Floating

theorem isNaN_of_not_finite {f : Format} {x : Floating f} (h : x.isFinite = false)
    (hi : x.isInfinite = false) : x.isNaN = true := by
  simp only [isFinite, isInfinite, isNaN, decide_eq_false_iff_not, decide_eq_true_eq] at *
  omega

theorem eq_infinite {f : Format} {x : Floating f} (h : x.isInfinite = true) :
    x = infinite f x.negative := by
  obtain ⟨negative, number⟩ := x
  have hnumber : number = f.infinity := by simpa [isInfinite] using h
  rw [hnumber]
  rfl

/-- A finite number that is not above the greatest single-precision one is narrowed. -/
theorem narrow_of_le {x : Double} (h : x.isFinite = true)
    (hle : Format.double.inUnits x.number ≤ largestSingle.toNat * Nat.pow 2 Format.double.units) :
    narrow x = .ok (x.convert Format.single) := by
  have hnan : x.isNaN = false := by
    simp only [isFinite, isNaN, decide_eq_true_eq, decide_eq_false_iff_not] at h ⊢
    omega
  have hinfinite : x.isInfinite = false := by
    simp only [isFinite, isInfinite, decide_eq_true_eq, decide_eq_false_iff_not] at h ⊢
    omega
  have hlargest : largestSingle = (largestSingle.toNat : Int) := by decide +kernel
  unfold narrow geInt leInt
  rw [hnan, hinfinite, hlargest]
  generalize Nat.pow 2 Format.double.units = unit at hle
  generalize Format.double.inUnits x.number = n at hle
  have hcast : (n : Int) ≤ largestSingle.toNat * unit := by exact_mod_cast hle
  simp only [Bool.false_eq_true, if_false]
  rw [if_pos]
  rw [Bool.and_eq_true, decide_eq_true_eq, decide_eq_true_eq]
  split <;> constructor <;> linarith [Int.natCast_nonneg n]

/-- A widened number is finite, and is narrowed to what it was. -/
theorem narrow_convert {x : Single} (h : x.isFinite = true) :
    (x.convert Format.double).isFinite = true ∧ narrow (x.convert Format.double) = .ok x := by
  obtain ⟨negative, n⟩ := x
  have hn : n < Format.single.infinity := by simpa [isFinite] using h
  obtain ⟨y, hy, hunits, hround⟩ := Format.exists_round_single hn
  have hwide : (⟨negative, n⟩ : Single).convert Format.double = ⟨negative, y⟩ := by
    rw [convert, if_pos h]
    exact congrArg _ hround
  have hfinite : (⟨negative, y⟩ : Double).isFinite = true := decide_eq_true hy
  have hle : Format.double.inUnits y ≤ largestSingle.toNat * Nat.pow 2 Format.double.units := by
    obtain ⟨m, e, hm, he, hsingle⟩ := Format.exists_inUnits_single hn
    have hgreatest : (2 ^ 24 - 1) * 2 ^ 253 = largestSingle.toNat * 2 ^ Format.single.units := by
      decide +kernel
    have hunit : Format.single.inUnits n ≤ largestSingle.toNat * 2 ^ Format.single.units := by
      rw [← hgreatest, hsingle]
      exact Nat.mul_le_mul (by omega) (Nat.pow_le_pow_right (by decide) he)
    rw [hunits, Nat.pow_eq, Format.two_pow_units, Nat.mul_left_comm, Nat.mul_comm]
    exact Nat.mul_le_mul (Nat.le_refl _) hunit
  have hback : (⟨negative, y⟩ : Double).convert Format.single = ⟨negative, n⟩ := by
    rw [convert, if_pos hfinite]
    refine congrArg _ ?_
    rw [Format.round, hunits, Nat.mul_assoc, Nat.pow_eq, Nat.pow_eq, ← Format.two_pow_units]
    have hpos := Nat.two_pow_pos Format.double.units
    generalize (2 : Nat) ^ Format.double.units = d at hpos ⊢
    exact Format.roundUnits_inUnits (by decide) hpos (Nat.le_of_lt hn)
  rw [hwide]
  exact ⟨hfinite, (narrow_of_le hfinite hle).trans (congrArg _ hback)⟩

end Floating

end ServiceCall
