import ServiceCall.Proofs.Json.Members
import ServiceCall.Proofs.Message.Same
import ServiceCall.Proofs.Number.Convert
import ServiceCall.Proofs.Number.Decimal
import ServiceCall.Proofs.Text.Base64
/-!
# Scalars are read back from JSON

A value of a scalar type is read back from its JSON form (`Scalar.exists_readsBack`): as itself, but
that a not-a-number loses its payload. A key of a map is read back from its text
(`Scalar.ofKey_keyText`).
-/

namespace ServiceCall

namespace Floating

variable {f : Format}

theorem isNaN_nan (f : Format) : (nan f).isNaN = true := by
  have hpos : 0 < Nat.pow 2 (f.precision - 2) := Nat.two_pow_pos _
  exact decide_eq_true (Nat.lt_add_of_pos_right hpos)

theorem isFinite_of_isNaN {x : Floating f} (h : x.isNaN = true) : x.isFinite = false := by
  simp only [isNaN, isFinite, decide_eq_true_eq, decide_eq_false_iff_not] at h ⊢
  omega

theorem isFinite_infinite (f : Format) (negative : Bool) :
    (infinite f negative).isFinite = false ∧ (infinite f negative).isNaN = false := by
  simp [isFinite, isNaN, infinite]

theorem toJson_of_isNaN {x : Double} (h : x.isNaN = true) : toJson x = .string "NaN" := by
  rw [toJson, isFinite_of_isNaN h, h]
  rfl

theorem toJson_infinite (negative : Bool) : toJson (infinite Format.double negative) =
    .string (if negative then "-Infinity" else "Infinity") := by
  obtain ⟨hfinite, hnan⟩ := isFinite_infinite Format.double negative
  rw [toJson, hfinite, hnan]
  cases negative <;> rfl

/-- Conversion keeps a number infinite, or no number. -/
theorem convert_infinite {g : Format} (negative : Bool) :
    (infinite f negative).convert g = infinite g negative := by
  rw [convert, (isFinite_infinite f negative).1]
  simp [isInfinite, infinite]

theorem isNaN_convert {g : Format} {x : Floating f} (h : x.isNaN = true) :
    (x.convert g).isNaN = true := by
  have hinfinite : x.isInfinite = false := by
    simp only [isNaN, isInfinite, decide_eq_true_eq, decide_eq_false_iff_not] at h ⊢
    omega
  have hpos : 0 < Nat.pow 2 (g.precision - 2) := Nat.two_pow_pos _
  rw [convert, isFinite_of_isNaN h, hinfinite]
  refine decide_eq_true (Nat.lt_add_of_pos_right ?_)
  exact Nat.lt_of_lt_of_le hpos (Nat.le_add_left ..)

theorem isZero_of_isNaN {x : Floating f} (h : x.isNaN = true) : x.isZero = false := by
  simp only [isNaN, isZero, decide_eq_true_eq, decide_eq_false_iff_not] at h ⊢
  omega

/-- A zero stays one in a wider format. -/
theorem isZero_convert {x : Single} (h : x.isZero = true) :
    (x.convert Format.double).isZero = true := by
  obtain ⟨negative, number⟩ := x
  obtain rfl : number = 0 := by simpa [isZero] using h
  have hzero : Format.double.round (Format.single.inUnits 0) (Nat.pow 2 Format.single.units) = 0 := by
    have hunits {g : Format} : g.inUnits 0 = 0 := by
      simp [Format.inUnits, Format.split]
    have hround := Format.roundUnits_inUnits (f := Format.double) (n := 0) (by decide)
      (Nat.two_pow_pos Format.single.units) (Nat.zero_le _)
    rw [hunits, Nat.zero_mul] at hround
    rw [Format.round, hunits, Nat.zero_mul]
    exact hround
  have hfinite : (⟨negative, 0⟩ : Single).isFinite = true :=
    decide_eq_true (by decide : 0 < Format.single.infinity)
  rw [convert, if_pos hfinite, isZero, hzero]
  rfl

/-- A number is finite, infinite or none at all. -/
theorem cases_isFinite (x : Floating f) :
    x.isFinite = true ∨ x = infinite f x.negative ∨ x.isNaN = true := by
  cases hfinite : x.isFinite with
  | true => exact .inl rfl
  | false =>
    cases hinfinite : x.isInfinite with
    | true => exact .inr (.inl (eq_infinite hinfinite))
    | false => exact .inr (.inr (isNaN_of_not_finite hfinite hinfinite))

end Floating

theorem Value.Zeros.symm {v w : Value} (h : v.Zeros w) : w.Zeros v := by
  cases v <;> cases w <;> first | exact h.elim | exact And.symm h

namespace Scalar

/-- A value is read back from the JSON form of another one of its type: as one with the same form,
and as itself if it is a zero. -/
structure ReadsBack (s : Scalar) (v v' : Value) : Prop where
  read : s.ofJson (s.toJson v) = .ok v'
  holds : s.Holds v'
  toJson : s.toJson v' = s.toJson v
  zeros : ∀ w, v'.Zeros w → v' = v

theorem readsBack_self {s : Scalar} {v : Value} (hv : s.Holds v)
    (h : s.ofJson (s.toJson v) = .ok v) : s.ReadsBack v v :=
  ⟨h, hv, rfl, fun _ _ => rfl⟩

theorem exists_readsBack_double {x : Double} (hx : x.HasBits) :
    ∃ v', double.ReadsBack (.double x) v' := by
  obtain hfinite | hinfinite | hnan := x.cases_isFinite
  · refine ⟨_, readsBack_self hx ?_⟩
    rw [toJson, Floating.toJson, if_pos hfinite]
    rfl
  · refine ⟨_, readsBack_self hx ?_⟩
    rw [hinfinite, toJson, Floating.toJson_infinite]
    cases x.negative <;> rfl
  · refine ⟨.double (Floating.nan _), ?_, Floating.hasBits_nan (by decide) false, ?_, ?_⟩
    · rw [toJson, Floating.toJson_of_isNaN hnan]
      rfl
    · rw [toJson, toJson, Floating.toJson_of_isNaN hnan,
        Floating.toJson_of_isNaN (Floating.isNaN_nan _)]
    · intro w hw
      cases w with
      | double y =>
        have hzero := Floating.isZero_of_isNaN (Floating.isNaN_nan Format.double)
        exact absurd (hzero.symm.trans hw.1) Bool.false_ne_true
      | _ => exact hw.elim

theorem exists_readsBack_single {x : Single} (hx : x.HasBits) :
    ∃ v', float.ReadsBack (.single x) v' := by
  obtain hfinite | hinfinite | hnan := x.cases_isFinite
  · obtain ⟨hwide, hnarrow⟩ := Floating.narrow_convert hfinite
    refine ⟨_, readsBack_self hx ?_⟩
    rw [toJson, Floating.toJson, if_pos hwide, ofJson, Floating.ofJson, hnarrow]
    rfl
  · refine ⟨_, readsBack_self hx ?_⟩
    rw [hinfinite, toJson, Floating.convert_infinite, Floating.toJson_infinite]
    cases x.negative <;> rfl
  · have hwide := Floating.isNaN_convert (g := Format.double) hnan
    refine ⟨.single (Floating.nan _), ?_, Floating.hasBits_nan (by decide) false, ?_, ?_⟩
    · rw [toJson, Floating.toJson_of_isNaN hwide]
      rfl
    · rw [toJson, toJson, Floating.toJson_of_isNaN hwide, Floating.toJson_of_isNaN
        (Floating.isNaN_convert (Floating.isNaN_nan _))]
    · intro w hw
      cases w with
      | single y =>
        have hzero := Floating.isZero_of_isNaN (Floating.isNaN_nan Format.single)
        exact absurd (hzero.symm.trans hw.1) Bool.false_ne_true
      | _ => exact hw.elim

/-! ## Integers -/

theorem exists_readsBack_integer {s : Scalar} {r : IntegerRange} {e : Expected} {i : Int}
    (hr : r.mem 0 = true) (hi : r.mem i = true) (hholds : s.Holds (.integer i))
    (hread : ∀ j, s.ofJson j = .integer <$> r.ofJson e j) :
    ∃ v', s.ReadsBack (.integer i) v' := by
  refine ⟨_, readsBack_self hholds ?_⟩
  rw [toJson, hread]
  split
  · rw [IntegerRange.ofJson, IntegerRange.read_toString hr hi]
    rfl
  · have hbounds := IntegerRange.mem_iff.1 hi
    rw [IntegerRange.ofJson, if_neg (by omega), if_neg (by omega)]
    rfl

/-- Every value of a type is read back from its JSON form. -/
theorem exists_readsBack {s : Scalar} {v : Value} (h : s.Holds v) : ∃ v', s.ReadsBack v v' := by
  cases s <;> cases v <;> first | exact h.elim | skip
  case double.double x => exact exists_readsBack_double h
  case float.single x => exact exists_readsBack_single h
  case bool.bool b => exact ⟨_, readsBack_self h rfl⟩
  case string.text t => exact ⟨_, readsBack_self h rfl⟩
  case bytes.bytes b =>
    refine ⟨_, readsBack_self h ?_⟩
    rw [toJson, ofJson, Base64.decode_text]
    rfl
  all_goals exact exists_readsBack_integer rfl h h fun j => rfl

theorem toJson_ne_null {s : Scalar} {v : Value} (h : s.Holds v) : s.toJson v ≠ .null := by
  have hfloating (x : Double) : Floating.toJson x ≠ .null := by
    unfold Floating.toJson
    split_ifs <;> simp
  cases s <;> cases v <;> first | exact h.elim | skip
  case double.double x => exact hfloating x
  case float.single x => exact hfloating _
  all_goals simp [toJson, isWide]

/-! ## Zeros -/

/-- Zeros of either sign have forms that compare as equal. -/
theorem alike_of_zeros {s : Scalar} {v w : Value} (h : v.Zeros w) :
    (s.toJson v).Alike (s.toJson w) := by
  have hzeros {x y : Double} (hx : x.isZero = true) (hy : y.isZero = true) :
      (Floating.toJson x).Alike (Floating.toJson y) := by
    have hfinite {x : Double} (hx : x.isZero = true) : x.isFinite = true := by
      simp only [Floating.isZero, Floating.isFinite, decide_eq_true_eq] at hx ⊢
      rw [hx]
      decide
    rw [Floating.toJson, Floating.toJson, if_pos (hfinite hx), if_pos (hfinite hy)]
    exact .zeros hx hy
  cases v <;> cases w <;> first | exact h.elim | skip
  case double.double x y => exact hzeros h.1 h.2
  case single.single x y => exact hzeros (Floating.isZero_convert h.1) (Floating.isZero_convert h.2)

/-! ## Keys -/

/-- A key is read back from its text. -/
theorem ofKey_keyText {s : Scalar} (hs : s.isKey = true) {v : Value} (h : s.Holds v) :
    s.ofKey v.keyText = .ok v := by
  have hinteger {r : IntegerRange} {i : Int} (hr : r.mem 0 = true) (hi : r.mem i = true) :
      Value.integer <$> (r.read (toString i).toList).mapError MappingFault.integer =
        .ok (.integer i) := by
    rw [IntegerRange.read_toString hr hi]
    rfl
  cases s <;> cases v <;> first | exact h.elim | skip
  case double.double | float.single | bytes.bytes => cases hs
  case bool.bool b => cases b <;> rfl
  case string.text t => rfl
  all_goals exact hinteger rfl h

end Scalar

end ServiceCall
