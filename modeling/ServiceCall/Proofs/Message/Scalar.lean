import ServiceCall.Message.Json.WellKnown
import ServiceCall.Proofs.Number.Range
import ServiceCall.Proofs.Wire.Record
import ServiceCall.Schema.Default
/-!
# Values of scalar types

`Scalar.Holds` says which values a scalar type has. Every way of reading one gives such a
value: from JSON, from the key of a JSON object, from a declared default and from the wire.
A value of the type is read back from the wire as it was written (`Scalar.ofRaw_toRaw`).
-/

namespace ServiceCall

namespace Scalar

/-- The integers of a type. -/
def range : Scalar → IntegerRange
  | int32 | sint32 | sfixed32 => .int32
  | uint32 | fixed32 => .uint32
  | int64 | sint64 | sfixed64 => .int64
  | _ => .uint64

/-- A value is one of the type. -/
def Holds (s : Scalar) (v : Value) : Prop :=
  match s, v with
  | .double, .double x => x.HasBits
  | .float, .single x => x.HasBits
  | .bool, .bool _ => True
  | .string, .text _ => True
  | .bytes, .bytes _ => True
  | .int32, .integer i | .sint32, .integer i | .sfixed32, .integer i | .uint32, .integer i
  | .fixed32, .integer i | .int64, .integer i | .sint64, .integer i | .sfixed64, .integer i
  | .uint64, .integer i | .fixed64, .integer i => s.range.mem i = true
  | _, _ => False

/-- The types that keys of maps have. -/
def isKey : Scalar → Bool
  | double | float | bytes => false
  | _ => true

theorem zero_mem_range (s : Scalar) : s.range.mem 0 = true := by cases s <;> rfl

theorem holds_fallback (s : Scalar) : s.Holds s.fallback := by
  cases s
  case double => exact Floating.hasBits_zero _
  case float => exact Floating.hasBits_zero _
  all_goals first | exact trivial | exact zero_mem_range _

/-! ## Values that are read -/

/-- The numbers of a JSON value are finite, if it is one. -/
theorem holds_ofJson {s : Scalar} {j : Json} {v : Value}
    (hj : ∀ x, j = .float x → x.isFinite = true) (h : s.ofJson j = .ok v) : s.Holds v := by
  cases s
  case double =>
    obtain ⟨x, hx, rfl⟩ := Except.fmap_eq_ok.1 h
    refine Floating.hasBits_ofJson (by decide) hx fun y hy hn => ?_
    cases hn
    exact Floating.hasBits_of_isFinite (hj _ hy)
  case float =>
    obtain ⟨x, hx, rfl⟩ := Except.fmap_eq_ok.1 h
    refine Floating.hasBits_ofJson (by decide) hx fun y _ hn => ?_
    unfold Floating.narrow at hn
    split at hn
    · cases hn
      exact Floating.hasBits_convert (by decide) y
    · cases hn
  case bool =>
    cases j <;> cases h
    exact trivial
  case string =>
    cases j <;> cases h
    exact trivial
  case bytes =>
    cases j with
    | string t =>
      obtain ⟨b, -, rfl⟩ := Except.fmap_eq_ok.1 h
      exact trivial
    | _ => cases h
  all_goals
    obtain ⟨i, hi, rfl⟩ := Except.fmap_eq_ok.1 h
    exact IntegerRange.mem_ofJson rfl hi

theorem holds_ofKey {s : Scalar} (hs : s.isKey = true) {key : String} {v : Value}
    (h : s.ofKey key = .ok v) : s.Holds v := by
  cases s
  case double | float | bytes => cases hs
  case bool =>
    unfold ofKey at h
    simp only at h
    split_ifs at h <;> cases h <;> exact trivial
  case string =>
    cases h
    exact trivial
  all_goals
    obtain ⟨i, hi, rfl⟩ := Except.fmap_eq_ok.1 h
    exact IntegerRange.mem_read rfl (Except.mapError_eq_ok.1 hi)

/-- A number that a text gives is one of the range. -/
theorem mem_integer? {r : IntegerRange} (h0 : r.mem 0 = true) {text : String} {v : Value}
    (h : Default.integer? r text = some v) : ∃ i, v = .integer i ∧ r.mem i = true := by
  obtain ⟨i, hi, rfl⟩ := Option.map_eq_some_iff.1 h
  cases hr : r.read text.toList with
  | error e => simp [hr, Except.toOption] at hi
  | ok j =>
    obtain rfl : j = i := by simpa [hr, Except.toOption] using hi
    exact ⟨j, rfl, IntegerRange.mem_read h0 hr⟩

theorem hasBits_floating? {f : Format} (hf : 2 ≤ f.precision) {text : String} {x : Floating f}
    (h : Default.floating? f text = some x) : x.HasBits := by
  unfold Default.floating? at h
  cases hr : Floating.read f text.toList with
  | error e => simp [hr, Except.toOption] at h
  | ok y =>
    obtain rfl : y = x := by simpa [hr, Except.toOption] using h
    exact Floating.hasBits_read hf hr

theorem holds_default {s : Scalar} {text : String} {v : Value}
    (h : Default.scalar? text s = some v) : s.Holds v := by
  cases s
  case double =>
    obtain ⟨x, hx, rfl⟩ := Option.map_eq_some_iff.1 h
    exact hasBits_floating? (by decide) hx
  case float =>
    obtain ⟨x, hx, rfl⟩ := Option.map_eq_some_iff.1 h
    exact hasBits_floating? (by decide) hx
  case bool =>
    simp only [Default.scalar?] at h
    split_ifs at h <;> cases h <;> exact trivial
  case string =>
    cases h
    exact trivial
  case bytes =>
    obtain ⟨b, -, rfl⟩ := Option.map_eq_some_iff.1 h
    exact trivial
  all_goals
    obtain ⟨i, rfl, hi⟩ := mem_integer? rfl h
    exact hi

/-! ## Values on the wire -/

/-- What stands in the slot of a type is a value of the type. -/
theorem holds_ofRaw {s : Scalar} {r : Wire.Raw} (h : s.slot.Takes r) : s.Holds (s.ofRaw r) := by
  cases s <;> cases r <;> first | exact h.elim | skip
  case double.fixed64 n => exact Floating.hasBits_ofBits n
  case float.fixed32 n => exact Floating.hasBits_ofBits n
  case bool.varint n => exact trivial
  case string.text t => exact trivial
  case bytes.bytes b => exact trivial
  case int64.varint n => exact IntegerRange.mem_int64.2 (Wire.toSigned_bounds (by decide) n)
  case sfixed64.fixed64 n => exact IntegerRange.mem_int64.2 (Wire.toSigned_bounds (by decide) n)
  case int32.varint n => exact IntegerRange.mem_int32.2 (Wire.toSigned_bounds (by decide) n)
  case sfixed32.fixed32 n => exact IntegerRange.mem_int32.2 (Wire.toSigned_bounds (by decide) n)
  case uint64.varint n => exact IntegerRange.mem_uint64.2 ⟨Int.natCast_nonneg n, Int.ofNat_lt.2 h⟩
  case fixed64.fixed64 n => exact IntegerRange.mem_uint64.2 ⟨Int.natCast_nonneg n, Int.ofNat_lt.2 h⟩
  case fixed32.fixed32 n => exact IntegerRange.mem_uint32.2 ⟨Int.natCast_nonneg n, Int.ofNat_lt.2 h⟩
  case uint32.varint n =>
    have hn : n % 0x100000000 < 2 ^ 32 := Nat.mod_lt n (by decide)
    exact IntegerRange.mem_uint32.2 ⟨Int.natCast_nonneg _, Int.ofNat_lt.2 hn⟩
  case sint32.varint n =>
    have hn : n % 0x100000000 < 2 ^ (31 + 1) := Nat.mod_lt n (by decide)
    exact IntegerRange.mem_int32.2 (Wire.unzigzag_bounds hn)
  case sint64.varint n =>
    have hn : n < 2 ^ (63 + 1) := h
    exact IntegerRange.mem_int64.2 (Wire.unzigzag_bounds hn)

/-- A value of a type is written as its slot takes it. -/
theorem takes_toRaw {s : Scalar} {v : Value} (h : s.Holds v) : s.slot.Takes (s.toRaw v) := by
  cases s <;> cases v <;> first | exact h.elim | skip
  case double.double x => exact Floating.toBits_lt h
  case float.single x => exact Floating.toBits_lt h
  case bool.bool b => cases b <;> exact show _ < 2 ^ 64 by decide
  case string.text t => exact trivial
  case bytes.bytes b => exact trivial
  case sint32.integer i =>
    obtain ⟨hl, hh⟩ := IntegerRange.mem_int32.1 h
    exact Nat.lt_trans (Wire.zigzag_lt hl hh) (by decide)
  case sint64.integer i =>
    obtain ⟨hl, hh⟩ := IntegerRange.mem_int64.1 h
    exact Wire.zigzag_lt hl hh
  case uint32.integer i => exact Nat.lt_trans (Wire.ofSigned_lt 32 i) (by decide)
  case fixed32.integer i => exact Wire.ofSigned_lt 32 i
  case sfixed32.integer i => exact Wire.ofSigned_lt 32 i
  all_goals exact Wire.ofSigned_lt 64 _

theorem ofRaw_toRaw {s : Scalar} {v : Value} (h : s.Holds v) : s.ofRaw (s.toRaw v) = v := by
  cases s <;> cases v <;> first | exact h.elim | skip
  case double.double x => exact congrArg Value.double (Floating.ofBits_toBits h)
  case float.single x => exact congrArg Value.single (Floating.ofBits_toBits h)
  case bool.bool b => cases b <;> rfl
  case string.text t => rfl
  case bytes.bytes b => rfl
  case int64.integer i =>
    obtain ⟨hl, hh⟩ := IntegerRange.mem_int64.1 h
    exact congrArg Value.integer (Wire.toSigned_ofSigned (by decide) (by decide) hl hh)
  case sfixed64.integer i =>
    obtain ⟨hl, hh⟩ := IntegerRange.mem_int64.1 h
    exact congrArg Value.integer (Wire.toSigned_ofSigned (by decide) (by decide) hl hh)
  case int32.integer i =>
    obtain ⟨hl, hh⟩ := IntegerRange.mem_int32.1 h
    exact congrArg Value.integer (Wire.toSigned_ofSigned (by decide) (by decide) hl hh)
  case sfixed32.integer i =>
    obtain ⟨hl, hh⟩ := IntegerRange.mem_int32.1 h
    exact congrArg Value.integer (Wire.toSigned_ofSigned (by decide) (by decide) hl hh)
  case uint64.integer i =>
    obtain ⟨h0, hh⟩ := IntegerRange.mem_uint64.1 h
    exact congrArg Value.integer (Wire.ofSigned_of_nonneg h0 hh)
  case fixed64.integer i =>
    obtain ⟨h0, hh⟩ := IntegerRange.mem_uint64.1 h
    exact congrArg Value.integer (Wire.ofSigned_of_nonneg h0 hh)
  case fixed32.integer i =>
    obtain ⟨h0, hh⟩ := IntegerRange.mem_uint32.1 h
    exact congrArg Value.integer (Wire.ofSigned_of_nonneg h0 hh)
  case uint32.integer i =>
    obtain ⟨h0, hh⟩ := IntegerRange.mem_uint32.1 h
    have hmod : Wire.ofSigned 32 i % 0x100000000 = Wire.ofSigned 32 i :=
      Nat.mod_eq_of_lt (Wire.ofSigned_lt 32 i)
    refine congrArg Value.integer ?_
    rw [hmod, Wire.ofSigned_of_nonneg h0 hh]
  case sint32.integer i =>
    obtain ⟨hl, hh⟩ := IntegerRange.mem_int32.1 h
    have hmod : Wire.zigzag i % 0x100000000 = Wire.zigzag i :=
      Nat.mod_eq_of_lt (Wire.zigzag_lt hl hh)
    refine congrArg Value.integer ?_
    rw [hmod, Wire.unzigzag_zigzag]
  case sint64.integer i => exact congrArg Value.integer (Wire.unzigzag_zigzag i)

end Scalar

/-! ## Values of kinds that hold no messages -/

namespace Kind

/-- A value is a scalar or the number of an enum value, as the kind says. -/
def Holds : Kind → Value → Prop
  | .scalar s, v => s.Holds v
  | .enumeration _, .integer i => IntegerRange.int32.mem i = true
  | _, _ => False

theorem takes_rawScalar {k : Kind} {v : Value} (h : k.Holds v) :
    k.slot.Takes (Message.rawScalar k v) := by
  cases k with
  | scalar s => exact Scalar.takes_toRaw h
  | enumeration name =>
    cases v with
    | integer i => exact Wire.ofSigned_lt 64 i
    | _ => exact h.elim
  | message name | group name => exact h.elim

theorem holds_scalarValue {f : Field} {r : Wire.Raw} (h : f.kind.slot.Takes r) :
    f.kind.Holds (Message.scalarValue f r) := by
  unfold Message.scalarValue
  cases hk : f.kind with
  | scalar s =>
    rw [hk] at h
    exact Scalar.holds_ofRaw h
  | enumeration name =>
    rw [hk] at h
    cases r with
    | varint n => exact IntegerRange.mem_int32.2 (Wire.toSigned_bounds (by decide) n)
    | _ => exact h.elim
  | message name | group name =>
    rw [hk] at h
    exact h.elim

theorem scalarValue_rawScalar {f : Field} {v : Value} (h : f.kind.Holds v) :
    Message.scalarValue f (Message.rawScalar f.kind v) = v := by
  unfold Message.scalarValue
  cases hk : f.kind with
  | scalar s =>
    rw [hk] at h
    exact Scalar.ofRaw_toRaw h
  | enumeration name =>
    rw [hk] at h
    cases v with
    | integer i =>
      obtain ⟨hl, hh⟩ := IntegerRange.mem_int32.1 h
      exact congrArg Value.integer (Wire.toSigned_ofSigned (by decide) (by decide) hl hh)
    | _ => exact h.elim
  | message name | group name =>
    rw [hk] at h
    exact h.elim

end Kind

end ServiceCall
