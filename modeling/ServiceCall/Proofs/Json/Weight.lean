import ServiceCall.Proofs.Message.Scalar
import ServiceCall.WellKnown.Held
/-!
# Weights of JSON values

The weight of a JSON value bounds the bytes that what is read from it takes on the wire
(`Json.weight`): those of a scalar (`Scalar.length_toRaw_le`), of the key of an entry
(`Scalar.length_key_le`) and of a held value (`Json.length_toRaw_le`). Lengths are themselves written
as numbers of at most ten bytes, so that a bound holds as long as the weight is such a number.
-/

namespace ServiceCall

open Wire (Raw RawRecord)

/-! ## Lengths on the wire -/

namespace Wire

theorem length_writeVarint_of_lt {n k : Nat} (hk : 1 ≤ k) (h : n < 2 ^ (7 * k)) :
    (writeVarint n).length ≤ k := by
  induction k generalizing n with
  | zero => omega
  | succ k ih =>
    obtain hn | hn := Nat.lt_or_ge n 128
    · simp [writeVarint_of_lt hn]
    · have hpow : 2 ^ (7 * (k + 1)) = 2 ^ (7 * k) * 128 := by
        rw [Nat.mul_succ, Nat.pow_add]
      have hlt : n / 128 < 2 ^ (7 * k) := by
        rw [Nat.div_lt_iff_lt_mul (by decide), ← hpow]
        exact h
      have hpos : 1 ≤ k := by
        by_contra h0
        obtain rfl : k = 0 := by omega
        omega
      rw [writeVarint_of_le hn, List.length_cons]
      exact Nat.succ_le_succ (ih hpos hlt)

theorem length_writeVarint_le {n : Nat} (h : n < 2 ^ 64) : (writeVarint n).length ≤ 10 :=
  length_writeVarint_of_lt (by decide) (Nat.lt_trans h (by decide))

theorem length_writeKey_le {number : Nat} (h : number < 2 ^ 29) (t : WireType) :
    (writeKey number t).length ≤ 5 := by
  have hcode := t.code_lt
  exact length_writeVarint_of_lt (by decide) (by omega)

theorem length_writeDelimited_le {b : Bytes} (h : b.length < 2 ^ 64) :
    (writeDelimited b).length ≤ b.length + 10 := by
  have := length_writeVarint_le h
  rw [writeDelimited, List.length_append]
  omega

/-- What a field takes beside its value: its key, and the end of a group. -/
theorem length_writeFields_cons_le {number : Nat} (h : number < 2 ^ 29) (v : Raw)
    (rest : RawRecord) : (Raw.writeFields ((number, v) :: rest)).length ≤
      v.write.length + 10 + (Raw.writeFields rest).length := by
  have hkey := length_writeKey_le h v.wireType
  have hend : (ending number v).length ≤ 5 := by
    rw [ending]
    split_ifs
    · exact length_writeKey_le h .endGroup
    · exact Nat.zero_le _
  rw [writeFields_cons, List.length_append, List.length_append, List.length_append]
  omega

theorem length_write_record_le {r : RawRecord} (h : (Raw.writeFields r).length < 2 ^ 64) :
    (Raw.record r).write.length ≤ (Raw.writeFields r).length + 10 := by
  rw [Raw.write]
  exact length_writeDelimited_le h

end Wire

theorem length_utf8_le (s : String) : (utf8 s).length ≤ 4 * s.length := by
  rw [utf8, ← String.length_toList]
  induction s.toList with
  | nil => exact Nat.zero_le _
  | cons c rest ih =>
    have hc : (String.utf8EncodeChar c).length ≤ 4 := by
      rw [String.length_utf8EncodeChar]
      exact Char.utf8Size_le_four c
    rw [List.flatMap_cons, List.length_append, List.length_cons]
    omega

theorem Base64.length_le_length_encode (b : Bytes) : b.length ≤ (encode b).length := by
  rw [encode, String.length_ofList]
  fun_induction encodeChars standard b with
  | case1 => exact Nat.zero_le _
  | case2 | case3 => simp
  | case4 x y z rest ih =>
    simp only [List.length_cons]
    omega

/-! ## Weights -/

namespace Json

mutual

/-- More than the bytes that what is read from a JSON value takes on the wire. -/
def weight : Json → Nat
  | string s => 64 + 32 * s.length
  | array items => 64 + weightOfItems items
  | object members => 64 + weightOfMembers members
  | null | bool _ | integer _ | float _ => 64

def weightOfItems : List Json → Nat
  | [] => 0
  | v :: rest => v.weight + weightOfItems rest

def weightOfMembers : List (String × Json) → Nat
  | [] => 0
  | (key, v) :: rest => 64 + 32 * key.length + v.weight + weightOfMembers rest

end

theorem le_weight (j : Json) : 64 ≤ j.weight := by
  cases j <;> simp [weight]

theorem weight_le_of_member {members : List (String × Json)} {x : String × Json} (h : x ∈ members) :
    64 + 32 * x.1.length + x.2.weight ≤ weightOfMembers members := by
  induction members with
  | nil => cases h
  | cons y rest ih =>
    obtain ⟨key, v⟩ := y
    rw [weightOfMembers]
    obtain rfl | h := List.mem_cons.1 h
    · exact Nat.le_add_right ..
    · exact Nat.le_add_left_of_le (ih h)

/-- Members that are left out weigh nothing. -/
theorem weightOfMembers_filter_le {members : List (String × Json)} {keep : String × Json → Bool}
    {x : String × Json} (hx : x ∈ members) (hout : keep x = false) :
    weightOfMembers (members.filter keep) + (64 + 32 * x.1.length + x.2.weight) ≤
      weightOfMembers members := by
  have hfilter (members : List (String × Json)) :
      weightOfMembers (members.filter keep) ≤ weightOfMembers members := by
    induction members with
    | nil => exact Nat.le_refl _
    | cons y rest ih =>
      obtain ⟨key, v⟩ := y
      rw [List.filter_cons]
      split_ifs <;> simp only [weightOfMembers] <;> omega
  induction members with
  | nil => cases hx
  | cons y rest ih =>
    obtain ⟨key, v⟩ := y
    obtain rfl | hx := List.mem_cons.1 hx
    · have := hfilter rest
      rw [List.filter_cons_of_neg (by simp [hout]), weightOfMembers]
      dsimp only
      omega
    · have := ih hx
      rw [List.filter_cons]
      split_ifs <;> simp only [weightOfMembers] <;> omega

/-! ## Held values -/

open Wire in
mutual

/-- A held value takes no more bytes than its JSON form weighs, and a field that holds its message no
more either. -/
theorem length_toRaw_le : (j : Json) → j.weight < 2 ^ 64 →
    (Raw.writeFields j.toRaw).length + 32 ≤ j.weight
  | .null, _ => by
    have := length_writeFields_cons_le (by decide : 1 < 2 ^ 29) (.varint 0) []
    have : (Raw.varint 0).write.length ≤ 10 := by
      rw [Raw.write]
      exact length_writeVarint_le (by decide)
    simp only [toRaw, weight, Raw.writeFields, List.length_nil] at *
    omega
  | .bool b, _ => by
    have := length_writeFields_cons_le (by decide : 4 < 2 ^ 29) (.varint (if b then 1 else 0)) []
    have : (Raw.varint (if b then 1 else 0)).write.length ≤ 10 := by
      rw [Raw.write]
      exact length_writeVarint_le (by cases b <;> decide)
    simp only [toRaw, weight, Raw.writeFields, List.length_nil] at *
    omega
  | .integer i, _ => by
    have := length_writeFields_cons_le (by decide : 2 < 2 ^ 29)
      (.fixed64 (Floating.ofInt Format.double i).toBits) []
    simp only [toRaw, weight, Raw.writeFields, Raw.write, length_writeFixed,
      List.length_nil] at *
    omega
  | .float x, _ => by
    have := length_writeFields_cons_le (by decide : 2 < 2 ^ 29) (.fixed64 x.toBits) []
    simp only [toRaw, weight, Raw.writeFields, Raw.write, length_writeFixed,
      List.length_nil] at *
    omega
  | .string s, h => by
    have := length_writeFields_cons_le (by decide : 3 < 2 ^ 29) (.text s) []
    have hutf8 := length_utf8_le s
    rw [weight] at h ⊢
    have : (Raw.text s).write.length ≤ (utf8 s).length + 10 := by
      rw [Raw.write]
      exact length_writeDelimited_le (by omega)
    rw [toRaw]
    simp only [Raw.writeFields, List.length_nil] at *
    omega
  | .array items, h => by
    have := length_writeFields_cons_le (by decide : 6 < 2 ^ 29) (.record (itemsToRaw items)) []
    rw [weight] at h ⊢
    have hitems := length_itemsToRaw_le items (by omega)
    have := @length_write_record_le (itemsToRaw items) (by omega)
    rw [toRaw]
    simp only [Raw.writeFields, List.length_nil] at *
    omega
  | .object members, h => by
    have := length_writeFields_cons_le (by decide : 5 < 2 ^ 29) (.record (membersToRaw members)) []
    rw [weight] at h ⊢
    have hmembers := length_membersToRaw_le members (by omega)
    have := @length_write_record_le (membersToRaw members) (by omega)
    rw [toRaw]
    simp only [Raw.writeFields, List.length_nil] at *
    omega

theorem length_itemsToRaw_le : (items : List Json) → weightOfItems items < 2 ^ 64 →
    (Raw.writeFields (itemsToRaw items)).length ≤ weightOfItems items
  | [], _ => Nat.zero_le _
  | v :: rest, h => by
    rw [weightOfItems] at h ⊢
    have hv := length_toRaw_le v (by omega)
    have hrest := length_itemsToRaw_le rest (by omega)
    have := length_writeFields_cons_le (by decide : 1 < 2 ^ 29) (.record v.toRaw) (itemsToRaw rest)
    have := @length_write_record_le v.toRaw (by omega)
    rw [itemsToRaw]
    omega

theorem length_membersToRaw_le : (members : List (String × Json)) →
    weightOfMembers members < 2 ^ 64 →
      (Raw.writeFields (membersToRaw members)).length ≤ weightOfMembers members
  | [], _ => Nat.zero_le _
  | (key, v) :: rest, h => by
    rw [weightOfMembers] at h ⊢
    have hv := length_toRaw_le v (by omega)
    have hrest := length_membersToRaw_le rest (by omega)
    have hrecord := @length_write_record_le v.toRaw (by omega)
    have hvalue := length_writeFields_cons_le (by decide : 2 < 2 ^ 29) (.record v.toRaw) []
    have hutf8 := length_utf8_le key
    have hkey := length_writeFields_cons_le (by decide : 1 < 2 ^ 29) (.text key)
      [(2, .record v.toRaw)]
    have htext : (Raw.text key).write.length ≤ (utf8 key).length + 10 := by
      rw [Raw.write]
      exact length_writeDelimited_le (by omega)
    rw [Raw.writeFields, List.length_nil] at hvalue
    rw [membersToRaw]
    generalize hentry : ((if key.isEmpty then [] else [(1, Raw.text key)]) ++
      [(2, Raw.record v.toRaw)] : RawRecord) = entry
    have hlength : (Raw.writeFields entry).length ≤
        (utf8 key).length + 20 + ((Raw.writeFields v.toRaw).length + 20) := by
      rw [← hentry]
      split_ifs <;> simp only [List.nil_append, List.singleton_append] <;> omega
    have := length_writeFields_cons_le (by decide : 1 < 2 ^ 29) (.record entry) (membersToRaw rest)
    have := @length_write_record_le entry (by omega)
    omega

end

end Json

/-! ## Scalars -/

namespace Scalar

open Wire

/-- A number takes at most ten bytes. -/
theorem length_write_of_number {s : Scalar} {v : Value} (h : s.Holds v)
    (hs : s ≠ .string ∧ s ≠ .bytes) : (s.toRaw v).write.length ≤ 10 := by
  have htakes := takes_toRaw h
  cases s <;> cases v <;> first | exact h.elim | exact absurd rfl hs.1 | exact absurd rfl hs.2 | skip
  case double.double | float.single | fixed64.integer | sfixed64.integer | fixed32.integer
      | sfixed32.integer =>
    rw [toRaw, Raw.write, length_writeFixed]
    decide
  all_goals
    rw [toRaw, Raw.write]
    exact length_writeVarint_le htakes

/-- A scalar takes no more bytes than its JSON form weighs. -/
theorem length_toRaw_le {s : Scalar} {v : Value} (h : s.Holds v)
    (hweight : (s.toJson v).weight < 2 ^ 64) :
    (s.toRaw v).write.length + 32 ≤ (s.toJson v).weight := by
  by_cases hs : s ≠ .string ∧ s ≠ .bytes
  · have hlength := length_write_of_number h hs
    have hleast := Json.le_weight (s.toJson v)
    omega
  · cases s <;> cases v <;> first | exact h.elim | exact absurd ⟨by decide, by decide⟩ hs | skip
    case string.text t =>
      have hutf8 := length_utf8_le t
      rw [toJson, Json.weight] at hweight ⊢
      have := @length_writeDelimited_le (utf8 t) (by omega)
      rw [toRaw, Raw.write]
      omega
    case bytes.bytes b =>
      have hb := Base64.length_le_length_encode b
      rw [toJson, Json.weight] at hweight ⊢
      have := @length_writeDelimited_le b (by omega)
      rw [toRaw, Raw.write]
      omega

/-- A key takes few more bytes than its text. -/
theorem length_key_le {s : Scalar} (hs : s.isKey = true) {v : Value} (h : s.Holds v)
    (hlength : 4 * v.keyText.length < 2 ^ 64) :
    (s.toRaw v).write.length ≤ 4 * v.keyText.length + 10 := by
  by_cases hstring : s = .string
  · subst hstring
    cases v <;> first | exact h.elim | skip
    case text t =>
      have hutf8 := length_utf8_le t
      rw [Value.keyText] at hlength ⊢
      have := @length_writeDelimited_le (utf8 t) (by omega)
      rw [toRaw, Raw.write]
      omega
  · have := length_write_of_number h ⟨hstring, by rintro rfl; cases hs⟩
    omega

end Scalar

end ServiceCall
