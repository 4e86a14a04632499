import ServiceCall.Proofs.Basic.Except
import ServiceCall.Proofs.Text.Utf8
import ServiceCall.Proofs.Wire.Number
import ServiceCall.Wire.Raw
/-!
# Records are read back from the wire

`FieldsFit` says which raw records a layout allows: numbers in range, every value in the form
that its field has, and no nesting beyond a depth. Such a record is read back as it was
written (`read_writeFields`), and every record that is read is one (`fieldsFit_of_read`).
-/

namespace ServiceCall.Wire

/-- A number, a text or bytes may be written in the slot. -/
def Slot.Takes : Slot → Raw → Prop
  | .varint, .varint n => n < 2 ^ 64
  | .fixed64, .fixed64 n => n < 2 ^ 64
  | .fixed32, .fixed32 n => n < 2 ^ 32
  | .text, .text _ => True
  | .bytes, .bytes _ => True
  | _, _ => False

theorem Slot.not_takes_packed (slot : Slot) (items : List Raw) : ¬slot.Takes (.packed items) := by
  cases slot <;> exact id

theorem Slot.not_takes_record (slot : Slot) (fields : RawRecord) :
    ¬slot.Takes (.record fields) := by
  cases slot <;> exact id

theorem Slot.not_takes_group (slot : Slot) (fields : RawRecord) : ¬slot.Takes (.group fields) := by
  cases slot <;> exact id

mutual

/-- A raw record is one that a layout allows in a place, with so many levels left. -/
inductive FieldsFit (layout : Layout) : Within → Nat → RawRecord → Prop where
  | nil (place : Within) (depth : Nat) : FieldsFit layout place depth []
  | cons {place : Within} {depth number : Nat} {v : Raw} {rest : RawRecord}
      (hpos : 1 ≤ number) (hlt : number < 2 ^ 29) (hv : FieldFits layout place depth number v)
      (hrest : FieldsFit layout place depth rest) :
      FieldsFit layout place depth ((number, v) :: rest)

/-- A value may stand under a number. -/
inductive FieldFits (layout : Layout) : Within → Nat → Nat → Raw → Prop where
  | packed {place : Within} {depth number : Nat} {slot : Slot} {name : Option String}
      {items : List Raw} (hslot : place.slot? layout number = some ⟨slot, true, name⟩)
      (hitems : ∀ v ∈ items, slot.Takes v) :
      FieldFits layout place depth number (.packed items)
  | plain {place : Within} {depth number : Nat} {slot : Slot} {packable : Bool}
      {name : Option String} {v : Raw}
      (hslot : place.slot? layout number = some ⟨slot, packable, name⟩)
      (hrun : ¬(packable = true ∧ v.wireType = .lengthDelimited))
      (hv : SlotFits layout depth slot v) : FieldFits layout place depth number v
  | unknown {place : Within} {depth number : Nat} {v : Raw}
      (hslot : place.slot? layout number = none)
      (hdepth : place.isStrict layout = true → depth ≠ 0)
      (hv : UnknownFits layout (place.isStrict layout) depth v) :
      FieldFits layout place depth number v

/-- A value may stand in a slot. -/
inductive SlotFits (layout : Layout) : Nat → Slot → Raw → Prop where
  | plain {depth : Nat} {slot : Slot} {v : Raw} (hv : slot.Takes v) : SlotFits layout depth slot v
  | record {depth : Nat} {type : String} {fields : RawRecord}
      (h : FieldsFit layout (.record type) depth fields) :
      SlotFits layout (depth + 1) (.record type) (.record fields)
  | group {depth : Nat} {type : String} {fields : RawRecord}
      (h : FieldsFit layout (.record type) depth fields) :
      SlotFits layout (depth + 1) (.group type) (.group fields)
  | entry {depth : Nat} {type : String} {counted : Bool} {fields : RawRecord}
      (hdepth : ¬(counted = true ∧ depth = 0))
      (h : FieldsFit layout (.entry type) (if counted then depth - 1 else depth) fields) :
      SlotFits layout depth (.entry type counted) (.record fields)

/-- A value may stand under a number that no layout knows. -/
inductive UnknownFits (layout : Layout) : Bool → Nat → Raw → Prop where
  | varint {strict : Bool} {depth n : Nat} (h : n < 2 ^ 64) :
      UnknownFits layout strict depth (.varint n)
  | fixed64 {strict : Bool} {depth n : Nat} (h : n < 2 ^ 64) :
      UnknownFits layout strict depth (.fixed64 n)
  | fixed32 {strict : Bool} {depth n : Nat} (h : n < 2 ^ 32) :
      UnknownFits layout strict depth (.fixed32 n)
  | bytes {strict : Bool} {depth : Nat} (b : Bytes) : UnknownFits layout strict depth (.bytes b)
  | group {strict : Bool} {depth : Nat} {fields : RawRecord}
      (h : FieldsFit layout (.unknown strict) depth fields) :
      UnknownFits layout strict (depth + 1) (.group fields)

end

/-! ## What is written is read back -/

theorem wireType_ne_endGroup (v : Raw) : v.wireType ≠ .endGroup := by
  cases v <;> simp [Raw.wireType]

theorem SlotFits.wireType_eq {layout : Layout} {depth : Nat} {slot : Slot} {v : Raw}
    (h : SlotFits layout depth slot v) : v.wireType = slot.wireType := by
  cases h with
  | plain hv => cases slot <;> cases v <;> first | exact hv.elim | rfl
  | record | group | entry => rfl

theorem SlotFits.accepts {layout : Layout} {depth : Nat} {slot : Slot} {v : Raw}
    (h : SlotFits layout depth slot v) : slot.accepts v.wireType = true := by
  rw [h.wireType_eq]
  cases slot <;> rfl

/-- A known field holds a run of values or what its slot takes. -/
theorem FieldFits.packed_or_slot {layout : Layout} {place : Within} {depth number : Nat}
    {slot : Slot} {packable : Bool} {name : Option String} {r : Raw}
    (h : FieldFits layout place depth number r)
    (hslot : place.slot? layout number = some ⟨slot, packable, name⟩) :
    (packable = true ∧ ∃ items, r = .packed items ∧ ∀ v ∈ items, slot.Takes v) ∨
      SlotFits layout depth slot r := by
  cases h with
  | packed hslot' hitems =>
    obtain ⟨rfl, rfl, -⟩ := FieldSlot.mk.inj (Option.some.inj (hslot.symm.trans hslot'))
    exact .inl ⟨rfl, _, rfl, hitems⟩
  | plain hslot' hrun hv =>
    obtain ⟨rfl, -, -⟩ := FieldSlot.mk.inj (Option.some.inj (hslot.symm.trans hslot'))
    exact .inr hv
  | unknown hnone => rw [hslot] at hnone; cases hnone

/-- What ends the value of a field: the key of its end for a group, nothing for others. -/
def ending (number : Nat) (v : Raw) : Bytes :=
  if v.wireType = .startGroup then writeKey number .endGroup else []

theorem writeFields_cons (number : Nat) (v : Raw) (rest : RawRecord) :
    Raw.writeFields ((number, v) :: rest) =
      writeKey number v.wireType ++ (v.write ++ ending number v ++ Raw.writeFields rest) := by
  simp [Raw.writeFields, ending]

theorem length_writeDelimited (b : Bytes) : b.length < (writeDelimited b).length := by
  have := length_writeVarint_pos b.length
  rw [writeDelimited, List.length_append]
  omega

theorem length_write_pos (number : Nat) (v : Raw) : 0 < (v.write ++ ending number v).length := by
  rw [List.length_append]
  cases v with
  | varint n => exact Nat.lt_add_right _ (length_writeVarint_pos n)
  | fixed64 n =>
    rw [Raw.write, length_writeFixed]
    omega
  | fixed32 n =>
    rw [Raw.write, length_writeFixed]
    omega
  | group fields => exact Nat.lt_add_left _ (length_writeKey_pos number .endGroup)
  | text _ | bytes _ | packed _ | record _ =>
    exact Nat.lt_add_right _ (Nat.zero_lt_of_lt (length_writeDelimited _))

theorem readSlot_of_takes (layout : Layout) {fuel depth number : Nat} {slot : Slot} {v : Raw}
    (h : slot.Takes v) (hl : v.write.length < 2 ^ 64) (rest : Bytes) :
    readSlot layout (fuel + 1) depth slot number (v.write ++ rest) = .ok (v, rest) := by
  cases slot <;> cases v <;> try exact h.elim
  case varint.varint n =>
    rw [readSlot, Raw.write]
    exact Except.bind_eq_ok.2 ⟨_, readVarint_writeVarint h rest, rfl⟩
  case fixed64.fixed64 n =>
    rw [readSlot, Raw.write]
    exact Except.bind_eq_ok.2 ⟨_, readFixed_writeFixed h rest, rfl⟩
  case fixed32.fixed32 n =>
    rw [readSlot, Raw.write]
    exact Except.bind_eq_ok.2 ⟨_, readFixed_writeFixed h rest, rfl⟩
  case text.text s =>
    rw [Raw.write] at hl
    have hs := Nat.lt_trans (length_writeDelimited (utf8 s)) hl
    rw [readSlot, Raw.write]
    refine Except.bind_eq_ok.2 ⟨_, readDelimited_writeDelimited hs rest, ?_⟩
    simp only [Utf8.decode?_utf8]
    rfl
  case bytes.bytes b =>
    rw [Raw.write] at hl
    have hb := Nat.lt_trans (length_writeDelimited b) hl
    rw [readSlot, Raw.write]
    exact Except.bind_eq_ok.2 ⟨_, readDelimited_writeDelimited hb rest, rfl⟩

theorem not_group_of_takes {slot : Slot} {v : Raw} (h : slot.Takes v) :
    v.wireType ≠ .startGroup := by
  cases v with
  | group fields => cases slot <;> exact h.elim
  | _ => simp [Raw.wireType]

/-- A value that a slot takes is no group, so nothing stands behind it. -/
theorem readSlot_write_of_takes (layout : Layout) {fuel depth number : Nat} {slot : Slot} {v : Raw}
    (h : slot.Takes v) (hl : (v.write ++ ending number v).length < 2 ^ 64)
    (hf : 2 * (v.write ++ ending number v).length ≤ fuel) (rest : Bytes) :
    readSlot layout fuel depth slot number (v.write ++ ending number v ++ rest) = .ok (v, rest) := by
  have hpos := length_write_pos number v
  obtain ⟨fuel, rfl⟩ : ∃ n, fuel = n + 1 := ⟨fuel - 1, by omega⟩
  rw [ending, if_neg (not_group_of_takes h), List.append_nil] at hl ⊢
  exact readSlot_of_takes layout h hl rest

/-- A value under a number that is not known is read back by its wire type, unless it is a
group. -/
theorem readUnknown_write_of_leaf (layout : Layout) {fuel depth number : Nat} {strict : Bool}
    {v : Raw} (hv : ∀ fields, v ≠ .group fields) (h : UnknownFits layout strict depth v)
    (hl : (v.write ++ ending number v).length < 2 ^ 64)
    (hf : 2 * (v.write ++ ending number v).length ≤ fuel) (rest : Bytes) :
    readUnknown layout fuel strict depth number v.wireType (v.write ++ ending number v ++ rest) =
      .ok (v, rest) := by
  have hpos := length_write_pos number v
  obtain ⟨fuel, rfl⟩ : ∃ n, fuel = n + 1 := ⟨fuel - 1, by omega⟩
  have hleaf : v.wireType ≠ .startGroup := by
    cases v with
    | group fields => exact absurd rfl (hv fields)
    | _ => simp [Raw.wireType]
  rw [ending, if_neg hleaf, List.append_nil] at hl ⊢
  cases h with
  | varint hn =>
    rw [Raw.wireType, Raw.write, readUnknown]
    exact Except.bind_eq_ok.2 ⟨_, readVarint_writeVarint hn rest, rfl⟩
  | fixed64 hn =>
    rw [Raw.wireType, Raw.write, readUnknown]
    exact Except.bind_eq_ok.2 ⟨_, readFixed_writeFixed hn rest, rfl⟩
  | fixed32 hn =>
    rw [Raw.wireType, Raw.write, readUnknown]
    exact Except.bind_eq_ok.2 ⟨_, readFixed_writeFixed hn rest, rfl⟩
  | bytes b =>
    have hb := Nat.lt_trans (length_writeDelimited b) hl
    rw [Raw.wireType, Raw.write, readUnknown]
    exact Except.bind_eq_ok.2 ⟨_, readDelimited_writeDelimited hb rest, rfl⟩
  | group _ => exact absurd rfl (hv _)

/-- A run of values is read up to the limit behind it. -/
theorem readItems_writeItems (layout : Layout) {fuel : Nat} {slot : Slot} {items : List Raw}
    (h : ∀ v ∈ items, slot.Takes v) (hl : (Raw.writeItems items).length < 2 ^ 64)
    (hf : 2 * (Raw.writeItems items).length + 1 ≤ fuel) (rest : Bytes) :
    readItems layout fuel slot rest.length (Raw.writeItems items ++ rest) = .ok (items, rest) := by
  induction items generalizing fuel with
  | nil =>
    obtain ⟨fuel, rfl⟩ := Nat.exists_eq_add_of_le' hf
    simp [readItems, Raw.writeItems]
  | cons v items ih =>
    have hv := h v List.mem_cons_self
    have hpos := length_write_pos 0 v
    rw [ending, if_neg (not_group_of_takes hv), List.append_nil] at hpos
    rw [Raw.writeItems, List.length_append] at hl hf
    obtain ⟨fuel, rfl⟩ : ∃ n, fuel = n + 2 := ⟨fuel - 2, by omega⟩
    rw [readItems, Raw.writeItems, List.append_assoc, if_neg (by simp; omega)]
    refine Except.bind_eq_ok.2 ⟨_, readSlot_of_takes layout hv (by omega) _, ?_⟩
    have hitems := ih (fun w hw => h w (List.mem_cons_of_mem v hw)) (by omega)
      (show _ ≤ fuel + 1 by omega)
    exact Except.bind_eq_ok.2 ⟨_, hitems, rfl⟩

/-- Where reading a record stops: nowhere before the limit, or at the end of a group. -/
def closing : Option Nat → Bytes
  | none => []
  | some number => writeKey number .endGroup

/-- One more field in front of a record that is read. -/
theorem readFields_cons {layout : Layout} {fuel : Nat} {place : Within}
    {depth limit number : Nat} {group : Option Nat} {s afterKey afterValue rest : Bytes}
    {t : WireType} {v : Raw} {more : RawRecord}
    (hmore : ¬(group.isNone = true ∧ s.length ≤ limit))
    (hkey : readKey s = .ok (number, t, afterKey)) (ht : t ≠ .endGroup)
    (hfield : readField layout fuel place depth number t afterKey = .ok (v, afterValue))
    (hrest : readFields layout fuel place depth limit group afterValue = .ok (more, rest)) :
    readFields layout (fuel + 1) place depth limit group s = .ok ((number, v) :: more, rest) := by
  rw [readFields, if_neg hmore]
  refine Except.bind_eq_ok.2 ⟨_, hkey, ?_⟩
  simp only [ht, and_false, if_false]
  refine Except.bind_eq_ok.2 ⟨_, hfield, ?_⟩
  exact Except.bind_eq_ok.2 ⟨_, hrest, rfl⟩

/-- Nothing more of a record is read where it stops. -/
theorem readFields_closing (layout : Layout) (fuel : Nat) (place : Within) (depth : Nat)
    {limit : Nat} {group : Option Nat} {rest : Bytes} (hlimit : group = none → limit = rest.length)
    (hgroup : ∀ number ∈ group, 1 ≤ number ∧ number < 2 ^ 29) :
    readFields layout (fuel + 1) place depth limit group (closing group ++ rest) =
      .ok ([], rest) := by
  cases group with
  | none => simp [readFields, closing, hlimit rfl]
  | some number =>
    obtain ⟨hpos, hlt⟩ := hgroup number rfl
    simp only [readFields, closing, Option.isNone_some, Bool.false_eq_true, false_and, if_false]
    refine Except.bind_eq_ok.2 ⟨_, readKey_writeKey hpos hlt .endGroup rest, ?_⟩
    simp

/-- A field is read back if its value is, in its slot or as that of an unknown field. -/
theorem readField_write {layout : Layout} {fuel : Nat} {place : Within} {depth number : Nat}
    {v : Raw} {rest : Bytes} (h : FieldFits layout place depth number v)
    (hl : (v.write ++ ending number v).length < 2 ^ 64)
    (hf : 2 * (v.write ++ ending number v).length ≤ fuel)
    (hslot : ∀ slot, SlotFits layout depth slot v →
      readSlot layout fuel depth slot number (v.write ++ ending number v ++ rest) = .ok (v, rest))
    (hunknown : UnknownFits layout (place.isStrict layout) depth v →
      readUnknown layout fuel (place.isStrict layout) depth number v.wireType
        (v.write ++ ending number v ++ rest) = .ok (v, rest)) :
    readField layout (fuel + 1) place depth number v.wireType
      (v.write ++ ending number v ++ rest) = .ok (v, rest) := by
  cases h with
  | @packed _ _ _ slot _ items hfield hitems =>
    have hitemsLength := length_writeDelimited (Raw.writeItems items)
    simp only [Raw.write, ending, Raw.wireType, reduceCtorEq, if_false, List.append_nil]
      at hl hf ⊢
    rw [readField, hfield]
    refine Except.mapError_eq_ok.2 ?_
    rw [if_pos ⟨rfl, rfl⟩, writeDelimited, List.append_assoc]
    refine Except.bind_eq_ok.2 ⟨_, readVarint_writeVarint (by omega) _, ?_⟩
    have hread := readItems_writeItems layout hitems (by omega)
      (show _ ≤ fuel by omega) rest
    simp only [List.length_append, Nat.add_sub_cancel_left]
    rw [if_neg (by omega)]
    exact Except.bind_eq_ok.2 ⟨_, hread, rfl⟩
  | @plain _ _ _ slot packable name _ hfield hrun hv =>
    rw [readField, hfield]
    refine Except.mapError_eq_ok.2 ?_
    rw [if_neg hrun, if_pos hv.accepts]
    exact hslot slot hv
  | unknown hfield hdepth hv =>
    rw [readField, hfield]
    have hdeep : ¬(place.isStrict layout = true ∧ depth = 0) := fun hd => hdepth hd.1 hd.2
    simp only [if_neg hdeep]
    exact hunknown hv

/-- A nested record is read back if its fields are. -/
theorem readFields_writeDelimited {layout : Layout} {fuel : Nat} {place : Within} {depth : Nat}
    {fields : RawRecord} {rest : Bytes}
    (hl : (writeDelimited (Raw.writeFields fields)).length < 2 ^ 64)
    (h : readFields layout fuel place depth rest.length none (Raw.writeFields fields ++ rest) =
      .ok (fields, rest)) :
    (do
      let (n, rest) ← readVarint (writeDelimited (Raw.writeFields fields) ++ rest)
      if rest.length < n then .error .underflow
      else
        let (fields, rest) ← readFields layout fuel place depth (rest.length - n) none rest
        return (Raw.record fields, rest)) = .ok (.record fields, rest) := by
  have hlength := length_writeDelimited (Raw.writeFields fields)
  rw [writeDelimited, List.append_assoc]
  refine Except.bind_eq_ok.2 ⟨_, readVarint_writeVarint (by omega) _, ?_⟩
  simp only [List.length_append, Nat.add_sub_cancel_left]
  rw [if_neg (by omega)]
  exact Except.bind_eq_ok.2 ⟨_, h, rfl⟩

mutual

theorem readFields_writeFields (layout : Layout) (group : Option Nat) (limit : Nat) (rest : Bytes)
    {fuel : Nat} {place : Within} {depth : Nat} :
    (r : List (Nat × Raw)) → FieldsFit layout place depth r →
      (Raw.writeFields r).length < 2 ^ 64 → 2 * (Raw.writeFields r).length + 1 ≤ fuel →
      (group = none → limit = rest.length) →
      (∀ number ∈ group, 1 ≤ number ∧ number < 2 ^ 29) →
      readFields layout fuel place depth limit group
        (Raw.writeFields r ++ (closing group ++ rest)) = .ok (r, rest)
  | [], _, _, hf, hlimit, hgroup => by
    obtain ⟨fuel, rfl⟩ := Nat.exists_eq_add_of_le' hf
    exact readFields_closing layout fuel place depth hlimit hgroup
  | (number, v) :: more, h, hl, hf, hlimit, hgroup => by
    obtain _ | ⟨hpos, hlt, hv, hmore⟩ := h
    have hkey := length_writeKey_pos number v.wireType
    have hvalue := length_write_pos number v
    rw [writeFields_cons, List.length_append, List.length_append] at hl hf
    obtain ⟨fuel, rfl⟩ : ∃ n, fuel = n + 2 := ⟨fuel - 2, by omega⟩
    rw [writeFields_cons, List.append_assoc, List.append_assoc]
    refine readFields_cons ?_ (readKey_writeKey hpos hlt v.wireType _) (wireType_ne_endGroup v)
      (readField_write hv (by omega) (by omega)
        (fun slot hs => readSlot_write layout v hs hpos hlt (by omega) (by omega))
        (fun hu => readUnknown_write layout v hu hpos hlt (by omega) (by omega)))
      (readFields_writeFields layout group limit rest more hmore (by omega) (by omega) hlimit
        hgroup)
    rintro ⟨hnone, hle⟩
    have hend := hlimit (Option.isNone_iff_eq_none.1 hnone)
    simp only [List.length_append] at hle hvalue
    omega

theorem readSlot_write (layout : Layout) {fuel depth number : Nat} {slot : Slot} {rest : Bytes} :
    (v : Raw) → SlotFits layout depth slot v → 1 ≤ number → number < 2 ^ 29 →
      (v.write ++ ending number v).length < 2 ^ 64 →
      2 * (v.write ++ ending number v).length ≤ fuel →
      readSlot layout fuel depth slot number (v.write ++ ending number v ++ rest) = .ok (v, rest)
  | .record fields, h, hpos, hlt, hl, hf => by
    have hlength := length_writeDelimited (Raw.writeFields fields)
    simp only [Raw.write, ending, Raw.wireType, reduceCtorEq, if_false, List.append_nil]
      at hl hf ⊢
    obtain ⟨fuel, rfl⟩ : ∃ n, fuel = n + 1 := ⟨fuel - 1, by omega⟩
    cases h with
    | plain hv => cases slot <;> exact hv.elim
    | record hfields =>
      have hread := readFields_writeFields layout none rest.length rest fields hfields (by omega)
        (show _ ≤ fuel by omega) (fun _ => rfl) (fun number (hn : number ∈ none) => nomatch hn)
      rw [readSlot]
      exact readFields_writeDelimited hl hread
    | entry hdepth hfields =>
      have hread := readFields_writeFields layout none rest.length rest fields hfields (by omega)
        (show _ ≤ fuel by omega) (fun _ => rfl) (fun number (hn : number ∈ none) => nomatch hn)
      rw [readSlot, if_neg hdepth]
      exact readFields_writeDelimited hl hread
  | .group fields, h, hpos, hlt, hl, hf => by
    have hend := length_writeKey_pos number .endGroup
    simp only [Raw.write, ending, Raw.wireType, if_true, List.length_append] at hl hf ⊢
    obtain ⟨fuel, rfl⟩ : ∃ n, fuel = n + 1 := ⟨fuel - 1, by omega⟩
    cases h with
    | plain hv => cases slot <;> exact hv.elim
    | group hfields =>
      have hread := readFields_writeFields layout (some number) 0 rest fields hfields (by omega)
        (show _ ≤ fuel by omega) (fun hn => nomatch hn)
        (fun _ hn => Option.some.inj hn ▸ ⟨hpos, hlt⟩)
      rw [List.append_assoc, readSlot]
      exact Except.bind_eq_ok.2 ⟨_, hread, rfl⟩
  | .varint _, h, _, _, hl, hf | .fixed64 _, h, _, _, hl, hf | .fixed32 _, h, _, _, hl, hf
  | .text _, h, _, _, hl, hf | .bytes _, h, _, _, hl, hf | .packed _, h, _, _, hl, hf => by
    cases h with
    | plain hv => exact readSlot_write_of_takes layout hv hl hf rest

theorem readUnknown_write (layout : Layout) {fuel depth number : Nat} {strict : Bool}
    {rest : Bytes} :
    (v : Raw) → UnknownFits layout strict depth v → 1 ≤ number → number < 2 ^ 29 →
      (v.write ++ ending number v).length < 2 ^ 64 →
      2 * (v.write ++ ending number v).length ≤ fuel →
      readUnknown layout fuel strict depth number v.wireType (v.write ++ ending number v ++ rest) =
        .ok (v, rest)
  | .group fields, h, hpos, hlt, hl, hf => by
    have hend := length_writeKey_pos number .endGroup
    simp only [Raw.write, ending, Raw.wireType, if_true, List.length_append] at hl hf ⊢
    obtain ⟨fuel, rfl⟩ : ∃ n, fuel = n + 1 := ⟨fuel - 1, by omega⟩
    cases h with
    | group hfields =>
      have hread := readFields_writeFields layout (some number) 0 rest fields hfields (by omega)
        (show _ ≤ fuel by omega) (fun hn => nomatch hn)
        (fun _ hn => Option.some.inj hn ▸ ⟨hpos, hlt⟩)
      rw [List.append_assoc, readUnknown]
      exact Except.bind_eq_ok.2 ⟨_, hread, rfl⟩
  | .varint _, h, _, _, hl, hf | .fixed64 _, h, _, _, hl, hf | .fixed32 _, h, _, _, hl, hf
  | .text _, h, _, _, hl, hf | .bytes _, h, _, _, hl, hf | .packed _, h, _, _, hl, hf
  | .record _, h, _, _, hl, hf =>
    readUnknown_write_of_leaf layout (by simp) h hl hf rest

end

/-- A record that a layout allows is read back as it was written. -/
theorem read_writeFields {layout : Layout} {type : String} {r : RawRecord}
    (h : FieldsFit layout (.record type) maxDepth r) (hl : (Raw.writeFields r).length < 2 ^ 64) :
    read layout type (Raw.writeFields r) = .ok r := by
  have hread := readFields_writeFields layout none 0 [] r h hl
    (show _ ≤ 4 * (Raw.writeFields r).length + 4 by omega) (fun _ => rfl)
    (fun number (hn : number ∈ none) => nomatch hn)
  rw [closing, List.nil_append, List.append_nil] at hread
  exact Except.map_eq_ok.2 ⟨_, hread, rfl⟩

/-! ## What is read is allowed -/

/-- Values that can be told apart only by their number of bytes do not stand in runs. -/
def Layout.PacksNumbers (layout : Layout) : Prop :=
  ∀ type number f, layout.field? type number = some f → f.packable = true →
    f.slot = .varint ∨ f.slot = .fixed64 ∨ f.slot = .fixed32

/-- What is read with so much fuel is allowed. -/
structure ReadsFitting (layout : Layout) (fuel : Nat) : Prop where
  fields {place : Within} {depth limit : Nat} {group : Option Nat} {s rest : Bytes}
    {r : RawRecord} :
    readFields layout fuel place depth limit group s = .ok (r, rest) →
      FieldsFit layout place depth r
  field {place : Within} {depth number : Nat} {t : WireType} {s rest : Bytes} {v : Raw} :
    readField layout fuel place depth number t s = .ok (v, rest) →
      FieldFits layout place depth number v
  items {slot : Slot} {limit : Nat} {s rest : Bytes} {vs : List Raw} :
    readItems layout fuel slot limit s = .ok (vs, rest) → ∀ v ∈ vs, SlotFits layout 0 slot v
  slot {depth number : Nat} {slot : Slot} {s rest : Bytes} {v : Raw} :
    readSlot layout fuel depth slot number s = .ok (v, rest) → SlotFits layout depth slot v
  unknown {strict : Bool} {depth number : Nat} {t : WireType} {s rest : Bytes} {v : Raw} :
    readUnknown layout fuel strict depth number t s = .ok (v, rest) →
      UnknownFits layout strict depth v

variable {layout : Layout} {fuel : Nat}

theorem ReadsFitting.fields_succ (ih : ReadsFitting layout fuel) {place : Within}
    {depth limit : Nat} {group : Option Nat} {s rest : Bytes} {r : RawRecord}
    (h : readFields layout (fuel + 1) place depth limit group s = .ok (r, rest)) :
    FieldsFit layout place depth r := by
  rw [readFields] at h
  split_ifs at h
  · cases h
    exact .nil ..
  · obtain ⟨⟨number, t, afterKey⟩, hkey, h⟩ := Except.bind_eq_ok.1 h
    obtain ⟨hpos, hlt⟩ := number_of_readKey hkey
    simp only at h
    split_ifs at h
    · cases h
      exact .nil ..
    · obtain ⟨⟨v, afterValue⟩, hv, h⟩ := Except.bind_eq_ok.1 h
      obtain ⟨⟨more, rest'⟩, hmore, h⟩ := Except.bind_eq_ok.1 h
      cases h
      exact .cons hpos hlt (ih.field hv) (ih.fields hmore)

theorem ReadsFitting.items_succ (ih : ReadsFitting layout fuel) {slot : Slot} {limit : Nat}
    {s rest : Bytes} {vs : List Raw}
    (h : readItems layout (fuel + 1) slot limit s = .ok (vs, rest)) :
    ∀ v ∈ vs, SlotFits layout 0 slot v := by
  rw [readItems] at h
  split_ifs at h
  · cases h
    exact fun v hv => absurd hv List.not_mem_nil
  · obtain ⟨⟨v, afterValue⟩, hv, h⟩ := Except.bind_eq_ok.1 h
    obtain ⟨⟨more, rest'⟩, hmore, h⟩ := Except.bind_eq_ok.1 h
    cases h
    exact List.forall_mem_cons.2 ⟨ih.slot hv, ih.items hmore⟩

theorem within_slot?_packs (hpack : layout.PacksNumbers) {place : Within} {number : Nat}
    {f : FieldSlot} (h : place.slot? layout number = some f) (hf : f.packable = true) :
    f.slot = .varint ∨ f.slot = .fixed64 ∨ f.slot = .fixed32 := by
  cases place with
  | record type => exact hpack type number f h hf
  | entry type =>
    simp only [Within.slot?] at h
    split_ifs at h
    exact hpack type number f h hf
  | unknown strict => cases h

theorem SlotFits.takes_of_number {depth : Nat} {slot : Slot} {v : Raw}
    (h : SlotFits layout depth slot v)
    (hs : slot = .varint ∨ slot = .fixed64 ∨ slot = .fixed32) : slot.Takes v := by
  cases h with
  | plain hv => exact hv
  | record | group | entry => obtain h | h | h := hs <;> cases h

theorem ReadsFitting.field_succ (hpack : layout.PacksNumbers) (ih : ReadsFitting layout fuel)
    {place : Within} {depth number : Nat} {t : WireType} {s rest : Bytes} {v : Raw}
    (h : readField layout (fuel + 1) place depth number t s = .ok (v, rest)) :
    FieldFits layout place depth number v := by
  rw [readField] at h
  cases hslot : place.slot? layout number with
  | none =>
    simp only [hslot] at h
    split_ifs at h with hdepth
    exact .unknown hslot (fun hs hd => hdepth ⟨hs, hd⟩) (ih.unknown h)
  | some f =>
    obtain ⟨slot, packable, name⟩ := f
    simp only [hslot] at h
    replace h := Except.mapError_eq_ok.1 h
    split_ifs at h with hrun haccepts
    · obtain ⟨rfl, rfl⟩ := hrun
      obtain ⟨⟨n, afterLength⟩, -, h⟩ := Except.bind_eq_ok.1 h
      simp only at h
      split_ifs at h
      obtain ⟨⟨items, rest'⟩, hitems, h⟩ := Except.bind_eq_ok.1 h
      cases h
      exact .packed hslot fun v hv =>
        (ih.items hitems v hv).takes_of_number (within_slot?_packs hpack hslot rfl)
    · have hv := ih.slot h
      refine .plain hslot (fun hruns => ?_) hv
      obtain ⟨hp, hw⟩ := hruns
      rw [hv.wireType_eq] at hw
      obtain rfl | rfl | rfl := within_slot?_packs hpack hslot hp <;> cases hw

theorem ReadsFitting.slot_succ (ih : ReadsFitting layout fuel) {depth number : Nat} {slot : Slot}
    {s rest : Bytes} {v : Raw}
    (h : readSlot layout (fuel + 1) depth slot number s = .ok (v, rest)) :
    SlotFits layout depth slot v := by
  cases slot with
  | varint =>
    rw [readSlot] at h
    obtain ⟨⟨n, rest'⟩, hn, h⟩ := Except.bind_eq_ok.1 h
    cases h
    exact .plain (lt_of_readVarint hn)
  | fixed64 =>
    rw [readSlot] at h
    obtain ⟨⟨n, rest'⟩, hn, h⟩ := Except.bind_eq_ok.1 h
    cases h
    exact .plain (lt_of_readFixed hn)
  | fixed32 =>
    rw [readSlot] at h
    obtain ⟨⟨n, rest'⟩, hn, h⟩ := Except.bind_eq_ok.1 h
    cases h
    exact .plain (lt_of_readFixed hn)
  | text =>
    rw [readSlot] at h
    obtain ⟨⟨b, rest'⟩, -, h⟩ := Except.bind_eq_ok.1 h
    simp only at h
    split at h
    · cases h
      exact .plain trivial
    · cases h
  | bytes =>
    rw [readSlot] at h
    obtain ⟨⟨b, rest'⟩, -, h⟩ := Except.bind_eq_ok.1 h
    cases h
    exact .plain trivial
  | record type =>
    cases depth with
    | zero => simp [readSlot] at h
    | succ depth =>
      rw [readSlot] at h
      obtain ⟨⟨n, rest'⟩, -, h⟩ := Except.bind_eq_ok.1 h
      simp only at h
      split_ifs at h
      obtain ⟨⟨fields, rest''⟩, hfields, h⟩ := Except.bind_eq_ok.1 h
      cases h
      exact .record (ih.fields hfields)
  | group type =>
    cases depth with
    | zero => simp [readSlot] at h
    | succ depth =>
      rw [readSlot] at h
      obtain ⟨⟨fields, rest'⟩, hfields, h⟩ := Except.bind_eq_ok.1 h
      cases h
      exact .group (ih.fields hfields)
  | entry type counted =>
    rw [readSlot] at h
    by_cases hdepth : counted = true ∧ depth = 0
    · rw [if_pos hdepth] at h
      cases h
    · rw [if_neg hdepth] at h
      obtain ⟨⟨n, rest'⟩, -, h⟩ := Except.bind_eq_ok.1 h
      simp only at h
      split at h
      · cases h
      · obtain ⟨⟨fields, rest''⟩, hfields, h⟩ := Except.bind_eq_ok.1 h
        cases h
        exact .entry hdepth (ih.fields hfields)

theorem ReadsFitting.unknown_succ (ih : ReadsFitting layout fuel) {strict : Bool}
    {depth number : Nat} {t : WireType} {s rest : Bytes} {v : Raw}
    (h : readUnknown layout (fuel + 1) strict depth number t s = .ok (v, rest)) :
    UnknownFits layout strict depth v := by
  cases t with
  | varint =>
    rw [readUnknown] at h
    obtain ⟨⟨n, rest'⟩, hn, h⟩ := Except.bind_eq_ok.1 h
    cases h
    exact .varint (lt_of_readVarint hn)
  | sixtyFourBit =>
    rw [readUnknown] at h
    obtain ⟨⟨n, rest'⟩, hn, h⟩ := Except.bind_eq_ok.1 h
    cases h
    exact .fixed64 (lt_of_readFixed hn)
  | thirtyTwoBit =>
    rw [readUnknown] at h
    obtain ⟨⟨n, rest'⟩, hn, h⟩ := Except.bind_eq_ok.1 h
    cases h
    exact .fixed32 (lt_of_readFixed hn)
  | lengthDelimited =>
    rw [readUnknown] at h
    obtain ⟨⟨b, rest'⟩, -, h⟩ := Except.bind_eq_ok.1 h
    cases h
    exact .bytes b
  | startGroup =>
    cases depth with
    | zero => simp [readUnknown] at h
    | succ depth =>
      rw [readUnknown] at h
      obtain ⟨⟨fields, rest'⟩, hfields, h⟩ := Except.bind_eq_ok.1 h
      cases h
      exact .group (ih.fields hfields)
  | endGroup => simp [readUnknown] at h

theorem readsFitting (hpack : layout.PacksNumbers) (fuel : Nat) : ReadsFitting layout fuel := by
  induction fuel with
  | zero =>
    constructor <;> intros <;>
      simp [readFields, readField, readItems, readSlot, readUnknown] at *
  | succ fuel ih =>
    exact ⟨ih.fields_succ, ih.field_succ hpack, ih.items_succ, ih.slot_succ, ih.unknown_succ⟩

/-- Every record that is read is one that the layout allows. -/
theorem fieldsFit_of_read (hpack : layout.PacksNumbers) {type : String} {s : Bytes} {r : RawRecord}
    (h : read layout type s = .ok r) : FieldsFit layout (.record type) maxDepth r := by
  obtain ⟨⟨r', rest⟩, hread, rfl⟩ := Except.map_eq_ok.1 h
  exact (readsFitting hpack _).fields hread

end ServiceCall.Wire
