import ServiceCall.Proofs.Message.Fits
/-!
# What is decoded fits

Merging fields that a layout allows into a message that fits its type leaves it fitting
(`fits_mergeFields`), field by field and at every depth. As everything that is read from the wire
is allowed by the layout, every message that is decoded fits its type (`fits_of_decode`).
-/

namespace ServiceCall.Message

open Wire (Raw RawRecord)

section

variable {p : Pool} {m : Message} {f : Field} {old : Value}

theorem mergeFields_unknown {number : Nat} (hf : p.field? m.type number = none) (v : Raw)
    (rest : RawRecord) : mergeFields p m ((number, v) :: rest) =
      mergeFields p (mk m.type m.fields (m.unknown ++ [(number, v)])) rest := by
  rw [mergeFields, hf]

theorem mergeFields_known {number : Nat} (hf : p.field? m.type number = some f) (v : Raw)
    (rest : RawRecord) : mergeFields p m ((number, v) :: rest) =
      mergeFields p (m.put p f (mergeValue p f (m.value p f) v)) rest := by
  rw [mergeFields, hf]

@[simp]
theorem type_mergeFields (p : Pool) (m : Message) (r : RawRecord) :
    (mergeFields p m r).type = m.type := by
  induction r generalizing m with
  | nil => rw [mergeFields]
  | cons x rest ih =>
    obtain ⟨number, v⟩ := x
    cases hf : p.field? m.type number with
    | none =>
      rw [mergeFields_unknown hf]
      exact ih _
    | some f =>
      rw [mergeFields_known hf]
      exact (ih _).trans (type_put ..)

/-- The message that a nested record is merged into fits its type. -/
theorem fits_recordBase (hold : old.Fits p (p.shape f)) :
    (recordBase f old).Fits p ∧ (recordBase f old).type = f.kind.name := by
  unfold recordBase
  split
  next m =>
    split
    next hrepeated => exact ⟨fits_empty p _, rfl⟩
    next hsingle =>
      rw [Pool.shape_of_single (Bool.not_eq_true _ ▸ hsingle)] at hold
      generalize f.kind = k at hold
      cases hold with
      | leaf h => exact absurd h Kind.not_holds_record
      | message h => exact ⟨h, rfl⟩
      | group h => exact ⟨h, rfl⟩
  next => exact ⟨fits_empty p _, rfl⟩

/-- A field that is no map holds a message that came, as its value or as one more item. -/
theorem fits_putRecord (hmap : p.mapEntry? f = none) (hold : old.Fits p (p.shape f))
    (hm : (Value.record m).Fits p (.one f.kind)) : (putRecord p f old m).Fits p (p.shape f) := by
  unfold putRecord
  rw [hmap]
  cases hrepeated : f.isRepeated with
  | false =>
    rw [Pool.shape_of_single hrepeated]
    simpa using hm
  | true =>
    rw [Pool.shape_of_list hrepeated hmap] at hold ⊢
    refine .list fun v hv => ?_
    obtain hv | hv := List.mem_append.1 hv
    · exact hold.itemsOf v hv
    · exact List.mem_singleton.1 hv ▸ hm

/-- A field holds a number, a text or bytes that came, as its value or as one more item. -/
theorem fits_putScalar {r : Raw} (hold : old.Fits p (p.shape f)) (hr : f.kind.slot.Takes r)
    (hmap : p.mapEntry? f = none) : (putScalar f old r).Fits p (p.shape f) := by
  have hv : (scalarValue f r).Fits p (.one f.kind) := .leaf (Kind.holds_scalarValue hr)
  unfold putScalar
  cases hrepeated : f.isRepeated with
  | false =>
    rw [Pool.shape_of_single hrepeated]
    simpa using hv
  | true =>
    rw [Pool.shape_of_list hrepeated hmap] at hold ⊢
    refine .list fun v hv' => ?_
    obtain hv' | hv' := List.mem_append.1 hv'
    · exact hold.itemsOf v hv'
    · exact List.mem_singleton.1 hv' ▸ hv

/-- A map holds the entry that came. -/
theorem fits_putRecord_entry (hp : p.Compiled) {entry : MessageType}
    (hentry : p.mapEntry? f = some entry) (hold : old.Fits p (p.shape f)) (hm : m.Fits p)
    (htype : m.type = f.kind.name) : (putRecord p f old m).Fits p (p.shape f) := by
  obtain ⟨⟨g, s, h, hfields⟩, -⟩ := hp.isEntry hentry
  obtain ⟨hname, -⟩ := Pool.messageType_of_mapEntry? hentry
  have hg : p.field? m.type 1 = some g :=
    htype ▸ Pool.field?_of_messageType (hname ▸ hfields.key)
  have hh : p.field? m.type 2 = some h :=
    htype ▸ Pool.field?_of_messageType (hname ▸ hfields.value)
  have hkey := hm.value hp hg
  rw [Pool.shape_of_single hfields.keySingle, hfields.kind] at hkey
  have hvalue := hm.value hp hh
  rw [Pool.shape_of_single hfields.valueSingle] at hvalue
  unfold putRecord
  rw [hentry]
  simp only [hfields.key, hfields.value, Option.map_some, Option.getD_some]
  rw [Pool.shape_of_map hentry hfields] at hold ⊢
  have hentries : (Value.map (entriesOf old)).Fits p (.map (.scalar s) h.kind) := by
    cases hold with
    | map hs hkeys hapart hvalues => exact .map hs hkeys hapart hvalues
  exact hentries.insertEntry hkey.holds hvalue

/-- A value of a kind that is written as a record, a group or nothing else. -/
theorem fits_record_of_kind {k : Kind} (hm : m.Fits p)
    (hk : k = .message m.type ∨ k = .group m.type) : (Value.record m).Fits p (.one k) := by
  obtain rfl | rfl := hk
  · exact .message hm
  · exact .group hm

end

mutual

/-- A field's value fits when what may stand for it on the wire is merged into it. -/
theorem fits_mergeValue {p : Pool} (hp : p.Compiled) {f : Field} {old : Value} {depth : Nat}
    (hold : old.Fits p (p.shape f)) :
    (r : Raw) → f.Allows p depth r → (mergeValue p f old r).Fits p (p.shape f)
  | .packed items, h => by
    rw [mergeValue]
    cases h with
    | run hrepeated hkind hitems =>
      have hmap : p.mapEntry? f = none := by
        simpa [Pool.isMap] using Pool.isMap_of_isPackable (p := p) hkind
      rw [Pool.shape_of_list hrepeated hmap] at hold ⊢
      refine .list fun v hv => ?_
      obtain hv | hv := List.mem_append.1 hv
      · exact hold.itemsOf v hv
      · obtain ⟨r, hr, rfl⟩ := List.mem_map.1 hv
        exact .leaf (Kind.holds_scalarValue (hitems r hr))
    | plain hmap hr => exact absurd hr (Wire.Slot.not_takes_packed _ _)
  | .record fields, h => by
    rw [mergeValue]
    obtain ⟨hbase, htype⟩ := fits_recordBase hold
    cases h with
    | plain hmap hr => exact absurd hr (Wire.Slot.not_takes_record _ _)
    | record hmap hkind h =>
      rw [hkind] at htype
      have hm := fits_mergeFields hp hbase (fun number => htype ▸ rfl) fields h
      refine fits_putRecord hmap hold (fits_record_of_kind hm (.inl ?_))
      rw [type_mergeFields, hkind, htype]
      rfl
    | entry hmap h =>
      have hm := fits_mergeFields hp hbase
        (fun number => htype.symm ▸ Pool.entry_slot? hp hmap number) fields h
      exact fits_putRecord_entry hp hmap hold hm ((type_mergeFields ..).trans htype)
  | .group fields, h => by
    rw [mergeValue]
    obtain ⟨hbase, htype⟩ := fits_recordBase hold
    cases h with
    | plain hmap hr => exact absurd hr (Wire.Slot.not_takes_group _ _)
    | group hmap hkind h =>
      rw [hkind] at htype
      have hm := fits_mergeFields hp hbase (fun number => htype ▸ rfl) fields h
      refine fits_putRecord hmap hold (fits_record_of_kind hm (.inr ?_))
      rw [type_mergeFields, hkind, htype]
      rfl
  | .varint n, h => by
    rw [mergeValue]
    cases h with
    | plain hmap hr => exact fits_putScalar hold hr hmap
  | .fixed64 n, h => by
    rw [mergeValue]
    cases h with
    | plain hmap hr => exact fits_putScalar hold hr hmap
  | .fixed32 n, h => by
    rw [mergeValue]
    cases h with
    | plain hmap hr => exact fits_putScalar hold hr hmap
  | .text s, h => by
    rw [mergeValue]
    cases h with
    | plain hmap hr => exact fits_putScalar hold hr hmap
  | .bytes b, h => by
    rw [mergeValue]
    cases h with
    | plain hmap hr => exact fits_putScalar hold hr hmap

/-- A message fits when what is allowed in its place is merged into it. -/
theorem fits_mergeFields {p : Pool} (hp : p.Compiled) {place : Wire.Within} {depth : Nat}
    {m : Message} (hm : m.Fits p)
    (hplace : ∀ number, place.slot? p.layout number = p.layout.field? m.type number) :
    (r : List (Nat × Raw)) → Wire.FieldsFit p.layout place depth r → (mergeFields p m r).Fits p
  | [], h => by
    rw [mergeFields]
    exact hm
  | (number, v) :: rest, h => by
    cases h with
    | cons hpos hlt hv hrest =>
      cases hf : p.field? m.type number with
      | none =>
        have hslot := (hplace number).trans (Pool.layout_field?_none hf)
        have hm' : (mk m.type m.fields (m.unknown ++ [(number, v)])).Fits p := by
          cases hv with
          | packed hsome | plain hsome =>
            rw [hslot] at hsome
            cases hsome
          | unknown hnone hdepth hv => exact hm.addUnknown ⟨hpos, hlt, hf, _, _, hv⟩
        rw [mergeFields_unknown hf]
        exact fits_mergeFields hp hm' hplace rest hrest
      | some f =>
        have hnumber := Pool.number_of_field? hf
        have hvalue := fits_mergeValue hp (hm.value hp hf) v
          (Pool.allows_of_fieldFits hf (hplace _) hv)
        have hplace' (number : Nat) : place.slot? p.layout number =
            p.layout.field? (m.put p f (mergeValue p f (m.value p f) v)).type number := by
          rw [type_put]
          exact hplace number
        rw [mergeFields_known hf]
        exact fits_mergeFields hp (hm.put hp (hnumber.symm ▸ hf) hvalue) hplace' rest hrest

end

variable {p : Pool} {m : Message}

/-- Every message that is decoded fits its type. -/
theorem fits_of_decode (hp : p.Compiled) {type : String} {bytes : Bytes}
    (h : decode p type bytes = .ok m) : m.Fits p ∧ m.type = type := by
  obtain ⟨r, hr, rfl⟩ := Except.map_eq_ok.1 h
  exact ⟨fits_mergeFields hp (fits_empty p type) (fun _ => rfl) r
    (Wire.fieldsFit_of_read p.packsNumbers hr), type_mergeFields ..⟩

theorem fits_of_ofRaw (hp : p.Compiled) {type : String} {r : RawRecord}
    (h : ofRaw p type r = .ok m) : m.Fits p ∧ m.type = type :=
  fits_of_decode hp (Except.mapError_eq_ok.1 h)

end ServiceCall.Message
