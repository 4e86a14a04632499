import ServiceCall.Proofs.Schema.Compiled
import ServiceCall.Proofs.Wire.Record
/-!
# How fields are written

The layout of a pool says how each field is written. What may stand on the wire for a field
(`Field.Allows`) is what the layout lets stand under its number (`fieldFits_iff_allows`): a number,
a text or bytes as its kind says, a run of numbers for a list, a nested record, or an entry of a
map.
-/

namespace ServiceCall

open Wire (Raw RawRecord)

theorem Kind.slot_of_isPackable {k : Kind} (h : k.isPackable = true) :
    k.slot = .varint ∨ k.slot = .fixed64 ∨ k.slot = .fixed32 := by
  cases k with
  | scalar s => cases s <;> revert h <;> decide
  | enumeration name => exact .inl rfl
  | message name | group name => cases h

namespace Pool

variable {p : Pool} {type : String} {number : Nat} {f : Field} {entry : MessageType}

theorem layout_field? (hf : p.field? type number = some f) :
    p.layout.field? type number = some ⟨if p.isMap f then .entry f.kind.name false else f.kind.slot,
      f.isRepeated && f.kind.isPackable, none⟩ := by
  simp only [layout, hf, Option.map_some]

theorem layout_field?_none (hf : p.field? type number = none) :
    p.layout.field? type number = none := by
  simp only [layout, hf, Option.map_none]

theorem isMap_of_isPackable (h : f.kind.isPackable = true) : p.isMap f = false := by
  unfold isMap
  cases hentry : p.mapEntry? f with
  | none => rfl
  | some entry => rw [(mapEntry?_eq_some hentry).2.2.2] at h; cases h

/-- Only numbers are packed. -/
theorem packsNumbers (p : Pool) : p.layout.PacksNumbers := by
  intro type number slot hslot hpackable
  obtain ⟨f, hf, rfl⟩ := Option.map_eq_some_iff.1 hslot
  obtain ⟨-, hkind⟩ := Bool.and_eq_true_iff.1 hpackable
  rw [isMap_of_isPackable hkind]
  exact Kind.slot_of_isPackable hkind

/-- An entry of a map is written as a message of its type. -/
theorem entry_slot? (hp : p.Compiled) (h : p.mapEntry? f = some entry) (number : Nat) :
    (Wire.Within.entry f.kind.name).slot? p.layout number =
      p.layout.field? f.kind.name number := by
  obtain ⟨-, honly⟩ := hp.isEntry h
  obtain ⟨htype, hname⟩ := messageType_of_mapEntry? h
  rw [hname] at honly
  rw [Wire.Within.slot?]
  split
  next => rfl
  next hnumber =>
    cases hfield : p.field? f.kind.name number with
    | none => exact (layout_field?_none hfield).symm
    | some g =>
      obtain ⟨hg, rfl⟩ := field?_eq_some hfield
      exact absurd (honly g (List.mem_append.2 (htype ▸ hg))) hnumber

end Pool

/-- What may stand on the wire for a field, with so many levels left. -/
inductive Field.Allows (p : Pool) (f : Field) : Nat → Raw → Prop where
  | run {depth : Nat} {items : List Raw} (hrepeated : f.isRepeated = true)
      (hkind : f.kind.isPackable = true) (hitems : ∀ v ∈ items, f.kind.slot.Takes v) :
      Field.Allows p f depth (.packed items)
  | plain {depth : Nat} {r : Raw} (hmap : p.mapEntry? f = none) (hr : f.kind.slot.Takes r) :
      Field.Allows p f depth r
  | record {depth : Nat} {fields : RawRecord} {name : String} (hmap : p.mapEntry? f = none)
      (hkind : f.kind = .message name) (h : Wire.FieldsFit p.layout (.record name) depth fields) :
      Field.Allows p f (depth + 1) (.record fields)
  | group {depth : Nat} {fields : RawRecord} {name : String} (hmap : p.mapEntry? f = none)
      (hkind : f.kind = .group name) (h : Wire.FieldsFit p.layout (.record name) depth fields) :
      Field.Allows p f (depth + 1) (.group fields)
  | entry {depth : Nat} {fields : RawRecord} {entry : MessageType} (hmap : p.mapEntry? f = some entry)
      (h : Wire.FieldsFit p.layout (.entry f.kind.name) depth fields) :
      Field.Allows p f depth (.record fields)

theorem Kind.wireType_of_takes {k : Kind} {r : Raw} (hk : k.isPackable = true)
    (h : k.slot.Takes r) : r.wireType ≠ .lengthDelimited := by
  obtain hs | hs | hs := slot_of_isPackable hk <;> rw [hs] at h <;> cases r <;>
    first | exact h.elim | simp [Raw.wireType]

theorem Kind.slot_eq_record {k : Kind} {type : String} (h : k.slot = .record type) :
    k = .message type := by
  cases k with
  | scalar s => cases s <;> cases h
  | message name => cases h; rfl
  | enumeration name | group name => cases h

theorem Kind.slot_eq_group {k : Kind} {type : String} (h : k.slot = .group type) :
    k = .group type := by
  cases k with
  | scalar s => cases s <;> cases h
  | group name => cases h; rfl
  | enumeration name | message name => cases h

theorem Kind.slot_ne_entry {k : Kind} {type : String} {counted : Bool} :
    k.slot ≠ .entry type counted := by
  cases k with
  | scalar s => cases s <;> simp [slot, Scalar.slot]
  | _ => simp [slot]

namespace Pool

variable {p : Pool} {type : String} {number depth : Nat} {f : Field} {place : Wire.Within} {r : Raw}

theorem allows_of_fieldFits (hf : p.field? type number = some f)
    (hplace : place.slot? p.layout number = p.layout.field? type number)
    (h : Wire.FieldFits p.layout place depth number r) : f.Allows p depth r := by
  obtain ⟨hpackable, items, rfl, hitems⟩ | hslot :=
    h.packed_or_slot (hplace.trans (layout_field? hf))
  · obtain ⟨hrepeated, hkind⟩ := Bool.and_eq_true_iff.1 hpackable
    rw [isMap_of_isPackable hkind] at hitems
    exact .run hrepeated hkind hitems
  · unfold isMap at hslot
    cases hmap : p.mapEntry? f with
    | some entry =>
      rw [hmap] at hslot
      cases hslot with
      | plain hv => exact hv.elim
      | entry hdepth hfields => exact .entry hmap hfields
    | none =>
      rw [hmap] at hslot
      replace hslot : Wire.SlotFits p.layout depth f.kind.slot r := hslot
      generalize hs : f.kind.slot = slot at hslot
      cases hslot with
      | plain hv => exact .plain hmap (hs ▸ hv)
      | record hfields => exact .record hmap (Kind.slot_eq_record hs) hfields
      | group hfields => exact .group hmap (Kind.slot_eq_group hs) hfields
      | entry hdepth hfields => exact absurd hs Kind.slot_ne_entry

theorem fieldFits_of_allows (hf : p.field? type number = some f)
    (hplace : place.slot? p.layout number = p.layout.field? type number)
    (h : f.Allows p depth r) : Wire.FieldFits p.layout place depth number r := by
  have hslot := hplace.trans (layout_field? hf)
  cases h with
  | run hrepeated hkind hitems =>
    rw [isMap_of_isPackable hkind, hrepeated, hkind] at hslot
    exact .packed hslot hitems
  | plain hmap hr =>
    have hmap' : p.isMap f = false := by rw [isMap, hmap]; rfl
    rw [hmap'] at hslot
    refine .plain hslot (fun hrun => ?_) (.plain hr)
    obtain ⟨hpackable, htype⟩ := hrun
    exact Kind.wireType_of_takes (Bool.and_eq_true_iff.1 hpackable).2 hr htype
  | record hmap hkind h =>
    have hmap' : p.isMap f = false := by rw [isMap, hmap]; rfl
    rw [hmap', hkind] at hslot
    exact .plain hslot (by simp [Kind.isPackable]) (.record h)
  | group hmap hkind h =>
    have hmap' : p.isMap f = false := by rw [isMap, hmap]; rfl
    rw [hmap', hkind] at hslot
    exact .plain hslot (by simp [Kind.isPackable]) (.group h)
  | entry hmap h =>
    have hmap' : p.isMap f = true := by rw [isMap, hmap]; rfl
    rw [hmap', (mapEntry?_eq_some hmap).2.2.2] at hslot
    exact .plain hslot (by simp) (.entry (by simp) h)

/-- The layout of a pool allows a field what may stand on the wire for it. -/
theorem fieldFits_iff_allows (hf : p.field? type number = some f)
    (hplace : place.slot? p.layout number = p.layout.field? type number) :
    Wire.FieldFits p.layout place depth number r ↔ f.Allows p depth r :=
  ⟨allows_of_fieldFits hf hplace, fieldFits_of_allows hf hplace⟩

end Pool

end ServiceCall
