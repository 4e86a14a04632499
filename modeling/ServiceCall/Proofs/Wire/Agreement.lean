import ServiceCall.Proofs.Wire.Record
/-!
# Layouts that agree

Two layouts agree on some types if they write the same fields in the same way, whatever they say of
levels and however strict they are (`Layout.Agree`). Then they read the same from the same bytes if
both of them can read it (`Layout.Agree.read_eq`), by induction on the reading.
-/

namespace ServiceCall.Wire

/-- Two fields are written in the same way, with records of the given types in them. -/
inductive Slot.Agree (types : String → Prop) : Slot → Slot → Prop where
  | varint : Slot.Agree types .varint .varint
  | fixed64 : Slot.Agree types .fixed64 .fixed64
  | fixed32 : Slot.Agree types .fixed32 .fixed32
  | text : Slot.Agree types .text .text
  | bytes : Slot.Agree types .bytes .bytes
  | record {type : String} (h : types type) : Slot.Agree types (.record type) (.record type)
  | entry {type : String} {counted counted' : Bool} (h : types type) :
      Slot.Agree types (.entry type counted) (.entry type counted')

/-- Two layouts know the same fields of the given types, none of them as runs. -/
def Layout.Agree (layout layout' : Layout) (types : String → Prop) : Prop :=
  ∀ type, types type → ∀ number,
    layout.field? type number = none ∧ layout'.field? type number = none ∨
      ∃ slot slot' name name', layout.field? type number = some ⟨slot, false, name⟩ ∧
        layout'.field? type number = some ⟨slot', false, name'⟩ ∧ slot.Agree types slot'

/-- Two fields stand in the same place. -/
inductive Within.Agree (types : String → Prop) : Within → Within → Prop where
  | record {type : String} (h : types type) : Within.Agree types (.record type) (.record type)
  | entry {type : String} (h : types type) : Within.Agree types (.entry type) (.entry type)
  | unknown (strict strict' : Bool) : Within.Agree types (.unknown strict) (.unknown strict')

/-- What is read with so much fuel is the same. -/
structure ReadsAlike (layout layout' : Layout) (types : String → Prop) (fuel : Nat) : Prop where
  fields {place place' : Within} {depth depth' limit : Nat} {group : Option Nat} {s : Bytes}
    {x y : RawRecord × Bytes} : place.Agree types place' →
      readFields layout fuel place depth limit group s = .ok x →
      readFields layout' fuel place' depth' limit group s = .ok y → x = y
  field {place place' : Within} {depth depth' number : Nat} {t : WireType} {s : Bytes}
    {x y : Raw × Bytes} : place.Agree types place' →
      readField layout fuel place depth number t s = .ok x →
      readField layout' fuel place' depth' number t s = .ok y → x = y
  slot {depth depth' number : Nat} {slot slot' : Slot} {s : Bytes} {x y : Raw × Bytes} :
      slot.Agree types slot' → readSlot layout fuel depth slot number s = .ok x →
      readSlot layout' fuel depth' slot' number s = .ok y → x = y
  unknown {strict strict' : Bool} {depth depth' number : Nat} {t : WireType} {s : Bytes}
    {x y : Raw × Bytes} : readUnknown layout fuel strict depth number t s = .ok x →
      readUnknown layout' fuel strict' depth' number t s = .ok y → x = y

variable {layout layout' : Layout} {types : String → Prop} {fuel : Nat}

theorem Layout.Agree.slot? (h : layout.Agree layout' types) {place place' : Within}
    (hplace : place.Agree types place') (number : Nat) :
    place.slot? layout number = none ∧ place'.slot? layout' number = none ∨
      ∃ slot slot' name name', place.slot? layout number = some ⟨slot, false, name⟩ ∧
        place'.slot? layout' number = some ⟨slot', false, name'⟩ ∧ slot.Agree types slot' := by
  cases hplace with
  | record htype => exact h _ htype number
  | entry htype =>
    simp only [Within.slot?]
    split_ifs
    · exact h _ htype number
    · exact .inl ⟨rfl, rfl⟩
  | unknown => exact .inl ⟨rfl, rfl⟩

theorem Slot.Agree.accepts {slot slot' : Slot} (h : slot.Agree types slot') (t : WireType) :
    slot.accepts t = slot'.accepts t := by
  cases h <;> rfl

namespace ReadsAlike

theorem fields_succ (ih : ReadsAlike layout layout' types fuel) {place place' : Within}
    {depth depth' limit : Nat} {group : Option Nat} {s : Bytes} {x y : RawRecord × Bytes}
    (hplace : place.Agree types place')
    (h : readFields layout (fuel + 1) place depth limit group s = .ok x)
    (h' : readFields layout' (fuel + 1) place' depth' limit group s = .ok y) : x = y := by
  rw [readFields] at h h'
  split_ifs at h h'
  · exact Except.ok.inj (h.symm.trans h')
  · obtain ⟨⟨number, t, afterKey⟩, hkey, h⟩ := Except.bind_eq_ok.1 h
    obtain ⟨key, hkey', h'⟩ := Except.bind_eq_ok.1 h'
    obtain rfl := Except.ok.inj (hkey.symm.trans hkey')
    simp only at h h'
    split_ifs at h h'
    · exact Except.ok.inj (h.symm.trans h')
    · obtain ⟨⟨v, afterValue⟩, hv, h⟩ := Except.bind_eq_ok.1 h
      obtain ⟨value, hv', h'⟩ := Except.bind_eq_ok.1 h'
      obtain rfl := ih.field hplace hv hv'
      obtain ⟨⟨more, rest⟩, hmore, h⟩ := Except.bind_eq_ok.1 h
      obtain ⟨others, hmore', h'⟩ := Except.bind_eq_ok.1 h'
      obtain rfl := ih.fields hplace hmore hmore'
      exact Except.ok.inj (h.symm.trans h')

theorem field_succ (hagree : layout.Agree layout' types) (ih : ReadsAlike layout layout' types fuel)
    {place place' : Within} {depth depth' number : Nat} {t : WireType} {s : Bytes}
    {x y : Raw × Bytes} (hplace : place.Agree types place')
    (h : readField layout (fuel + 1) place depth number t s = .ok x)
    (h' : readField layout' (fuel + 1) place' depth' number t s = .ok y) : x = y := by
  rw [readField] at h h'
  obtain ⟨hslot, hslot'⟩ | ⟨slot, slot', name, name', hslot, hslot', hslots⟩ :=
    hagree.slot? hplace number
  · simp only [hslot] at h
    simp only [hslot'] at h'
    split_ifs at h h'
    exact ih.unknown h h'
  · simp only [hslot, Bool.false_eq_true, false_and, if_false] at h
    simp only [hslot', Bool.false_eq_true, false_and, if_false, ← hslots.accepts] at h'
    replace h := Except.mapError_eq_ok.1 h
    replace h' := Except.mapError_eq_ok.1 h'
    split_ifs at h h'
    exact ih.slot hslots h h'

theorem slot_succ (ih : ReadsAlike layout layout' types fuel) {depth depth' number : Nat}
    {slot slot' : Slot} {s : Bytes} {x y : Raw × Bytes} (hslots : slot.Agree types slot')
    (h : readSlot layout (fuel + 1) depth slot number s = .ok x)
    (h' : readSlot layout' (fuel + 1) depth' slot' number s = .ok y) : x = y := by
  cases hslots with
  | varint | fixed64 | fixed32 | text | bytes =>
    rw [readSlot] at h h'
    exact Except.ok.inj (h.symm.trans h')
  | record htype =>
    cases depth with
    | zero => simp [readSlot] at h
    | succ depth =>
      cases depth' with
      | zero => simp [readSlot] at h'
      | succ depth' =>
        rw [readSlot] at h h'
        obtain ⟨⟨n, rest⟩, hn, h⟩ := Except.bind_eq_ok.1 h
        obtain ⟨length, hn', h'⟩ := Except.bind_eq_ok.1 h'
        obtain rfl := Except.ok.inj (hn.symm.trans hn')
        simp only at h h'
        split_ifs at h h'
        obtain ⟨⟨fields, rest'⟩, hfields, h⟩ := Except.bind_eq_ok.1 h
        obtain ⟨others, hfields', h'⟩ := Except.bind_eq_ok.1 h'
        obtain rfl := ih.fields (.record htype) hfields hfields'
        exact Except.ok.inj (h.symm.trans h')
  | @entry type counted counted' htype =>
    rw [readSlot] at h h'
    by_cases hdepth : counted = true ∧ depth = 0
    · rw [if_pos hdepth] at h
      cases h
    by_cases hdepth' : counted' = true ∧ depth' = 0
    · rw [if_pos hdepth'] at h'
      cases h'
    rw [if_neg hdepth] at h
    rw [if_neg hdepth'] at h'
    obtain ⟨⟨n, rest⟩, hn, h⟩ := Except.bind_eq_ok.1 h
    obtain ⟨length, hn', h'⟩ := Except.bind_eq_ok.1 h'
    obtain rfl := Except.ok.inj (hn.symm.trans hn')
    simp only at h h'
    by_cases hlength : rest.length < n
    · rw [if_pos hlength] at h
      cases h
    rw [if_neg hlength] at h h'
    obtain ⟨⟨fields, rest'⟩, hfields, h⟩ := Except.bind_eq_ok.1 h
    obtain ⟨others, hfields', h'⟩ := Except.bind_eq_ok.1 h'
    obtain rfl := ih.fields (.entry htype) hfields hfields'
    exact Except.ok.inj (h.symm.trans h')

theorem unknown_succ (ih : ReadsAlike layout layout' types fuel) {strict strict' : Bool}
    {depth depth' number : Nat} {t : WireType} {s : Bytes} {x y : Raw × Bytes}
    (h : readUnknown layout (fuel + 1) strict depth number t s = .ok x)
    (h' : readUnknown layout' (fuel + 1) strict' depth' number t s = .ok y) : x = y := by
  cases t with
  | varint | sixtyFourBit | thirtyTwoBit | lengthDelimited =>
    rw [readUnknown] at h h'
    exact Except.ok.inj (h.symm.trans h')
  | startGroup =>
    cases depth with
    | zero => simp [readUnknown] at h
    | succ depth =>
      cases depth' with
      | zero => simp [readUnknown] at h'
      | succ depth' =>
        rw [readUnknown] at h h'
        obtain ⟨⟨fields, rest⟩, hfields, h⟩ := Except.bind_eq_ok.1 h
        obtain ⟨others, hfields', h'⟩ := Except.bind_eq_ok.1 h'
        obtain rfl := ih.fields (.unknown ..) hfields hfields'
        exact Except.ok.inj (h.symm.trans h')
  | endGroup => simp [readUnknown] at h

end ReadsAlike

theorem Layout.Agree.readsAlike (hagree : layout.Agree layout' types) (fuel : Nat) :
    ReadsAlike layout layout' types fuel := by
  induction fuel with
  | zero => constructor <;> intros <;> simp [readFields, readField, readSlot, readUnknown] at *
  | succ fuel ih => exact ⟨ih.fields_succ, ih.field_succ hagree, ih.slot_succ, ih.unknown_succ⟩

/-- What two layouts read of a type on which they agree is the same. -/
theorem Layout.Agree.read_eq (hagree : layout.Agree layout' types) {type : String}
    (htype : types type) {s : Bytes} {r r' : RawRecord} (h : Wire.read layout type s = .ok r)
    (h' : Wire.read layout' type s = .ok r') : r = r' := by
  obtain ⟨x, hx, rfl⟩ := Except.map_eq_ok.1 h
  obtain ⟨y, hy, rfl⟩ := Except.map_eq_ok.1 h'
  rw [(hagree.readsAlike _).fields (.record htype) hx hy]

end ServiceCall.Wire
