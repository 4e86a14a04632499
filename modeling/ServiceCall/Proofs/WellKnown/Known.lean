import ServiceCall.Proofs.Schema.Standard
import ServiceCall.Proofs.Wire.Agreement
import ServiceCall.Proofs.WellKnown.Layers
import ServiceCall.Proofs.WellKnown.Settled
import ServiceCall.Message.Json.WellKnown
import ServiceCall.Proofs.Message.Length
/-!
# Well-known types in a pool that knows them

A pool that knows the well-known types writes them as these are written (`Pool.agree_layout`), so a
message of such a type is brought to the wire as it stands in its pool (`WellKnown.recordOf_eq`). The
messages that hold JSON values have no more layers than they may have levels there (`Held.bounded`),
by induction on the levels.
-/

namespace ServiceCall

open Wire (Raw RawRecord)

namespace WellKnown

theorem eq_of_ofName? {name : String} {w : WellKnown} (h : ofName? name = some w) :
    (name, w) ∈ table := by
  obtain ⟨before, after, htable, -⟩ := List.lookup_eq_some_iff.1 h
  exact htable ▸ List.mem_append_right before List.mem_cons_self

/-- How a field of a form is written. -/
def slotOf (form : FieldForm) (counted : Bool) : Wire.Slot :=
  if form.kind = .message entryName then .entry entryName counted else form.kind.slot

theorem field?_layout (type : String) (number : Nat) :
    (layout.field? type number).map (fun f => (f.slot, f.packable)) =
      ((formsOf type).find? (·.number == number)).map fun form => (slotOf form true, false) := by
  unfold formsOf
  simp only [layout]
  cases ofName? type with
  | some w =>
    cases w <;> rcases number with _ | _ | _ | _ | _ | _ | _ | number <;> rfl
  | none =>
    by_cases htype : type = entryName
    · simp only [htype, if_true, ne_eq, not_true, if_false]
      rcases number with _ | _ | _ | number <;> rfl
    · simp [htype]

/-- Numbers do not stand in runs, and messages are held by those of the same file only. -/
def isPlain (type : String) (form : FieldForm) : Bool :=
  !(form.isRepeated && form.kind.isPackable) &&
    match form.kind with
    | .message name =>
      structNames.contains type && structNames.contains name &&
        (form.isRepeated || name ≠ entryName)
    | .group _ => false
    | _ => true

theorem isPlain_of_mem {type : String} {form : FieldForm} (h : form ∈ formsOf type) :
    isPlain type form = true := by
  have htable : ∀ x ∈ table, ∀ form ∈ x.2.forms, isPlain x.1 form = true := by decide
  have hentry : ∀ form ∈ entryForms, isPlain entryName form = true := by decide
  unfold formsOf at h
  split at h
  next w hw => exact htable _ (eq_of_ofName? hw) form h
  next =>
    split_ifs at h with htype
    · exact htype ▸ hentry form h
    · cases h

end WellKnown

variable {p : Pool}

theorem WellKnown.family_of_mem {type name : String} (h : type ∈ family name)
    (htype : type ∈ structNames) : family name = structNames := by
  unfold family at h ⊢
  split_ifs at h ⊢ with hname
  · rfl
  · rw [List.mem_singleton] at h
    exact absurd (h ▸ htype) hname

theorem Pool.isMap_of_knows {f : Field} {name : String} (hknows : p.Knows name)
    (hkind : f.kind = .message name) (hrepeated : f.isRepeated = true) :
    p.isMap f = decide (name = WellKnown.entryName) := by
  rw [← hknows.isMapEntry, messageType, isMap, mapEntry?]
  simp only [hrepeated, hkind]
  cases p.referredMessage? name with
  | none => rfl
  | some t =>
    cases ht : t.isMapEntry <;> simp [Option.filter, ht]

theorem Pool.isMap_of_not_message {f : Field} (hkind : ∀ name, f.kind ≠ .message name)
    (hgroup : ∀ name, f.kind ≠ .group name) : p.isMap f = false := by
  cases hentry : p.mapEntry? f with
  | none => rw [isMap, hentry]; rfl
  | some entry =>
    unfold mapEntry? at hentry
    split at hentry
    next name _ h => exact absurd h (hkind name)
    next name _ h => exact absurd h (hgroup name)
    next => cases hentry

theorem Scalar.agree_slot (s : Scalar) (types : String → Prop) :
    s.slot.Agree types s.slot := by
  cases s <;> constructor

/-- A field of a well-known type is written in the same way in a pool that knows the type. -/
theorem Pool.agree_slot {type name : String} {f : Field}
    (hknows : ∀ n ∈ WellKnown.family name, p.Knows n) (htype : type ∈ WellKnown.family name)
    (hplain : WellKnown.isPlain type f.form = true) :
    (f.isRepeated && f.kind.isPackable) = false ∧
      (if p.isMap f then Wire.Slot.entry f.kind.name false else f.kind.slot).Agree
        (· ∈ WellKnown.family name) (WellKnown.slotOf f.form true) := by
  obtain ⟨hpackable, hkind⟩ := Bool.and_eq_true_iff.1 hplain
  refine ⟨cast (Bool.not_eq_true' _) hpackable, ?_⟩
  have hform : f.form.kind = f.kind := rfl
  simp only [hform] at hkind
  rw [WellKnown.slotOf, hform]
  cases hk : f.kind with
  | scalar s =>
    rw [isMap_of_not_message (by simp [hk]) (by simp [hk])]
    simpa [Kind.slot] using s.agree_slot _
  | enumeration n =>
    rw [isMap_of_not_message (by simp [hk]) (by simp [hk])]
    simpa [Kind.slot] using .varint
  | group n =>
    rw [hk] at hkind
    cases hkind
  | message n =>
    simp only [hk, Bool.and_eq_true, List.contains_iff_mem, Bool.or_eq_true, decide_eq_true_eq,
      Field.form] at hkind
    obtain ⟨⟨hself, hn⟩, hrepeated⟩ := hkind
    have hfamily : n ∈ WellKnown.family name := WellKnown.family_of_mem htype hself ▸ hn
    by_cases hentry : n = WellKnown.entryName
    · subst hentry
      rw [isMap_of_knows (hknows _ hfamily) hk (hrepeated.resolve_right (by simp))]
      simpa [Kind.name] using .entry hfamily
    · have hmap : p.isMap f = false := by
        cases hr : f.isRepeated with
        | true => rw [isMap_of_knows (hknows _ hfamily) hk hr, decide_eq_false hentry]
        | false => rw [isMap, mapEntry?_of_single hr]; rfl
      rw [hmap]
      simpa [hentry, Kind.slot] using .record hfamily

/-- A pool that knows well-known types writes them in the same way as these are written. -/
theorem Pool.agree_layout {name : String} (hknows : ∀ n ∈ WellKnown.family name, p.Knows n) :
    p.layout.Agree WellKnown.layout (· ∈ WellKnown.family name) := by
  intro type htype number
  have hform := (hknows type htype).form_field? number
  have hwell := WellKnown.field?_layout type number
  cases hfind : (WellKnown.formsOf type).find? (·.number == number) with
  | none =>
    rw [hfind] at hwell hform
    exact .inl ⟨layout_field?_none (Option.map_eq_none_iff.1 hform), Option.map_eq_none_iff.1 hwell⟩
  | some form =>
    rw [hfind] at hwell hform
    obtain ⟨⟨slot, packable, place⟩, hslot, he⟩ := Option.map_eq_some_iff.1 hwell
    obtain ⟨rfl, rfl⟩ := Prod.mk.inj he
    obtain ⟨f, hf, rfl⟩ := Option.map_eq_some_iff.1 hform
    obtain ⟨hpackable, hagree⟩ := agree_slot hknows htype
      (WellKnown.isPlain_of_mem (List.mem_of_find?_eq_some hfind))
    exact .inr ⟨_, _, _, _, by rw [layout_field? hf, hpackable], hslot, hagree⟩

/-- A message of a well-known type that can be brought to the wire as such stands there as it does
in its pool, however deep it is nested. -/
theorem WellKnown.recordOf_eq (hp : p.Compiled) {m : Message} {r : RawRecord} (hm : m.Fits p)
    (hl : (m.encode p).length < 2 ^ 64) (hknows : ∀ n ∈ family m.type, p.Knows n)
    (h : recordOf p m = .ok r) : r = m.toRaw p := by
  obtain ⟨hfits, -⟩ := Message.roundTrips hp m.nesting m m hm (.refl m) (Nat.le_refl _)
  have hread := Wire.readFields_writeFields p.layout none 0 [] _ hfits hl
    (show _ ≤ 4 * (Raw.writeFields (m.toRaw p)).length + 4 by omega) (fun _ => rfl)
    (fun number (hn : number ∈ none) => by cases hn)
  rw [Wire.closing, List.nil_append, List.append_nil] at hread
  obtain ⟨⟨r', rest⟩, hread', rfl⟩ := Except.map_eq_ok.1 (Except.mapError_eq_ok.1 h)
  have hsame := ((Pool.agree_layout hknows).readsAlike _).fields (.record (mem_family m.type)) hread
    hread'
  exact (congrArg Prod.fst hsame).symm

/-! ## The layers of messages -/

theorem Wire.FieldsFit.of_mem {layout : Wire.Layout} {place : Wire.Within} {depth : Nat}
    {r : RawRecord} (h : Wire.FieldsFit layout place depth r) {x : Nat × Raw} (hx : x ∈ r) :
    Wire.FieldFits layout place depth x.1 x.2 := by
  induction r with
  | nil => cases hx
  | cons y rest ih =>
    cases h with
    | cons hpos hlt hv hrest =>
      obtain rfl | hx := List.mem_cons.1 hx
      · exact hv
      · exact ih hrest hx

/-- A record in a field that holds records takes a level. -/
theorem Wire.FieldFits.of_record {layout : Wire.Layout} {place : Wire.Within} {depth number : Nat}
    {type : String} {name : Option String} {fields : RawRecord}
    (h : Wire.FieldFits layout place depth number (.record fields))
    (hslot : place.slot? layout number = some ⟨.record type, false, name⟩) :
    ∃ d, depth = d + 1 ∧ Wire.FieldsFit layout (.record type) d fields := by
  obtain ⟨h, -⟩ | h := h.packed_or_slot hslot
  · cases h
  · cases h with
    | plain hv => exact hv.elim
    | record h => exact ⟨_, rfl, h⟩

theorem Wire.FieldFits.of_entry {layout : Wire.Layout} {place : Wire.Within} {depth number : Nat}
    {type : String} {counted : Bool} {name : Option String} {fields : RawRecord}
    (h : Wire.FieldFits layout place depth number (.record fields))
    (hslot : place.slot? layout number = some ⟨.entry type counted, false, name⟩) :
    ∃ d, depth = d + counted.toNat ∧ Wire.FieldsFit layout (.entry type) d fields := by
  obtain ⟨h, -⟩ | h := h.packed_or_slot hslot
  · cases h
  · cases h with
    | plain hv => exact hv.elim
    | entry hdepth h =>
      cases counted with
      | true =>
        refine ⟨depth - 1, ?_, h⟩
        have : depth ≠ 0 := fun h0 => hdepth ⟨rfl, h0⟩
        simp only [Bool.toNat_true]
        omega
      | false => exact ⟨depth, rfl, h⟩

/-- A layout writes the messages that hold JSON values as these are written. -/
structure Wire.Layout.Holding (layout : Wire.Layout) (counted : Bool) : Prop where
  object : ∃ name, layout.field? WellKnown.valueName 5 =
    some ⟨.record WellKnown.structName, false, name⟩
  list : ∃ name, layout.field? WellKnown.valueName 6 =
    some ⟨.record WellKnown.listName, false, name⟩
  member : ∃ name, layout.field? WellKnown.structName 1 =
    some ⟨.entry WellKnown.entryName counted, false, name⟩
  item : ∃ name, layout.field? WellKnown.listName 1 =
    some ⟨.record WellKnown.valueName, false, name⟩
  content : ∃ name, layout.field? WellKnown.entryName 2 =
    some ⟨.record WellKnown.valueName, false, name⟩

theorem WellKnown.holding_layout : layout.Holding true where
  object := ⟨_, rfl⟩
  list := ⟨_, rfl⟩
  member := ⟨_, rfl⟩
  item := ⟨_, rfl⟩
  content := ⟨_, rfl⟩

namespace Pool

open WellKnown (valueName structName listName entryName structNames)

/-- The form of a field that is found. -/
theorem Knows.form_eq {name : String} (h : p.Knows name) {number : Nat} {f : Field}
    (hf : p.field? name number = some f) (form : FieldForm)
    (hform : (WellKnown.formsOf name).find? (·.number == number) = some form) : f.form = form := by
  have heq := h.form_field? number
  rw [hf, hform] at heq
  exact Option.some.inj heq

theorem Knows.layout_record {name : String} (h : p.Knows name) {type : String} (form : FieldForm)
    (hform : (WellKnown.formsOf name).find? (·.number == form.number) = some form)
    (hkind : form.kind = .message type)
    (hmap : ∀ f : Field, f.form = form → p.isMap f = false) :
    ∃ place, p.layout.field? name form.number = some ⟨.record type, false, place⟩ := by
  obtain ⟨f, hf, rfl⟩ := h.exists_field hform
  have hk : f.kind = .message type := hkind
  refine ⟨none, ?_⟩
  rw [layout_field? hf, hmap f rfl, hk]
  simp [Kind.slot, Kind.isPackable]

theorem holding_layout (hknows : ∀ n ∈ structNames, p.Knows n) : p.layout.Holding false where
  object := (hknows valueName (by decide)).layout_record (.choice 5 (.message structName))
    rfl rfl fun f hf => by
      rw [isMap, mapEntry?_of_single (congrArg FieldForm.isRepeated hf)]
      rfl
  list := (hknows valueName (by decide)).layout_record (.choice 6 (.message listName))
    rfl rfl fun f hf => by
      rw [isMap, mapEntry?_of_single (congrArg FieldForm.isRepeated hf)]
      rfl
  member := by
    obtain ⟨f, hf, hform⟩ := (hknows structName (by decide)).exists_field
      (show _ = some (FieldForm.many 1 (.message entryName)) from rfl)
    have hkind : f.kind = .message entryName := congrArg FieldForm.kind hform
    replace hf : p.field? structName 1 = some f := hf
    refine ⟨none, ?_⟩
    rw [layout_field? hf, isMap_of_knows (hknows entryName (by decide)) hkind
      (congrArg FieldForm.isRepeated hform), hkind]
    simp [Kind.isPackable, Kind.name]
  item := (hknows listName (by decide)).layout_record (.many 1 (.message valueName))
    rfl rfl fun f hf => isMap_of_knows (hknows valueName (by decide)) (congrArg FieldForm.kind hf)
      (congrArg FieldForm.isRepeated hf)
  content := (hknows entryName (by decide)).layout_record (.present 2 (.message valueName))
    rfl rfl fun f hf => by
      rw [isMap, mapEntry?_of_single (congrArg FieldForm.isRepeated hf)]
      rfl

end Pool

namespace Held

variable {layout : Wire.Layout} {counted : Bool} {cost depth : Nat} {r : RawRecord}

theorem rawLayers_le (h : ∀ x ∈ r, fieldLayers cost x.1 x.2 ≤ depth) : rawLayers cost r ≤ depth := by
  induction r with
  | nil => exact Nat.zero_le _
  | cons x rest ih =>
    exact Nat.max_le.2 ⟨h x List.mem_cons_self, ih fun y hy => h y (.tail _ hy)⟩

theorem memberLayers_le (h : ∀ x ∈ r, x.1 = 1 → contentLayers cost x.2 + cost + 1 ≤ depth) :
    memberLayers cost r ≤ depth := by
  induction r with
  | nil => exact Nat.zero_le _
  | cons x rest ih =>
    refine Nat.max_le.2 ⟨?_, ih fun y hy => h y (.tail _ hy)⟩
    split_ifs with hx
    · exact h x List.mem_cons_self hx
    · exact Nat.zero_le _

theorem entryLayers_le (h : ∀ x ∈ r, x.1 = 2 → nestedLayers cost x.2 ≤ depth) :
    entryLayers cost r ≤ depth := by
  induction r with
  | nil => exact Nat.zero_le _
  | cons x rest ih =>
    refine Nat.max_le.2 ⟨?_, ih fun y hy => h y (.tail _ hy)⟩
    split_ifs with hx
    · exact h x List.mem_cons_self hx
    · exact Nat.zero_le _

theorem itemLayers_le (h : ∀ x ∈ r, x.1 = 1 → nestedLayers cost x.2 + 1 ≤ depth) :
    itemLayers cost r ≤ depth := by
  induction r with
  | nil => exact Nat.zero_le _
  | cons x rest ih =>
    refine Nat.max_le.2 ⟨?_, ih fun y hy => h y (.tail _ hy)⟩
    split_ifs with hx
    · exact h x List.mem_cons_self hx
    · exact Nat.zero_le _

/-- The records of the messages that hold JSON values have no more layers than levels. -/
structure Bounded (p : Pool) (layout : Wire.Layout) (cost depth : Nat) : Prop where
  value {m : Message} : m.Fits p → m.type = WellKnown.valueName →
    Wire.FieldsFit layout (.record m.type) depth (m.toRaw p) → rawLayers cost (m.toRaw p) ≤ depth
  object {m : Message} : m.Fits p → m.type = WellKnown.structName →
    Wire.FieldsFit layout (.record m.type) depth (m.toRaw p) → memberLayers cost (m.toRaw p) ≤ depth
  list {m : Message} : m.Fits p → m.type = WellKnown.listName →
    Wire.FieldsFit layout (.record m.type) depth (m.toRaw p) → itemLayers cost (m.toRaw p) ≤ depth

section

open WellKnown (valueName structName listName entryName structNames)

variable (hknows : ∀ n ∈ structNames, p.Knows n) (hlayout : layout.Holding counted)
  (ih : ∀ d < depth, Bounded p layout counted.toNat d) {m : Message} (hm : m.Fits p)
  (hfits : Wire.FieldsFit layout (.record m.type) depth (m.toRaw p))

include hknows hlayout ih hm hfits

theorem bounded_value (htype : m.type = valueName) :
    rawLayers counted.toNat (m.toRaw p) ≤ depth := by
  refine rawLayers_le fun x hx => ?_
  obtain ⟨number, v⟩ := x
  have hv := hfits.of_mem hx
  rw [htype] at hv
  -- What is found under a number of the type is a message of that field's type.
  have hfield {number : Nat} {fields : RawRecord} {name : String}
      (hx : (number, Raw.record fields) ∈ m.toRaw p)
      (hform : (WellKnown.formsOf valueName).find? (·.number == number) =
        some (.choice number (.message name))) :
      ∃ s : Message, s.Fits p ∧ s.type = name ∧ fields = s.toRaw p := by
    obtain ⟨f, w, hf, hw, -, hr⟩ | hnone := hm.mem_toRaw hx
    · rw [htype] at hf
      have hform := (hknows valueName (by decide)).form_eq hf _ hform
      rw [Pool.shape_of_single (congrArg FieldForm.isRepeated hform)] at hw
      obtain ⟨s, -, hs, hstype, hraw⟩ :=
        Message.eq_record_of_mem (congrArg FieldForm.kind hform) hw hr
      exact ⟨s, hs, hstype, by simpa using hraw⟩
    · rw [htype, ← Option.map_eq_none_iff, (hknows valueName (by decide)).form_field?, hform] at hnone
      cases hnone
  cases v with
  | record fields =>
    rw [fieldLayers]
    split_ifs with h5 h6
    · subst h5
      obtain ⟨s, hs, hstype, rfl⟩ := hfield hx rfl
      obtain ⟨place, hslot⟩ := hlayout.object
      obtain ⟨d, rfl, hd⟩ := hv.of_record hslot
      exact Nat.succ_le_succ ((ih d (Nat.lt_succ_self d)).object hs hstype (hstype.symm ▸ hd))
    · subst h6
      obtain ⟨s, hs, hstype, rfl⟩ := hfield hx rfl
      obtain ⟨place, hslot⟩ := hlayout.list
      obtain ⟨d, rfl, hd⟩ := hv.of_record hslot
      exact Nat.succ_le_succ ((ih d (Nat.lt_succ_self d)).list hs hstype (hstype.symm ▸ hd))
    · exact Nat.zero_le _
  | _ => exact Nat.zero_le _

theorem bounded_list (htype : m.type = listName) :
    itemLayers counted.toNat (m.toRaw p) ≤ depth := by
  refine itemLayers_le fun x hx hnumber => ?_
  obtain ⟨number, v⟩ := x
  obtain rfl : number = 1 := hnumber
  have hv := hfits.of_mem hx
  rw [htype] at hv
  obtain ⟨s, hs, hstype, rfl⟩ : ∃ s : Message, s.Fits p ∧ s.type = valueName ∧
      v = .record (s.toRaw p) := by
    obtain ⟨f, w, hf, hw, -, hr⟩ | hnone := hm.mem_toRaw hx
    · rw [htype] at hf
      have hform := (hknows listName (by decide)).form_eq hf
        (.many 1 (.message valueName)) rfl
      have hkind : f.kind = .message valueName := congrArg FieldForm.kind hform
      have hrepeated : f.isRepeated = true := congrArg FieldForm.isRepeated hform
      have hpacked : f.isPacked = false := congrArg FieldForm.isPacked hform
      have hmap : p.mapEntry? f = none := by
        have h := Pool.isMap_of_knows (hknows valueName (by decide)) hkind hrepeated
        rwa [decide_eq_false (by decide), Pool.isMap, Option.isSome_eq_false_iff,
          Option.isNone_iff_eq_none] at h
      rw [Pool.shape_of_list hrepeated hmap] at hw
      cases hw with
      | list hitems =>
        rw [Message.rawValues, hpacked] at hr
        obtain ⟨item, hitem, hr⟩ := Message.mem_rawItems.1 hr
        obtain ⟨s, -, hs, hstype, hraw⟩ := Message.eq_record_of_mem hkind (hitems item hitem) hr
        exact ⟨s, hs, hstype, hraw⟩
      | null hnull hw =>
        obtain ⟨s, -, hs, hstype, hraw⟩ := Message.eq_record_of_mem hkind hw hr
        exact ⟨s, hs, hstype, hraw⟩
    · rw [htype, ← Option.map_eq_none_iff, (hknows listName (by decide)).form_field?] at hnone
      cases hnone
  obtain ⟨place, hslot⟩ := hlayout.item
  obtain ⟨d, rfl, hd⟩ := hv.of_record hslot
  exact Nat.succ_le_succ ((ih d (Nat.lt_succ_self d)).value hs hstype (hstype.symm ▸ hd))

theorem bounded_object (hp : p.Compiled) (htype : m.type = structName) :
    memberLayers counted.toNat (m.toRaw p) ≤ depth := by
  refine memberLayers_le fun x hx hnumber => ?_
  obtain ⟨number, v⟩ := x
  obtain rfl : number = 1 := hnumber
  have hv := hfits.of_mem hx
  rw [htype] at hv
  obtain ⟨f, w, hf, hw, -, hr⟩ | hnone := hm.mem_toRaw hx
  · rw [htype] at hf
    have hform := (hknows structName (by decide)).form_eq hf
      (.many 1 (.message entryName)) rfl
    have hkind : f.kind = .message entryName := congrArg FieldForm.kind hform
    have hrepeated : f.isRepeated = true := congrArg FieldForm.isRepeated hform
    obtain ⟨entry, hentry⟩ : ∃ entry, p.mapEntry? f = some entry := by
      have h := Pool.isMap_of_knows (hknows entryName (by decide)) hkind hrepeated
      exact Option.isSome_iff_exists.1 (h.trans (decide_eq_true rfl))
    obtain ⟨⟨g, s, h, hfields⟩, -⟩ := hp.isEntry hentry
    obtain ⟨hname, -⟩ := Pool.messageType_of_mapEntry? hentry
    rw [hkind] at hname
    have hh : p.field? entryName 2 = some h := Pool.field?_of_messageType (hname ▸ hfields.value)
    have hg : p.field? entryName 1 = some g := Pool.field?_of_messageType (hname ▸ hfields.key)
    have hhform := (hknows entryName (by decide)).form_eq hh
      (.present 2 (.message valueName)) rfl
    have hhkind : h.kind = .message valueName := congrArg FieldForm.kind hhform
    rw [Pool.shape_of_map hentry hfields] at hw
    cases hw with
    | @map _ _ entries _ hkeys hapart hvalues =>
      rw [Message.rawValues] at hr
      obtain ⟨e, he, rfl⟩ := (Message.mem_rawEntries hentry hfields).1 hr
      obtain ⟨place, hslot⟩ := hlayout.member
      obtain ⟨d, rfl, hd⟩ := hv.of_entry hslot
      have hvalue := hvalues e he
      obtain ⟨t, ht, hts, htype'⟩ := Message.exists_record (hhkind ▸ hvalue)
      have hraw : Message.rawValues p h e.2 = [.record (t.toRaw p)] := by
        rw [ht, Message.rawValues, hhkind]
      have hpresent : Message.present p h e.2 (Message.rawValues p h e.2) =
          [(2, .record (t.toRaw p))] := by
        have hpresence : h.hasPresence = true := congrArg FieldForm.hasPresence hhform
        rw [Message.present, hpresence, Bool.true_or, if_pos rfl, hraw, Pool.number_of_field? hh]
        rfl
      -- The value of an entry is there even if nothing is set in it.
      have hmem : (2, Raw.record (t.toRaw p)) ∈ Message.entryFields p g h e.1 e.2 := by
        rw [Message.entryFields, hpresent]
        exact List.mem_append_right _ (List.mem_singleton_self _)
      obtain ⟨place, hslot⟩ := hlayout.content
      obtain ⟨d', rfl, hd'⟩ := (hd.of_mem hmem).of_record
        (show Wire.Within.slot? layout 2 (.entry entryName) = _ by
          rw [Wire.Within.slot?, if_pos (.inr rfl)]
          exact hslot)
      have hbound := (ih d' (by omega)).value hts htype' (htype'.symm ▸ hd')
      have hentryLayers : entryLayers counted.toNat (Message.entryFields p g h e.1 e.2) ≤ d' := by
        refine entryLayers_le fun y hy hynumber => ?_
        rw [Message.entryFields, hpresent] at hy
        obtain hy | hy := List.mem_append.1 hy
        · rw [Message.present_eq] at hy
          obtain ⟨r, -, rfl⟩ := List.mem_map.1 hy
          have := Pool.number_of_field? hg
          simp only at hynumber
          omega
        · obtain rfl := List.mem_singleton.1 hy
          exact hbound
      rw [contentLayers]
      omega
  · rw [htype, ← Option.map_eq_none_iff, (hknows structName (by decide)).form_field?] at hnone
    cases hnone

end

/-- The records of the messages that hold JSON values have no more layers than levels, at every
depth. -/
theorem bounded (hp : p.Compiled) (hknows : ∀ n ∈ WellKnown.structNames, p.Knows n)
    (hlayout : layout.Holding counted) (depth : Nat) :
    Bounded p layout counted.toNat depth := by
  induction depth using Nat.strong_induction_on with
  | h depth ih =>
    exact ⟨fun hm htype hfits => bounded_value hknows hlayout ih hm hfits htype,
      fun hm htype hfits => bounded_object hknows hlayout ih hm hfits hp htype,
      fun hm htype hfits => bounded_list hknows hlayout ih hm hfits htype⟩

end Held

end ServiceCall
