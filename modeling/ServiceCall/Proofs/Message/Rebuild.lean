import ServiceCall.Proofs.Message.Merge
import ServiceCall.Proofs.Message.Same
/-!
# Values are read back from the wire

What is written for a value brings it back in a field that was unset (`rebuilds`), if the messages
in it are read back (`RoundTrips`). A single value is carried by one raw value (`Carries`), a list
by one for each of its items or by one run of all of them, a map by one record for each entry. An
entry is itself a message of two fields, of which the key comes first.
-/

namespace ServiceCall.Message

open Wire (Raw RawRecord)

/-- Messages with so many levels are read back from the wire, whatever the order of their maps. -/
def RoundTrips (p : Pool) (depth : Nat) : Prop :=
  ∀ m m' : Message, m.Fits p → m.Rearranged m' → m.nesting ≤ depth →
    Wire.FieldsFit p.layout (.record m.type) depth (toRaw p m') ∧
      Message.Same p m (mergeFields p (.empty m.type) (toRaw p m'))

section

variable {p : Pool} {f : Field} {v v' : Value} {depth : Nat}

/-! ## Single values -/

theorem rawValues_of_holds (hv : f.kind.Holds v) :
    rawValues p f v = [rawScalar f.kind v] := by
  cases v with
  | record m => exact absurd hv Kind.not_holds_record
  | list items => exact absurd hv Kind.not_holds_list
  | map entries => exact absurd hv Kind.not_holds_map
  | _ => rw [rawValues]

theorem mergeValue_of_takes {slot : Wire.Slot} {r : Raw} (hr : slot.Takes r) (old : Value) :
    mergeValue p f old r = putScalar f old r := by
  cases r with
  | packed items => exact absurd hr (Wire.Slot.not_takes_packed _ _)
  | record fields => exact absurd hr (Wire.Slot.not_takes_record _ _)
  | group fields => exact absurd hr (Wire.Slot.not_takes_group _ _)
  | _ => rw [mergeValue]

theorem recordBase_of_repeated (h : f.isRepeated = true) (old : Value) :
    recordBase f old = .empty f.kind.name := by
  unfold recordBase
  split
  · rw [if_pos h]
  · rfl

theorem recordBase_of_holds {k : Kind} (h : k.Holds v) : recordBase f v = .empty f.kind.name := by
  cases v with
  | record m => exact absurd h Kind.not_holds_record
  | _ => rfl

/-- A message that comes for an unset field starts out empty. -/
theorem recordBase_fieldDefault (hp : p.Loaded) (hf : f.WellFormed) :
    recordBase f (p.fieldDefault f) = .empty f.kind.name := by
  cases hrepeated : f.isRepeated with
  | true => exact recordBase_of_repeated hrepeated _
  | false =>
    rw [Pool.fieldDefault_of_single hrepeated]
    cases hdefault : f.declaredDefault with
    | some v => exact recordBase_of_holds (hf.default v hdefault)
    | none =>
      rw [Option.getD_none]
      cases hkind : f.kind with
      | scalar s =>
        have h := recordBase_of_holds (f := f) (k := .scalar s) s.holds_fallback
        rw [hkind] at h
        exact h
      | enumeration name =>
        have h := recordBase_of_holds (f := f) (Pool.holds_kindDefault hp name)
        rw [hkind] at h
        exact h
      | message name | group name => simp [recordBase, Pool.kindDefault, hrepeated, Kind.name]

/-- One raw value stands for a value: it is allowed, and the same value comes of it. -/
structure Carries (p : Pool) (f : Field) (depth : Nat) (v : Value) (r : Raw) (w : Value) : Prop where
  allows : f.Allows p depth r
  same : Value.Same p f v w
  merge : ∀ old, recordBase f old = .empty f.kind.name →
    mergeValue p f old r = if f.isRepeated then .list (itemsOf old ++ [w]) else w

theorem carries_of_holds (hmap : p.mapEntry? f = none) (hv : f.kind.Holds v) :
    Carries p f depth v (rawScalar f.kind v) v := by
  have htakes := Kind.takes_rawScalar hv
  refine ⟨.plain hmap htakes, .refl f v, fun old _ => ?_⟩
  rw [mergeValue_of_takes htakes, putScalar, Kind.scalarValue_rawScalar hv]

theorem exists_carries (hmap : p.mapEntry? f = none)
    (ih : ∀ d, depth = d + 1 → RoundTrips p d) (hv : v.Fits p (.one f.kind))
    (hr : v.Rearranged v') (hn : v.nesting ≤ depth) :
    ∃ r w, rawValues p f v' = [r] ∧ Carries p f depth v r w := by
  have hput (old : Value) (m : Message) : putRecord p f old m =
      if f.isRepeated then .list (itemsOf old ++ [.record m]) else .record m := by
    rw [putRecord, hmap]
  generalize hk : f.kind = k at hv
  cases hv with
  | leaf hv =>
    subst hk
    obtain rfl := hr.of_holds hv
    exact ⟨_, v', rawValues_of_holds hv, carries_of_holds hmap hv⟩
  | @message m hm =>
    obtain ⟨m', rfl, hm'⟩ := hr.of_record
    rw [Value.nesting] at hn
    obtain ⟨d, rfl⟩ : ∃ d, depth = d + 1 := ⟨depth - 1, by omega⟩
    obtain ⟨hfit, hsame⟩ := ih d rfl m m' hm hm' (by omega)
    refine ⟨.record (toRaw p m'), _, by simp only [rawValues, hk], .record hmap hk hfit,
      .record f hsame, fun old hbase => ?_⟩
    rw [mergeValue, hbase, hput, hk]
    rfl
  | @group m hm =>
    obtain ⟨m', rfl, hm'⟩ := hr.of_record
    rw [Value.nesting] at hn
    obtain ⟨d, rfl⟩ : ∃ d, depth = d + 1 := ⟨depth - 1, by omega⟩
    obtain ⟨hfit, hsame⟩ := ih d rfl m m' hm hm' (by omega)
    refine ⟨.group (toRaw p m'), _, by simp only [rawValues, hk], .group hmap hk hfit,
      .record f hsame, fun old hbase => ?_⟩
    rw [mergeValue, hbase, hput, hk]
    rfl

/-! ## Lists -/

theorem exists_items (hrepeated : f.isRepeated = true) (hmap : p.mapEntry? f = none)
    (ih : ∀ d, depth = d + 1 → RoundTrips p d) {items items' : List Value}
    (hv : ∀ v ∈ items, v.Fits p (.one f.kind)) (hr : List.Forall₂ Value.Rearranged items items')
    (hn : Value.nestingOfItems items ≤ depth) :
    (∀ r ∈ rawItems p f items', f.Allows p depth r) ∧
      ∃ ws, Value.SameItems p f items ws ∧ (rawItems p f items').length = items.length ∧
        ∀ acc, (rawItems p f items').foldl (mergeValue p f) (.list acc) = .list (acc ++ ws) := by
  induction hr with
  | nil =>
    rw [rawItems]
    exact ⟨by simp, [], .nil f, rfl, fun acc => by rw [List.foldl_nil, List.append_nil]⟩
  | @cons v v' rest rest' h _ ihRest =>
    rw [Value.nestingOfItems] at hn
    obtain ⟨r, w, hraw, hcarries⟩ := exists_carries hmap ih (hv v List.mem_cons_self) h (by omega)
    obtain ⟨hallows, ws, hsame, hlength, hfold⟩ :=
      ihRest (fun v hv' => hv v (.tail _ hv')) (by omega)
    rw [rawItems, hraw, List.singleton_append]
    refine ⟨fun s hs => ?_, w :: ws, .cons hcarries.same hsame, by simp [hlength], fun acc => ?_⟩
    · obtain rfl | hs := List.mem_cons.1 hs
      · exact hcarries.allows
      · exact hallows s hs
    · rw [List.foldl_cons, hcarries.merge _ (recordBase_of_repeated hrepeated _), if_pos hrepeated,
        itemsOf, hfold, List.append_assoc, List.singleton_append]

/-- A run of numbers: each of them is read back from its raw value. -/
theorem run_of_items (hkind : f.kind.isPackable = true) {items items' : List Value}
    (hv : ∀ v ∈ items, v.Fits p (.one f.kind)) (hr : List.Forall₂ Value.Rearranged items items') :
    items' = items ∧ (∀ r ∈ rawItems p f items, f.kind.slot.Takes r) ∧
      (rawItems p f items).map (scalarValue f) = items := by
  induction hr with
  | nil =>
    rw [rawItems]
    exact ⟨rfl, by simp, rfl⟩
  | @cons v v' rest rest' h _ ih =>
    obtain ⟨rfl, htakes, hvalues⟩ := ih fun w hw => hv w (.tail _ hw)
    have hholds : f.kind.Holds v := by
      have hfits := hv v List.mem_cons_self
      generalize f.kind = k at hkind hfits
      cases hfits with
      | leaf h => exact h
      | message | group => cases hkind
    obtain rfl := h.of_holds hholds
    rw [rawItems, rawValues_of_holds hholds, List.singleton_append]
    refine ⟨rfl, fun r hr => ?_, ?_⟩
    · obtain rfl | hr := List.mem_cons.1 hr
      · exact Kind.takes_rawScalar hholds
      · exact htakes r hr
    · rw [List.map_cons, Kind.scalarValue_rawScalar hholds, hvalues]

/-! ## Fields -/

/-- The raw values of a value bring it back in an unset field. -/
structure Rebuilds (p : Pool) (f : Field) (depth : Nat) (v v' : Value) : Prop where
  allows : ∀ r ∈ rawValues p f v', f.Allows p depth r
  same : Field.Same p f v ((rawValues p f v').foldl (mergeValue p f) (p.fieldDefault f))
  isDefault : f.isDefault p ((rawValues p f v').foldl (mergeValue p f) (p.fieldDefault f)) =
    f.isDefault p v
  rearranged : f.isDefault p v' = f.isDefault p v
  isDefault_of_nil : rawValues p f v' = [] → f.isRepeated = true ∧ f.isDefault p v = true

theorem isDefault_of_repeated (hrepeated : f.isRepeated = true) (hmap : p.mapEntry? f = none)
    (hv : v.Fits p (.one f.kind)) : f.isDefault p v = false := by
  have hdefault : p.fieldDefault f = .list [] := Pool.fieldDefault_of_list hrepeated hmap
  generalize f.kind = k at hv
  cases hv with
  | leaf h =>
    cases v with
    | record m => rfl
    | list items => exact absurd h Kind.not_holds_list
    | map entries => exact absurd h Kind.not_holds_map
    | _ => simp [Field.isDefault, hdefault, Value.sameScalar]
  | message | group => rfl

theorem present_eq (f : Field) (v : Value) (raws : List Raw) :
    present p f v raws = under f.number (if f.hasPresence || !f.isDefault p v then raws else []) := by
  unfold present under
  split <;> rfl

/-- What comes of a field that was unset is what was set in it. -/
theorem restored_of_rebuilds (hp : p.Compiled) {m : Message}
    (hf : p.field? m.type f.number = some f) (hunset : m.get? f.number = none)
    (hv : v.Fits p (p.shape f)) (h : Rebuilds p f depth v v') :
    f.Restored p v ((mergeFields p m (present p f v' (rawValues p f v'))).get? f.number) := by
  rw [present_eq, h.rearranged]
  cases hpresent : f.hasPresence || !f.isDefault p v with
  | false =>
    obtain ⟨hpresence, hdefault⟩ := Bool.or_eq_false_iff.1 hpresent
    rw [Bool.not_eq_false'] at hdefault
    rw [if_neg (by simp), under, List.map_nil, mergeFields_nil, hunset]
    exact ⟨Field.same_fieldDefault hv hpresence hdefault, hpresent.symm⟩
  | true =>
    rw [if_pos rfl]
    by_cases hnil : rawValues p f v' = []
    · obtain ⟨hrepeated, hdefault⟩ := h.isDefault_of_nil hnil
      rw [hp.hasPresence_of_isRepeated hf hrepeated, hdefault] at hpresent
      cases hpresent
    · have hvalue : m.value p f = p.fieldDefault f := by rw [value, hunset, Option.getD_none]
      rw [get?_mergeFields_own hf hnil, hvalue]
      exact ⟨h.same, by rw [Field.isSet, h.isDefault, Field.isSet]⟩

theorem get?_present_other {m : Message} (hf : p.field? m.type f.number = some f) {n : Nat}
    (hn : n ≠ f.number) (h : Free p m f n) (v : Value) (raws : List Raw) :
    (mergeFields p m (present p f v raws)).get? n = m.get? n := by
  rw [present_eq]
  exact get?_mergeFields_other hf hn h

/-- A single field is brought back by its raw value. -/
theorem rebuilds_of_single (hp : p.Loaded) (hf : f.WellFormed) (hsingle : f.isRepeated = false)
    (ih : ∀ d, depth = d + 1 → RoundTrips p d) (hv : v.Fits p (.one f.kind))
    (hr : v.Rearranged v') (hn : v.nesting ≤ depth) : Rebuilds p f depth v v' := by
  obtain ⟨r, w, hraw, hcarries⟩ :=
    exists_carries (Pool.mapEntry?_of_single hsingle) ih hv hr hn
  have hfold : (rawValues p f v').foldl (mergeValue p f) (p.fieldDefault f) = w := by
    rw [hraw, List.foldl_cons, List.foldl_nil, hcarries.merge _ (recordBase_fieldDefault hp hf),
      hsingle]
    rfl
  refine ⟨fun s hs => ?_, hfold ▸ .same hcarries.same, hfold ▸ hcarries.same.isDefault_eq, ?_,
    fun hnil => ?_⟩
  · rw [hraw] at hs
    exact List.mem_singleton.1 hs ▸ hcarries.allows
  · generalize f.kind = k at hv
    cases hv with
    | leaf h => rw [hr.of_holds h]
    | message | group =>
      obtain ⟨m', rfl, -⟩ := hr.of_record
      rfl
  · rw [hraw] at hnil
    cases hnil

/-- Null for a list is brought back as the list of one null. -/
theorem rebuilds_of_null (hrepeated : f.isRepeated = true) (hmap : p.mapEntry? f = none)
    (hnull : v.IsNull p f.kind) (ih : ∀ d, depth = d + 1 → RoundTrips p d)
    (hv : v.Fits p (.one f.kind)) (hr : v.Rearranged v') (hn : v.nesting ≤ depth) :
    Rebuilds p f depth v v' := by
  obtain ⟨r, w, hraw, hcarries⟩ := exists_carries hmap ih hv hr hn
  have hfold : (rawValues p f v').foldl (mergeValue p f) (p.fieldDefault f) = .list [w] := by
    rw [hraw, List.foldl_cons, List.foldl_nil,
      hcarries.merge _ (recordBase_of_repeated hrepeated _), if_pos hrepeated,
      Pool.fieldDefault_of_list hrepeated hmap]
    rfl
  have hset := isDefault_of_repeated hrepeated hmap hv
  refine ⟨fun s hs => ?_, hfold ▸ .null hrepeated hnull hcarries.same, ?_, ?_, fun hnil => ?_⟩
  · rw [hraw] at hs
    exact List.mem_singleton.1 hs ▸ hcarries.allows
  · rw [hfold, hset]
    rfl
  · rw [hset]
    generalize hk : f.kind = k at hv
    cases hv with
    | leaf h =>
      rw [hr.of_holds h]
      exact hset
    | message | group =>
      obtain ⟨m', rfl, -⟩ := hr.of_record
      rfl
  · rw [hraw] at hnil
    cases hnil

/-- A list is brought back item by item, or as one run. -/
theorem rebuilds_of_list (hf : f.WellFormed) (hrepeated : f.isRepeated = true)
    (hmap : p.mapEntry? f = none) (ih : ∀ d, depth = d + 1 → RoundTrips p d) {items : List Value}
    (hv : ∀ v ∈ items, v.Fits p (.one f.kind)) (hr : (Value.list items).Rearranged v')
    (hn : (Value.list items).nesting ≤ depth) : Rebuilds p f depth (.list items) v' := by
  obtain ⟨items', rfl, hitems⟩ := hr.of_list
  rw [Value.nesting] at hn
  have hempty : f.isDefault p (.list items') = f.isDefault p (.list items) :=
    isEmpty_eq hitems.length_eq.symm
  have hdefault := Pool.fieldDefault_of_list hrepeated hmap
  cases hpacked : f.isPacked with
  | true =>
    obtain ⟨-, hkind⟩ := hf.packed hpacked
    obtain ⟨rfl, htakes, hvalues⟩ := run_of_items hkind hv hitems
    have hraw : rawValues p f (.list items') = [.packed (rawItems p f items')] := by
      rw [rawValues, if_pos hpacked]
    have hfold : (rawValues p f (.list items')).foldl (mergeValue p f) (p.fieldDefault f) =
        .list items' := by
      rw [hraw, List.foldl_cons, List.foldl_nil, hdefault, mergeValue, hvalues]
      rfl
    refine ⟨fun r hr => ?_, ?_, by rw [hfold], rfl, fun hnil => ?_⟩
    · rw [hraw] at hr
      exact List.mem_singleton.1 hr ▸ .run hrepeated hkind htakes
    · rw [hfold]
      exact .same (.refl f _)
    · rw [hraw] at hnil
      cases hnil
  | false =>
    obtain ⟨hallows, ws, hsame, hlength, hmerge⟩ := exists_items hrepeated hmap ih hv hitems hn
    have hraw : rawValues p f (.list items') = rawItems p f items' := by
      rw [rawValues, hpacked]
      rfl
    have hfold : (rawValues p f (.list items')).foldl (mergeValue p f) (p.fieldDefault f) =
        .list ws := by
      rw [hraw, hdefault, hmerge, List.nil_append]
    have hlist : Value.Same p f (.list items) (.list ws) := .list f hsame
    refine ⟨hraw ▸ hallows, hfold ▸ .same hlist, hfold ▸ hlist.isDefault_eq, hempty, fun hnil => ?_⟩
    rw [hraw] at hnil
    rw [hnil, List.length_nil, eq_comm, List.length_eq_zero_iff] at hlength
    subst hlength
    exact ⟨hrepeated, rfl⟩

/-! ## Maps -/

theorem insertEntry_of_apart {key value : Value} {entries : List (Value × Value)}
    (h : ∀ e ∈ entries, Value.sameKey key e.1 = false) :
    Value.insertEntry key value entries = entries ++ [(key, value)] := by
  induction entries with
  | nil => rfl
  | cons e rest ih =>
    have hfirst : ¬Value.sameKey key e.1 = true := by simp [h e List.mem_cons_self]
    rw [Value.insertEntry, if_neg hfirst, ih fun a ha => h a (.tail _ ha), List.cons_append]

/-- A key is brought back as it was, as it is no floating-point number. -/
theorem eq_of_same_key {g : Field} {s : Scalar} {k w : Value} (hs : s.isKey = true)
    (hsingle : g.isRepeated = false) (hk : s.Holds k) (h : Field.Same p g k w) : w = k := by
  cases h with
  | same h =>
    cases h with
    | refl => rfl
    | record => cases s <;> exact hk.elim
    | list => cases s <;> exact hk.elim
    | map => cases s <;> exact hk.elim
  | null hrepeated =>
    rw [hsingle] at hrepeated
    cases hrepeated
  | zero hpresence hzeros =>
    cases k with
    | single x => cases s <;> first | exact hk.elim | cases hs
    | double x => cases s <;> first | exact hk.elim | cases hs
    | _ => exact hzeros.elim

/-- The raw fields of an entry. -/
def entryFields (p : Pool) (g h : Field) (k v : Value) : RawRecord :=
  present p g k (rawValues p g k) ++ present p h v (rawValues p h v)

theorem fieldsFit_present {place : Wire.Within} {raws : List Raw} {type : String} {number : Nat}
    (hp : p.Loaded) (hf : p.field? type number = some f)
    (hplace : place.slot? p.layout number = p.layout.field? type number)
    (h : ∀ r ∈ raws, f.Allows p depth r) :
    ∀ x ∈ present p f v raws,
      1 ≤ x.1 ∧ x.1 < 2 ^ 29 ∧ Wire.FieldFits p.layout place depth x.1 x.2 := by
  intro x hx
  have hwf := hp.wellFormed_of_field? hf
  have hnumber := Pool.number_of_field? hf
  obtain ⟨r, hr, rfl⟩ : ∃ r ∈ raws, (f.number, r) = x := by
    rw [present_eq] at hx
    obtain ⟨r, hr, rfl⟩ := List.mem_map.1 hx
    split_ifs at hr
    · exact ⟨r, hr, rfl⟩
    · cases hr
  exact ⟨hwf.number_pos, hwf.number_lt,
    hnumber ▸ Pool.fieldFits_of_allows hf hplace (h r hr)⟩

theorem fieldsFit_of_forall {layout : Wire.Layout} {place : Wire.Within} {r : RawRecord}
    (h : ∀ x ∈ r, 1 ≤ x.1 ∧ x.1 < 2 ^ 29 ∧ Wire.FieldFits layout place depth x.1 x.2) :
    Wire.FieldsFit layout place depth r := by
  induction r with
  | nil => exact .nil ..
  | cons x rest ih =>
    obtain ⟨hpos, hlt, hx⟩ := h x List.mem_cons_self
    exact .cons hpos hlt hx (ih fun y hy => h y (.tail _ hy))

/-- An entry is allowed, and its key and value come of it. -/
theorem exists_entry (hp : p.Compiled) {entry : MessageType} {g h : Field} {s : Scalar}
    (hentry : p.mapEntry? f = some entry) (hfields : entry.HasEntry g s h)
    (ih : ∀ d, depth = d + 1 → RoundTrips p d) {k : Value} (hk : s.Holds k)
    (hv : v.Fits p (.one h.kind)) (hr : v.Rearranged v') (hn : v.nesting ≤ depth) :
    f.Allows p depth (.record (entryFields p g h k v')) ∧
      ∃ w, Field.Same p h v w ∧ ∀ acc, mergeValue p f (.map acc) (.record (entryFields p g h k v')) =
        .map (Value.insertEntry k w acc) := by
  obtain ⟨hname, -⟩ := Pool.messageType_of_mapEntry? hentry
  have hg : p.field? f.kind.name 1 = some g := Pool.field?_of_messageType (hname ▸ hfields.key)
  have hh : p.field? f.kind.name 2 = some h := Pool.field?_of_messageType (hname ▸ hfields.value)
  have hgn := Pool.number_of_field? hg
  have hhn := Pool.number_of_field? hh
  have hgfits : k.Fits p (.one g.kind) := hfields.kind ▸ .leaf hk
  have hknesting : k.nesting = 0 := by
    cases k with
    | record m => cases s <;> exact hk.elim
    | list items => cases s <;> exact hk.elim
    | map entries => cases s <;> exact hk.elim
    | _ => rfl
  have hfree {g : Field} (hg : g.oneofIndex = none) (m : Message) (n : Nat) : Free p m g n :=
    fun i hi => by simp [hg] at hi
  -- The key comes first, and the value then leaves it as it is.
  have hgr := rebuilds_of_single hp.loaded (hp.loaded.wellFormed_of_field? hg) hfields.keySingle ih
    hgfits (.same k) (hknesting ▸ Nat.zero_le depth)
  have hhr := rebuilds_of_single hp.loaded (hp.loaded.wellFormed_of_field? hh) hfields.valueSingle
    ih hv hr hn
  have hne : g.number ≠ h.number := by omega
  have hkey := restored_of_rebuilds hp (m := .empty f.kind.name) (hgn.symm ▸ hg) rfl
    (Pool.shape_of_single hfields.keySingle ▸ hgfits) hgr
  generalize hm : mergeFields p (.empty f.kind.name) (present p g k (rawValues p g k)) = m at hkey
  have htype : m.type = f.kind.name := hm ▸ type_mergeFields ..
  have hhm : p.field? m.type h.number = some h := by rw [htype, hhn, hh]
  have hunset : m.get? h.number = none := by
    rw [← hm]
    exact get?_present_other (m := .empty f.kind.name) (hgn.symm ▸ hg) hne.symm
      (hfree hfields.keyFree _ _) k _
  have hvalue :=
    restored_of_rebuilds hp hhm hunset (Pool.shape_of_single hfields.valueSingle ▸ hv) hhr
  have hmerge : mergeFields p (.empty f.kind.name) (entryFields p g h k v') =
      mergeFields p m (present p h v' (rawValues p h v')) := by
    rw [entryFields, mergeFields_append, hm]
  have hkept : (mergeFields p m (present p h v' (rawValues p h v'))).value p g = k := by
    rw [value, get?_present_other hhm hne (hfree hfields.valueFree _ _)]
    exact eq_of_same_key hfields.isKey hfields.keySingle hk hkey.same
  refine ⟨.entry hentry (fieldsFit_of_forall fun x hx => ?_), _, hvalue.same, fun acc => ?_⟩
  · obtain hx | hx := List.mem_append.1 hx
    · exact fieldsFit_present hp.loaded hg (Pool.entry_slot? hp hentry 1) hgr.allows x hx
    · exact fieldsFit_present hp.loaded hh (Pool.entry_slot? hp hentry 2) hhr.allows x hx
  · have hbase : recordBase f (.map acc) = .empty f.kind.name := rfl
    rw [mergeValue, hbase, hmerge, putRecord, hentry]
    simp only [hfields.key, hfields.value, Option.map_some, Option.getD_some, hkept, entriesOf]
    rfl

/-- The entries of a map are brought back one by one. -/
theorem exists_entries (hp : p.Compiled) {entry : MessageType} {g h : Field} {s : Scalar}
    (hentry : p.mapEntry? f = some entry) (hfields : entry.HasEntry g s h)
    (ih : ∀ d, depth = d + 1 → RoundTrips p d) {entries entries' : List (Value × Value)}
    (hkeys : ∀ e ∈ entries, s.Holds e.1) (hv : ∀ e ∈ entries, e.2.Fits p (.one h.kind))
    (hapart : Value.KeysApart entries) (hr : List.Forall₂ Value.EntryRearranged entries entries')
    (hn : ∀ e ∈ entries, e.2.nesting ≤ depth) :
    (∀ r ∈ rawEntries p f entries', f.Allows p depth r) ∧
      (rawEntries p f entries').length = entries.length ∧
      ∃ ws, Value.SameEntries p h entries ws ∧
        ∀ acc, (∀ a ∈ acc, ∀ e ∈ entries, Value.sameKey e.1 a.1 = false) →
          (rawEntries p f entries').foldl (mergeValue p f) (.map acc) = .map (acc ++ ws) := by
  obtain ⟨hname, -⟩ := Pool.messageType_of_mapEntry? hentry
  induction hr with
  | nil =>
    rw [rawEntries]
    exact ⟨by simp, rfl, [], .nil h, fun acc _ => by rw [List.foldl_nil, List.append_nil]⟩
  | @cons e e' rest rest' hfirst _ ihRest =>
    obtain @⟨k, v, v', hfirst⟩ := hfirst
    obtain ⟨hapartFirst, hapartRest⟩ := List.pairwise_cons.1 hapart
    obtain ⟨hallows, w, hsame, hmerge⟩ := exists_entry hp hentry hfields ih
      (hkeys _ List.mem_cons_self) (hv _ List.mem_cons_self) hfirst (hn _ List.mem_cons_self)
    obtain ⟨hallowsRest, hlength, ws, hsameRest, hmergeRest⟩ :=
      ihRest (fun e he => hkeys e (.tail _ he)) (fun e he => hv e (.tail _ he)) hapartRest
        (fun e he => hn e (.tail _ he))
    have hraw : rawEntries p f ((k, v') :: rest') =
        .record (entryFields p g h k v') :: rawEntries p f rest' := by
      rw [rawEntries, hname]
      simp only [hfields.key, hfields.value, entryFields]
    rw [hraw]
    refine ⟨fun r hr => ?_, by simp [hlength], (k, w) :: ws, .cons hsame hsameRest,
      fun acc hacc => ?_⟩
    · obtain rfl | hr := List.mem_cons.1 hr
      · exact hallows
      · exact hallowsRest r hr
    · have hnew : ∀ a ∈ acc, Value.sameKey k a.1 = false :=
        fun a ha => hacc a ha (k, v) List.mem_cons_self
      rw [List.foldl_cons, hmerge, insertEntry_of_apart hnew, hmergeRest, List.append_assoc,
        List.singleton_append]
      intro a ha e he
      obtain ha | ha := List.mem_append.1 ha
      · exact hacc a ha e (.tail _ he)
      · rw [List.mem_singleton.1 ha, Value.sameKey_comm]
        exact hapartFirst e he

/-- A map is brought back, with its entries in the order in which they were written. -/
theorem rebuilds_of_map (hp : p.Compiled) {entry : MessageType} {g h : Field} {s : Scalar}
    (hentry : p.mapEntry? f = some entry) (hfields : entry.HasEntry g s h)
    (ih : ∀ d, depth = d + 1 → RoundTrips p d) {entries : List (Value × Value)}
    (hkeys : ∀ e ∈ entries, s.Holds e.1) (hv : ∀ e ∈ entries, e.2.Fits p (.one h.kind))
    (hapart : Value.KeysApart entries) (hr : (Value.map entries).Rearranged v')
    (hn : (Value.map entries).nesting ≤ depth) : Rebuilds p f depth (.map entries) v' := by
  obtain ⟨ordered, entries', rfl, hperm, hentries⟩ := hr.of_map
  have hsymm : ∀ a b : Value × Value, Value.sameKey a.1 b.1 = false → Value.sameKey b.1 a.1 = false :=
    fun a b hab => Value.sameKey_comm b.1 a.1 ▸ hab
  obtain ⟨hallows, hlength, ws, hsame, hmerge⟩ := exists_entries hp hentry hfields ih
    (fun e he => hkeys e (hperm.mem_iff.2 he)) (fun e he => hv e (hperm.mem_iff.2 he))
    ((hperm.pairwise_iff @hsymm).1 hapart) hentries
    (fun e he => Nat.le_trans (Value.nesting_le_of_entry (hperm.mem_iff.2 he)) hn)
  have hraw : rawValues p f (.map entries') = rawEntries p f entries' := by rw [rawValues]
  have hfold : (rawValues p f (.map entries')).foldl (mergeValue p f) (p.fieldDefault f) =
      .map ws := by
    rw [hraw, Pool.fieldDefault_of_map hentry, hmerge [] (by simp), List.nil_append]
  have hmap : Value.Same p f (.map entries) (.map ws) := .map hentry hfields.value hperm hsame
  refine ⟨hraw ▸ hallows, hfold ▸ .same hmap, hfold ▸ hmap.isDefault_eq,
    isEmpty_eq (hentries.length_eq.symm.trans hperm.length_eq.symm), fun hnil => ?_⟩
  rw [hraw] at hnil
  rw [hnil, List.length_nil, ← hperm.length_eq, eq_comm, List.length_eq_zero_iff] at hlength
  subst hlength
  exact ⟨(Pool.mapEntry?_eq_some hentry).1, rfl⟩

/-- The raw values of a value that fits its field bring it back. -/
theorem rebuilds (hp : p.Compiled) (hf : f.WellFormed) (ih : ∀ d, depth = d + 1 → RoundTrips p d)
    (hv : v.Fits p (p.shape f)) (hr : v.Rearranged v') (hn : v.nesting ≤ depth) :
    Rebuilds p f depth v v' := by
  cases hentry : p.mapEntry? f with
  | some entry =>
    obtain ⟨⟨g, s, h, hfields⟩, -⟩ := hp.isEntry hentry
    rw [Pool.shape_of_map hentry hfields] at hv
    cases hv with
    | map hkey hkeys hapart hvalues =>
      exact rebuilds_of_map hp hentry hfields ih hkeys hvalues hapart hr hn
  | none =>
    cases hrepeated : f.isRepeated with
    | false =>
      rw [Pool.shape_of_single hrepeated] at hv
      exact rebuilds_of_single hp.loaded hf hrepeated ih hv hr hn
    | true =>
      rw [Pool.shape_of_list hrepeated hentry] at hv
      cases hv with
      | list hitems => exact rebuilds_of_list hf hrepeated hentry ih hitems hr hn
      | null hk hv => exact rebuilds_of_null hrepeated hentry hk ih hv hr hn

end

end ServiceCall.Message
