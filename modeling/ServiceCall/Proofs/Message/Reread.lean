import ServiceCall.Proofs.Message.RoundTrip
/-!
# What is read back, field by field

A message that is written and read back (`Message.reread`) holds in each field what comes of the
raw values of that field alone: the same value with the messages in it written and read back, or
nothing if the value counted as unset (`Message.get?_reread`). A message in which nothing counts as
unset and whose messages come back as they are comes back as it is (`Message.reread_eq_self`).
-/

namespace ServiceCall

open Wire (Raw RawRecord)

/-- The message that comes of one that is written and read back. -/
def Message.reread (p : Pool) (m : Message) : Message :=
  mergeFields p (.empty m.type) (toRaw p m)

/-- The single value that comes of one that is written and read back. -/
def Value.reread (p : Pool) : Value → Value
  | .record m => .record (m.reread p)
  | v => v

/-- The value of an entry that comes of one that is written and read back: the default, if it
counted as unset. -/
def Field.rereadOne (p : Pool) (h : Field) (v : Value) : Value :=
  if h.hasPresence || !h.isDefault p v then v.reread p else p.fieldDefault h

/-- The entry of a map that comes of one that is written and read back. -/
def Field.rereadEntry (p : Pool) (f : Field) (e : Value × Value) : Value × Value :=
  match (p.mapEntry? f).bind (·.field? 2) with
  | some h => (e.1, h.rereadOne p e.2)
  | none => e

/-- The value of a field that comes of one that is written and read back. -/
def Field.reread (p : Pool) (f : Field) : Value → Value
  | .list items => .list (items.map (·.reread p))
  | .map entries => .map (entries.map (f.rereadEntry p))
  | v => if f.isRepeated then .list [v.reread p] else v.reread p

/-- What a field holds after it was written and read back, if it is set then. -/
def Field.kept (p : Pool) (f : Field) (v : Value) : Option Value :=
  if f.hasPresence || !f.isDefault p v then some (f.reread p v) else none

namespace Message

section

variable {p : Pool} {m : Message} {f : Field} {v : Value}

theorem reread_of_holds {k : Kind} (h : k.Holds v) : v.reread p = v := by
  cases v with
  | record m => exact absurd h Kind.not_holds_record
  | _ => rfl

/-! ## Single values -/

/-- One raw value stands for a single value. -/
theorem exists_rawValue (hmap : p.mapEntry? f = none) (hv : v.Fits p (.one f.kind)) :
    ∃ r, rawValues p f v = [r] ∧ ∀ old, recordBase f old = .empty f.kind.name →
      mergeValue p f old r =
        if f.isRepeated then .list (itemsOf old ++ [v.reread p]) else v.reread p := by
  have hput (old : Value) (m : Message) : putRecord p f old m =
      if f.isRepeated then .list (itemsOf old ++ [.record m]) else .record m := by
    rw [putRecord, hmap]
  generalize hk : f.kind = k at hv
  cases hv with
  | leaf hv =>
    subst hk
    refine ⟨_, rawValues_of_holds hv, fun old _ => ?_⟩
    rw [mergeValue_of_takes (Kind.takes_rawScalar hv), putScalar, Kind.scalarValue_rawScalar hv,
      reread_of_holds hv]
  | @message m hm =>
    refine ⟨.record (toRaw p m), by simp only [rawValues, hk], fun old hbase => ?_⟩
    rw [mergeValue, hbase, hput]
    rfl
  | @group m hm =>
    refine ⟨.group (toRaw p m), by simp only [rawValues, hk], fun old hbase => ?_⟩
    rw [mergeValue, hbase, hput]
    rfl

/-- What the raw values of a value make of an unset field. -/
theorem foldl_of_single (hp : p.Loaded) (hf : f.WellFormed) (hsingle : f.isRepeated = false)
    (hv : v.Fits p (.one f.kind)) :
    (rawValues p f v).foldl (mergeValue p f) (p.fieldDefault f) = v.reread p := by
  obtain ⟨r, hraw, hmerge⟩ := exists_rawValue (Pool.mapEntry?_of_single hsingle) hv
  rw [hraw, List.foldl_cons, List.foldl_nil, hmerge _ (recordBase_fieldDefault hp hf), hsingle]
  rfl

/-! ## Lists -/

theorem foldl_rawItems (hrepeated : f.isRepeated = true) (hmap : p.mapEntry? f = none)
    {items : List Value} (hv : ∀ v ∈ items, v.Fits p (.one f.kind)) (before : List Value) :
    (rawItems p f items).foldl (mergeValue p f) (.list before) =
      .list (before ++ items.map (·.reread p)) := by
  induction items generalizing before with
  | nil => rw [rawItems, List.foldl_nil, List.map_nil, List.append_nil]
  | cons v rest ih =>
    obtain ⟨r, hraw, hmerge⟩ := exists_rawValue hmap (hv v List.mem_cons_self)
    rw [rawItems, hraw, List.singleton_append, List.foldl_cons,
      hmerge _ (recordBase_of_repeated hrepeated _), if_pos hrepeated, itemsOf,
      ih fun w hw => hv w (.tail _ hw), List.append_assoc, List.singleton_append, List.map_cons]

theorem holds_of_isPackable {k : Kind} (hk : k.isPackable = true) (hv : v.Fits p (.one k)) :
    k.Holds v := by
  cases hv with
  | leaf h => exact h
  | message | group => cases hk

theorem foldl_of_list (hf : f.WellFormed) (hrepeated : f.isRepeated = true)
    (hmap : p.mapEntry? f = none) {items : List Value} (hv : ∀ v ∈ items, v.Fits p (.one f.kind)) :
    (rawValues p f (.list items)).foldl (mergeValue p f) (p.fieldDefault f) =
      .list (items.map (·.reread p)) := by
  rw [rawValues, Pool.fieldDefault_of_list hrepeated hmap]
  split
  next hpacked =>
    obtain ⟨-, hkind⟩ := hf.packed hpacked
    obtain ⟨-, -, hvalues⟩ := run_of_items hkind hv (List.forall₂_same.2 fun _ _ => .same _)
    have hsame : items.map (·.reread p) = items :=
      (List.map_congr_left fun v hv' =>
        reread_of_holds (holds_of_isPackable hkind (hv v hv'))).trans (List.map_id' items)
    rw [List.foldl_cons, List.foldl_nil, mergeValue, hvalues, hsame]
    rfl
  next => exact foldl_rawItems hrepeated hmap hv []

/-! ## Maps -/

/-- What counts as unset in an entry is the default. A key is no floating-point number, so it is no
zero that loses its sign. -/
theorem rereadOne_of_key {g : Field} {s : Scalar} (hs : s.isKey = true) (hk : s.Holds v) :
    g.rereadOne p v = v := by
  have hself : v.reread p = v := reread_of_holds (k := .scalar s) hk
  rw [Field.rereadOne, hself]
  split
  next => rfl
  next h =>
    have hdefault : g.isDefault p v = true := by
      simp only [Bool.or_eq_true, Bool.not_eq_true', not_or, Bool.not_eq_false] at h
      exact h.2
    have hsame : v.sameScalar (p.fieldDefault g) = true := by
      cases v with
      | record m => exact absurd hk (Kind.not_holds_record (k := .scalar s))
      | list items => exact absurd hk (Kind.not_holds_list (k := .scalar s))
      | map entries => exact absurd hk (Kind.not_holds_map (k := .scalar s))
      | _ => exact hdefault
    obtain heq | hzeros := Value.eq_or_zeros_of_sameScalar hsame
    · exact heq.symm
    · cases v with
      | single x => cases s <;> first | exact hk.elim | cases hs
      | double x => cases s <;> first | exact hk.elim | cases hs
      | _ => exact hzeros.elim

/-- What a single field holds after its raw values came, if it was unset and no other field of its
oneof is set. -/
theorem value_present (hp : p.Loaded) (hf : p.field? m.type f.number = some f)
    (hsingle : f.isRepeated = false) (hunset : m.get? f.number = none)
    (hv : v.Fits p (.one f.kind)) :
    (mergeFields p m (present p f v (rawValues p f v))).value p f = f.rereadOne p v := by
  obtain ⟨r, hraw, -⟩ := exists_rawValue (Pool.mapEntry?_of_single hsingle) hv
  rw [present_eq, Field.rereadOne]
  split
  next =>
    have hvalue : m.value p f = p.fieldDefault f := by rw [value, hunset, Option.getD_none]
    rw [value, get?_mergeFields_own hf (by simp [hraw]), hvalue,
      Option.getD_some]
    exact foldl_of_single hp (hp.wellFormed_of_field? hf) hsingle hv
  next => rw [under, List.map_nil, mergeFields_nil, value, hunset, Option.getD_none]

/-- An entry that comes is put into the map as it is read back. -/
theorem mergeValue_entry (hp : p.Compiled) {entry : MessageType} {g h : Field} {s : Scalar}
    (hentry : p.mapEntry? f = some entry) (hfields : entry.HasEntry g s h) {k : Value}
    (hk : s.Holds k) (hv : v.Fits p (.one h.kind)) (before : List (Value × Value)) :
    mergeValue p f (.map before) (.record (entryFields p g h k v)) =
      .map (Value.insertEntry k (h.rereadOne p v) before) := by
  obtain ⟨hname, -⟩ := Pool.messageType_of_mapEntry? hentry
  have hg : p.field? f.kind.name 1 = some g := Pool.field?_of_messageType (hname ▸ hfields.key)
  have hh : p.field? f.kind.name 2 = some h := Pool.field?_of_messageType (hname ▸ hfields.value)
  have hgn := Pool.number_of_field? hg
  have hhn := Pool.number_of_field? hh
  have hfree {g : Field} (hg : g.oneofIndex = none) (m : Message) (n : Nat) : Free p m g n :=
    fun i hi => by simp [hg] at hi
  have hne : g.number ≠ h.number := by omega
  have hgfits : k.Fits p (.one g.kind) := hfields.kind ▸ .leaf hk
  have hkey := value_present hp.loaded (m := .empty f.kind.name) (hgn.symm ▸ hg) hfields.keySingle
    rfl hgfits
  rw [rereadOne_of_key hfields.isKey hk] at hkey
  -- The key comes first, and the value then leaves it as it is.
  generalize hm : mergeFields p (.empty f.kind.name) (present p g k (rawValues p g k)) = m at hkey
  have htype : m.type = f.kind.name := hm ▸ type_mergeFields ..
  have hhm : p.field? m.type h.number = some h := by rw [htype, hhn, hh]
  have hunset : m.get? h.number = none := by
    rw [← hm]
    exact get?_present_other (m := .empty f.kind.name) (hgn.symm ▸ hg) hne.symm
      (hfree hfields.keyFree _ _) k _
  have hkept : (mergeFields p m (present p h v (rawValues p h v))).value p g = k := by
    rw [value, get?_present_other hhm hne (hfree hfields.valueFree _ _)]
    exact hkey
  have hvalue := value_present hp.loaded hhm hfields.valueSingle hunset hv
  have hbase : recordBase f (.map before) = .empty f.kind.name := rfl
  rw [mergeValue, hbase, entryFields, mergeFields_append, hm, putRecord, hentry]
  simp only [hfields.key, hfields.value, Option.map_some, Option.getD_some, hkept, hvalue,
    entriesOf]

theorem rereadEntry_eq {entry : MessageType} {g h : Field} {s : Scalar}
    (hentry : p.mapEntry? f = some entry) (hfields : entry.HasEntry g s h) (e : Value × Value) :
    f.rereadEntry p e = (e.1, h.rereadOne p e.2) := by
  rw [Field.rereadEntry, hentry, Option.bind_some, hfields.value]

theorem foldl_of_map (hp : p.Compiled) {entry : MessageType} {g h : Field} {s : Scalar}
    (hentry : p.mapEntry? f = some entry) (hfields : entry.HasEntry g s h)
    {entries : List (Value × Value)} (hkeys : ∀ e ∈ entries, s.Holds e.1)
    (hv : ∀ e ∈ entries, e.2.Fits p (.one h.kind)) (hapart : Value.KeysApart entries)
    {before : List (Value × Value)}
    (hbefore : ∀ a ∈ before, ∀ e ∈ entries, Value.sameKey e.1 a.1 = false) :
    (rawEntries p f entries).foldl (mergeValue p f) (.map before) =
      .map (before ++ entries.map (f.rereadEntry p)) := by
  obtain ⟨hname, -⟩ := Pool.messageType_of_mapEntry? hentry
  induction entries generalizing before with
  | nil => rw [rawEntries, List.foldl_nil, List.map_nil, List.append_nil]
  | cons e rest ih =>
    obtain ⟨k, v⟩ := e
    obtain ⟨hfirst, hrest⟩ := List.pairwise_cons.1 hapart
    have hraw : rawEntries p f ((k, v) :: rest) =
        .record (entryFields p g h k v) :: rawEntries p f rest := by
      rw [rawEntries, hname]
      simp only [hfields.key, hfields.value, entryFields]
    rw [hraw, List.foldl_cons, mergeValue_entry hp hentry hfields (hkeys _ List.mem_cons_self)
      (hv _ List.mem_cons_self), insertEntry_of_apart fun a ha => hbefore a ha _ List.mem_cons_self,
      ih (fun e he => hkeys e (.tail _ he)) (fun e he => hv e (.tail _ he)) hrest,
      List.append_assoc, List.singleton_append, List.map_cons, rereadEntry_eq hentry hfields]
    intro a ha e he
    obtain ha | ha := List.mem_append.1 ha
    · exact hbefore a ha e (.tail _ he)
    · rw [List.mem_singleton.1 ha, Value.sameKey_comm]
      exact hfirst e he

/-! ## Fields -/

/-- A single value in a list field stands for a list of one. -/
theorem reread_of_one {k : Kind} (hv : v.Fits p (.one k)) :
    f.reread p v = if f.isRepeated then .list [v.reread p] else v.reread p := by
  cases hv with
  | leaf h =>
    cases v with
    | list items => exact absurd h Kind.not_holds_list
    | map entries => exact absurd h Kind.not_holds_map
    | _ => rfl
  | message | group => rfl

/-- What the raw values of a field make of it, if it was unset. -/
theorem foldl_rawValues (hp : p.Compiled) (hf : f.WellFormed) (hv : v.Fits p (p.shape f)) :
    (rawValues p f v).foldl (mergeValue p f) (p.fieldDefault f) = f.reread p v := by
  cases hentry : p.mapEntry? f with
  | some entry =>
    obtain ⟨⟨g, s, h, hfields⟩, -⟩ := hp.isEntry hentry
    rw [Pool.shape_of_map hentry hfields] at hv
    cases hv with
    | map hkey hkeys hapart hvalues =>
      rw [rawValues, Pool.fieldDefault_of_map hentry,
        foldl_of_map hp hentry hfields hkeys hvalues hapart (by simp), List.nil_append, Field.reread]
  | none =>
    cases hrepeated : f.isRepeated with
    | false =>
      rw [Pool.shape_of_single hrepeated] at hv
      rw [foldl_of_single hp.loaded hf hrepeated hv, reread_of_one hv, hrepeated]
      rfl
    | true =>
      rw [Pool.shape_of_list hrepeated hentry] at hv
      cases hv with
      | list hitems => exact foldl_of_list hf hrepeated hentry hitems
      | null hnull hv =>
        obtain ⟨r, hraw, hmerge⟩ := exists_rawValue hentry hv
        rw [hraw, List.foldl_cons, List.foldl_nil, hmerge _ (recordBase_of_repeated hrepeated _),
          if_pos hrepeated, Pool.fieldDefault_of_list hrepeated hentry, itemsOf, List.nil_append,
          reread_of_one hv, if_pos hrepeated]

/-- A value that counts as set has raw values. -/
theorem rawValues_ne_nil (hp : p.Compiled) {type : String} (hf : p.field? type f.number = some f)
    (hv : v.Fits p (p.shape f)) (h : (f.hasPresence || !f.isDefault p v) = true) :
    rawValues p f v ≠ [] := by
  intro hnil
  have hfold := foldl_rawValues hp (hp.loaded.wellFormed_of_field? hf) hv
  rw [hnil, List.foldl_nil] at hfold
  cases hrepeated : f.isRepeated with
  | false =>
    rw [Pool.shape_of_single hrepeated] at hv
    obtain ⟨r, hraw, -⟩ := exists_rawValue (Pool.mapEntry?_of_single hrepeated) hv
    rw [hraw] at hnil
    cases hnil
  | true =>
    rw [hp.hasPresence_of_isRepeated hf hrepeated, Bool.false_or, Bool.not_eq_true'] at h
    have hdefault : f.isDefault p v = true := by
      cases hentry : p.mapEntry? f with
      | some entry =>
        rw [Pool.fieldDefault_of_map hentry] at hfold
        cases v with
        | map entries =>
          rw [Field.reread, Value.map.injEq, eq_comm, List.map_eq_nil_iff] at hfold
          rw [hfold]
          rfl
        | _ => simp [Field.reread, hrepeated] at hfold
      | none =>
        rw [Pool.fieldDefault_of_list hrepeated hentry] at hfold
        cases v with
        | list items =>
          rw [Field.reread, Value.list.injEq, eq_comm, List.map_eq_nil_iff] at hfold
          rw [hfold]
          rfl
        | _ => simp [Field.reread, hrepeated] at hfold
    rw [h] at hdefault
    cases hdefault

/-! ## Messages -/

@[simp]
theorem type_reread (p : Pool) (m : Message) : (m.reread p).type = m.type := type_mergeFields ..

theorem unknown_of_fits (hm : m.Fits p) : ∀ x ∈ m.unknown, p.field? m.type x.1 = none := by
  cases hm with
  | mk hascending hknown hfields honeofs hunknown => exact fun x hx => (hunknown x hx).unknown

/-- Each field of a message that is written and read back holds what comes of its value. -/
theorem get?_reread (hp : p.Compiled) (hm : m.Fits p) (hf : p.field? m.type f.number = some f) :
    (m.reread p).get? f.number = (m.get? f.number).bind (f.kept p) := by
  obtain ⟨type, fields, unknown⟩ := m
  obtain ⟨hset, hunset⟩ := get?_rawFields (m := .empty type) hp.loaded hm.numbers
    (fun n hset => nomatch hset)
  refine (get?_mergeFields_toRaw (unknown_of_fits hm) _).trans ?_
  cases hv : Message.get? (mk type fields unknown) f.number with
  | none =>
    rw [Option.bind_none]
    refine hunset _ fun hmem => ?_
    obtain ⟨⟨n, w⟩, hx, hnumber⟩ := List.mem_map.1 hmem
    obtain rfl : n = f.number := hnumber
    have hx := (numbered?_eq_some_iff hm.ascending).2 hx
    exact Option.some_ne_none _ (hx.symm.trans hv)
  | some v =>
    have hfits := hm.get? hv hf
    rw [type_empty] at hset
    refine (hset _ v f ((numbered?_eq_some_iff hm.ascending).1 hv) hf).trans ?_
    rw [present_eq, Option.bind_some, Field.kept]
    split
    next hpresent =>
      rw [get?_mergeFields_own (m := .empty type) hf (rawValues_ne_nil hp hf hfits hpresent)]
      exact congrArg some (foldl_rawValues hp (hp.loaded.wellFormed_of_field? hf) hfits)
    next => rw [under, List.map_nil, mergeFields_nil, get?_empty]

/-- A message that fits its type does so after it was written and read back. -/
theorem Fits.reread (hp : p.Compiled) (hm : m.Fits p) : (m.reread p).Fits p := by
  obtain ⟨hfits, -⟩ := roundTrips hp m.nesting m m hm (.refl m) (Nat.le_refl _)
  exact fits_mergeFields hp (fits_empty p m.type) (fun _ => rfl) _ hfits

/-- What is set in a message that fits its type is a field of the type. -/
theorem Fits.exists_field (hm : m.Fits p) {n : Nat} (hv : m.get? n = some v) :
    ∃ f, p.field? m.type f.number = some f ∧ f.number = n := by
  have hascending := hm.ascending
  cases hm with
  | mk _ hknown hfields honeofs hunknown =>
    obtain ⟨f, hf⟩ := Option.isSome_iff_exists.1
      (hknown (n, v) ((numbered?_eq_some_iff hascending).1 hv))
    obtain rfl := Pool.number_of_field? hf
    exact ⟨f, hf, rfl⟩

/-- Messages are told by their types, what their fields hold and what their types do not know. -/
theorem eq_of_get?_eq {m' : Message} (htype : m.type = m'.type) (hunknown : m.unknown = m'.unknown)
    (h : m.fields.Pairwise fun a b => a.1 < b.1) (h' : m'.fields.Pairwise fun a b => a.1 < b.1)
    (hget : ∀ n, m.get? n = m'.get? n) : m = m' := by
  obtain ⟨type, fields, unknown⟩ := m
  obtain ⟨type', fields', unknown'⟩ := m'
  obtain rfl : type = type' := htype
  obtain rfl : unknown = unknown' := hunknown
  replace h : fields.Pairwise fun a b => a.1 < b.1 := h
  replace h' : fields'.Pairwise fun a b => a.1 < b.1 := h'
  have hnodup {t : List (Nat × Value)} (h : t.Pairwise fun a b => a.1 < b.1) : t.Nodup := by
    rw [List.nodup_iff_pairwise_ne]
    refine h.imp fun {a b} hlt he => ?_
    exact Nat.lt_irrefl a.1 (he ▸ hlt)
  obtain rfl : fields = fields' := by
    refine List.Perm.eq_of_pairwise (fun a b _ _ hab hba => absurd hba (Nat.lt_asymm hab)) h h' ?_
    refine (List.perm_ext_iff_of_nodup (hnodup h) (hnodup h')).2 fun x => ?_
    obtain ⟨n, v⟩ := x
    rw [← numbered?_eq_some_iff h, ← numbered?_eq_some_iff h']
    exact Eq.congr_left (hget n)
  rfl

/-- A message comes back as it is if every value in it does. -/
theorem reread_eq_self (hp : p.Compiled) (hm : m.Fits p) (hunknown : m.unknown = [])
    (h : ∀ v f, p.field? m.type f.number = some f → m.get? f.number = some v →
      f.kept p v = some v) : m.reread p = m := by
  refine eq_of_get?_eq (type_reread p m) ?_ (hm.reread hp).ascending hm.ascending fun n => ?_
  · obtain ⟨type, fields, unknown⟩ := m
    obtain rfl : unknown = [] := hunknown
    refine (unknown_mergeFields_toRaw (unknown_of_fits hm)).trans ?_
    exact List.mergeSort_nil
  · cases hv : m.get? n with
    | none =>
      cases hv' : (m.reread p).get? n with
      | none => rfl
      | some w =>
        obtain ⟨f, hf, rfl⟩ := (hm.reread hp).exists_field hv'
        rw [type_reread] at hf
        rw [get?_reread hp hm hf, hv] at hv'
        cases hv'
    | some v =>
      obtain ⟨f, hf, rfl⟩ := hm.exists_field hv
      rw [get?_reread hp hm hf, hv]
      exact h v f hf hv

end

end Message

end ServiceCall
