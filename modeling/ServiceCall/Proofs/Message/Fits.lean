import ServiceCall.Proofs.Message.Scalar
import ServiceCall.Proofs.Schema.Layout
/-!
# Messages that fit their types

What a value is allowed to be is said by the shape of its field, and what a message is by its
type (`Message.Fits`). Setting a field to a value of its shape keeps a message fitting
(`Message.Fits.put`), and so does merging what was read from the wire
(`Message.Fits.mergeFields`): every message that is decoded fits its type.
-/

namespace ServiceCall

open Wire (Raw RawRecord)

/-! ## Fitting -/

/-- A value is the null of a kind, which may stand for a whole list of it. -/
def Value.IsNull (p : Pool) (k : Kind) (v : Value) : Prop :=
  k = .message WellKnown.valueName ∧
      (∃ m, Message.ofRaw p WellKnown.valueName (Json.toRaw .null) = .ok m ∧ v = .record m) ∨
    k = .enumeration WellKnown.nullName ∧ v = .integer 0

/-- A field that a type does not know, as it may stand on the wire. -/
structure Pool.IsUnknown (p : Pool) (type : String) (x : Nat × Raw) : Prop where
  pos : 1 ≤ x.1
  lt : x.1 < 2 ^ 29
  unknown : p.field? type x.1 = none
  fits : ∃ strict depth, Wire.UnknownFits p.layout strict depth x.2

/-- No two entries have the same key. -/
def Value.KeysApart (entries : List (Value × Value)) : Prop :=
  entries.Pairwise fun a b => sameKey a.1 b.1 = false

mutual

/-- A value is one of a shape. Null makes a single value of a list. -/
inductive Value.Fits (p : Pool) : Shape → Value → Prop where
  | leaf {k : Kind} {v : Value} (h : k.Holds v) : Value.Fits p (.one k) v
  | message {m : Message} (h : Message.Fits p m) : Value.Fits p (.one (.message m.type)) (.record m)
  | group {m : Message} (h : Message.Fits p m) : Value.Fits p (.one (.group m.type)) (.record m)
  | list {k : Kind} {items : List Value} (h : ∀ v ∈ items, Value.Fits p (.one k) v) :
      Value.Fits p (.list k) (.list items)
  | null {k : Kind} {v : Value} (hnull : v.IsNull p k) (h : Value.Fits p (.one k) v) :
      Value.Fits p (.list k) v
  | map {key : Scalar} {value : Kind} {entries : List (Value × Value)} (hkey : key.isKey = true)
      (hkeys : ∀ e ∈ entries, key.Holds e.1)
      (hapart : Value.KeysApart entries)
      (hvalues : ∀ e ∈ entries, Value.Fits p (.one value) e.2) :
      Value.Fits p (.map (.scalar key) value) (.map entries)

/-- A message holds values of its type's fields, of each oneof at most one, by ascending number, and
fields that the type does not know. -/
inductive Message.Fits (p : Pool) : Message → Prop where
  | mk {type : String} {fields : List (Nat × Value)} {unknown : RawRecord}
      (hascending : fields.Pairwise fun a b => a.1 < b.1)
      (hknown : ∀ x ∈ fields, (p.field? type x.1).isSome = true)
      (hfields : ∀ n v f, (n, v) ∈ fields → p.field? type n = some f → Value.Fits p (p.shape f) v)
      (honeofs : ∀ x ∈ fields, ∀ y ∈ fields, ∀ i, x.1 ∈ (p.messageType type).oneofNumbers i →
        y.1 ∈ (p.messageType type).oneofNumbers i → x.1 = y.1)
      (hunknown : ∀ x ∈ unknown, p.IsUnknown type x) : Message.Fits p (.mk type fields unknown)

end

section

variable {p : Pool} {m : Message} {f : Field} {v : Value}

theorem Message.fits_empty (p : Pool) (type : String) : (Message.empty type).Fits p :=
  .mk .nil (by simp) (by simp) (by simp) (by simp)

/-! ## Setting fields -/

theorem mem_setNumbered {α : Type} {n : Nat} {v : α} {t : List (Nat × α)} {x : Nat × α}
    (h : x ∈ setNumbered n v t) : x = (n, v) ∨ x ∈ t := by
  induction t with
  | nil => exact .inl (by simpa [setNumbered] using h)
  | cons y rest ih =>
    obtain ⟨k, w⟩ := y
    rw [setNumbered] at h
    split_ifs at h with hlt heq
    · exact List.mem_cons.1 h
    · obtain h | h := List.mem_cons.1 h
      · exact .inl h
      · exact .inr (.tail _ h)
    · obtain rfl | h := List.mem_cons.1 h
      · exact .inr List.mem_cons_self
      · exact (ih h).imp_right (.tail _)

theorem pairwise_setNumbered {α : Type} {n : Nat} (v : α) {t : List (Nat × α)}
    (h : t.Pairwise fun a b => a.1 < b.1) : (setNumbered n v t).Pairwise fun a b => a.1 < b.1 := by
  induction t with
  | nil => exact List.pairwise_singleton ..
  | cons y rest ih =>
    obtain ⟨k, w⟩ := y
    obtain ⟨hfirst, hrest⟩ := List.pairwise_cons.1 h
    rw [setNumbered]
    split_ifs with hlt heq
    · refine List.pairwise_cons.2 ⟨fun x hx => ?_, h⟩
      obtain rfl | hx := List.mem_cons.1 hx
      · exact hlt
      · exact Nat.lt_trans hlt (hfirst x hx)
    · exact List.pairwise_cons.2 ⟨fun x hx => heq ▸ hfirst x hx, hrest⟩
    · refine List.pairwise_cons.2 ⟨fun x hx => ?_, ih hrest⟩
      obtain rfl | hx := mem_setNumbered hx
      · exact Nat.lt_of_le_of_ne (Nat.not_lt.1 hlt) (Ne.symm heq)
      · exact hfirst x hx

theorem numbered?_eq_some_iff {α : Type} {n : Nat} {v : α} {t : List (Nat × α)}
    (h : t.Pairwise fun a b => a.1 < b.1) : numbered? n t = some v ↔ (n, v) ∈ t := by
  induction t with
  | nil => simp [numbered?]
  | cons y rest ih =>
    obtain ⟨k, w⟩ := y
    obtain ⟨hfirst, hrest⟩ := List.pairwise_cons.1 h
    rw [numbered?, List.mem_cons]
    by_cases hk : k = n
    · subst hk
      have hnot : (k, v) ∉ rest := fun hmem => Nat.lt_irrefl k (hfirst _ hmem)
      simp [hnot, eq_comm]
    · simp [hk, Ne.symm hk, ih hrest]

theorem Message.Fits.ascending (h : m.Fits p) : m.fields.Pairwise fun a b => a.1 < b.1 := by
  cases h with
  | mk hascending hknown hfields honeofs hunknown => exact hascending

/-- The value of a field is one of its shape. -/
theorem Message.Fits.get? (h : m.Fits p) {n : Nat} (hv : m.get? n = some v)
    (hf : p.field? m.type n = some f) : v.Fits p (p.shape f) := by
  cases h with
  | mk hascending hknown hfields honeofs hunknown =>
    exact hfields n v f ((numbered?_eq_some_iff hascending).1 hv) hf

/-- What holds of the fields of a message that fits, when some go. -/
theorem Message.Fits.clear (h : m.Fits p) (ns : List Nat) : (m.clear ns).Fits p := by
  cases h with
  | mk hascending hknown hfields honeofs hunknown =>
    exact .mk (hascending.filter _) (fun x hx => hknown x (List.mem_of_mem_filter hx))
      (fun n v f hx => hfields n v f (List.mem_of_mem_filter hx))
      (fun x hx y hy => honeofs x (List.mem_of_mem_filter hx) y (List.mem_of_mem_filter hy)) hunknown

/-- A message fits with one more field that its type does not know. -/
theorem Message.Fits.addUnknown (h : m.Fits p) {x : Nat × Raw} (hx : p.IsUnknown m.type x) :
    (Message.mk m.type m.fields (m.unknown ++ [x])).Fits p := by
  cases h with
  | mk hascending hknown hfields honeofs hunknown =>
    refine .mk hascending hknown hfields honeofs fun y hy => ?_
    obtain hy | hy := List.mem_append.1 hy
    · exact hunknown y hy
    · exact List.mem_singleton.1 hy ▸ hx

/-- Setting a field keeps a message fitting if no other field of its oneof is set. -/
theorem Message.Fits.set (hp : p.Compiled) (h : m.Fits p) (hf : p.field? m.type f.number = some f)
    (hv : v.Fits p (p.shape f))
    (hfree : ∀ x ∈ m.fields, ∀ i ∈ f.oneofIndex, x.1 ∈ (p.messageType m.type).oneofNumbers i →
      x.1 = f.number) : (m.set f.number v).Fits p := by
  cases h with
  | @mk type fields unknown hascending hknown hfields honeofs hunknown =>
    have hown : ∀ i, f.number ∈ (p.messageType type).oneofNumbers i → f.oneofIndex = some i :=
      fun i => (hp.loaded.mem_oneofNumbers_iff hf).1
    refine .mk (pairwise_setNumbered v hascending) (fun x hx => ?_) (fun n w g hx hg => ?_)
      (fun x hx y hy i hxi hyi => ?_) hunknown
    · obtain rfl | hx := mem_setNumbered hx
      · exact Option.isSome_iff_exists.2 ⟨f, hf⟩
      · exact hknown x hx
    · obtain hx | hx := mem_setNumbered hx
      · obtain ⟨rfl, rfl⟩ := Prod.mk.inj hx
        exact Option.some.inj (hf.symm.trans hg) ▸ hv
      · exact hfields n w g hx hg
    · obtain rfl | hx := mem_setNumbered hx <;> obtain rfl | hy := mem_setNumbered hy
      · rfl
      · exact (hfree y hy i (hown i hxi) hyi).symm
      · exact hfree x hx i (hown i hyi) hxi
      · exact honeofs x hx y hy i hxi hyi

/-- Setting a field to a value of its shape keeps a message fitting. -/
theorem Message.Fits.put (hp : p.Compiled) (h : m.Fits p) (hf : p.field? m.type f.number = some f)
    (hv : v.Fits p (p.shape f)) : (m.put p f v).Fits p := by
  unfold Message.put
  split
  next i hi =>
    refine (h.clear _).set hp hf hv fun x hx j hj hmem => ?_
    obtain rfl : i = j := Option.some.inj (hi.symm.trans hj)
    obtain ⟨-, hkept⟩ := List.mem_filter.1 hx
    have hkept : x.1 ∉ (p.messageType m.type).oneofNumbers i ∨ x.1 = f.number := by
      simpa using hkept
    exact hkept.resolve_left (not_not.2 hmem)
  next hnone => exact h.set hp hf hv fun x hx j hj => by simp [hnone] at hj

/-! ## Defaults -/

/-- The default of an enum is its first value. -/
theorem Pool.holds_kindDefault (hp : p.Loaded) (name : String) :
    (Kind.enumeration name).Holds (p.kindDefault (.enumeration name)) := by
  obtain ⟨files, hp⟩ := hp
  rw [kindDefault]
  split
  next first rest he =>
    exact hp.origin.enums _ (List.mem_of_find?_eq_some he) first List.mem_cons_self
  next => exact Scalar.zero_mem_range .int32

/-- The default of a kind is one of its values. -/
theorem Pool.fits_kindDefault (hp : p.Loaded) (k : Kind) : (p.kindDefault k).Fits p (.one k) := by
  cases k with
  | scalar s => exact .leaf s.holds_fallback
  | enumeration name => exact .leaf (holds_kindDefault hp name)
  | message name => exact .message (Message.fits_empty p name)
  | group name => exact .group (Message.fits_empty p name)

/-- The default of a field is one of its values. -/
theorem Pool.fits_fieldDefault (hp : p.Compiled) (hf : f.WellFormed) :
    (p.fieldDefault f).Fits p (p.shape f) := by
  unfold fieldDefault isMap
  cases hentry : p.mapEntry? f with
  | some entry =>
    obtain ⟨⟨g, s, h, hfields⟩, -⟩ := hp.isEntry hentry
    rw [shape_of_map hentry hfields]
    exact .map hfields.isKey (by simp) .nil (by simp)
  | none =>
    cases hrepeated : f.isRepeated with
    | true =>
      rw [shape_of_list hrepeated hentry]
      exact .list (by simp)
    | false =>
      rw [shape_of_single hrepeated]
      cases hdefault : f.declaredDefault with
      | some v => exact .leaf (hf.default v hdefault)
      | none => exact fits_kindDefault hp.loaded f.kind

/-- The value of a field, set or not, is one of its shape. -/
theorem Message.Fits.value (hp : p.Compiled) (h : m.Fits p) {n : Nat}
    (hf : p.field? m.type n = some f) : (m.value p f).Fits p (p.shape f) := by
  unfold Message.value
  cases hv : m.get? f.number with
  | none => exact Pool.fits_fieldDefault hp (hp.loaded.wellFormed_of_field? hf)
  | some v => exact h.get? hv (Pool.number_of_field? hf ▸ hf)

/-! ## Lists and maps -/

theorem Kind.not_holds_list {k : Kind} {items : List Value} : ¬k.Holds (.list items) := by
  cases k with
  | scalar s => cases s <;> exact id
  | _ => exact id

theorem Kind.not_holds_record {k : Kind} {m : Message} : ¬k.Holds (.record m) := by
  cases k with
  | scalar s => cases s <;> exact id
  | _ => exact id

theorem Kind.not_holds_map {k : Kind} {entries : List (Value × Value)} :
    ¬k.Holds (.map entries) := by
  cases k with
  | scalar s => cases s <;> exact id
  | _ => exact id

namespace Value

theorem Fits.holds {s : Scalar} (h : v.Fits p (.one (.scalar s))) : s.Holds v := by
  cases h with
  | leaf h => exact h

/-- A list stands in a list field. -/
theorem Fits.of_list {items : List Value} (h : (Value.list items).Fits p (p.shape f)) :
    f.isRepeated = true ∧ p.mapEntry? f = none ∧ ∀ v ∈ items, v.Fits p (.one f.kind) := by
  generalize hs : p.shape f = shape at h
  cases h with
  | leaf h => exact absurd h Kind.not_holds_list
  | list h =>
    obtain ⟨hrepeated, hmap, rfl⟩ := Pool.list_of_shape hs
    exact ⟨hrepeated, hmap, h⟩
  | null hk h =>
    cases h with
    | leaf h => exact absurd h Kind.not_holds_list

/-- A map stands in a map field. -/
theorem Fits.of_map {entries : List (Value × Value)} (h : (Value.map entries).Fits p (p.shape f)) :
    (p.mapEntry? f).isSome = true := by
  generalize hs : p.shape f = shape at h
  cases h with
  | leaf h => exact absurd h Kind.not_holds_map
  | map hkey hkeys hapart hvalues =>
    obtain ⟨entry, hentry⟩ := Pool.mapEntry?_of_shape_map hs
    rw [hentry]
    rfl
  | null hk h =>
    cases h with
    | leaf h => exact absurd h Kind.not_holds_map

theorem Fits.itemsOf {k : Kind} (h : v.Fits p (.list k)) :
    ∀ w ∈ Message.itemsOf v, w.Fits p (.one k) := by
  cases h with
  | list h => exact h
  | null hk h =>
    cases h with
    | leaf h => cases v <;> first | exact absurd h Kind.not_holds_list | simp [Message.itemsOf]
    | message h | group h => simp [Message.itemsOf]

theorem sameKey_comm (a b : Value) : sameKey a b = sameKey b a := by
  cases a <;> cases b <;> simp [sameKey, BEq.comm]

theorem mem_insertEntry {key value : Value} {entries : List (Value × Value)} {e : Value × Value}
    (h : e ∈ insertEntry key value entries) :
    (e.1 = key ∨ ∃ a ∈ entries, a.1 = e.1) ∧ (e.2 = value ∨ ∃ a ∈ entries, a.2 = e.2) := by
  induction entries with
  | nil =>
    obtain rfl := List.mem_singleton.1 h
    exact ⟨.inl rfl, .inl rfl⟩
  | cons a rest ih =>
    obtain ⟨k, w⟩ := a
    rw [insertEntry] at h
    split_ifs at h
    · obtain rfl | h := List.mem_cons.1 h
      · exact ⟨.inr ⟨_, List.mem_cons_self, rfl⟩, .inl rfl⟩
      · exact ⟨.inr ⟨e, .tail _ h, rfl⟩, .inr ⟨e, .tail _ h, rfl⟩⟩
    · obtain rfl | h := List.mem_cons.1 h
      · exact ⟨.inr ⟨_, List.mem_cons_self, rfl⟩, .inr ⟨_, List.mem_cons_self, rfl⟩⟩
      · obtain ⟨hkey, hvalue⟩ := ih h
        exact ⟨hkey.imp_right fun ⟨a, ha, he⟩ => ⟨a, .tail _ ha, he⟩,
          hvalue.imp_right fun ⟨a, ha, he⟩ => ⟨a, .tail _ ha, he⟩⟩

theorem KeysApart.insertEntry {key value : Value} {entries : List (Value × Value)}
    (h : KeysApart entries) : KeysApart (insertEntry key value entries) := by
  induction entries with
  | nil => exact List.pairwise_singleton ..
  | cons a rest ih =>
    obtain ⟨k, w⟩ := a
    obtain ⟨hfirst, hrest⟩ := List.pairwise_cons.1 h
    rw [Value.insertEntry]
    split_ifs with hkey
    · exact List.pairwise_cons.2 ⟨hfirst, hrest⟩
    · refine List.pairwise_cons.2 ⟨fun e he => ?_, ih hrest⟩
      obtain ⟨hsame | ⟨a, ha, hsame⟩, -⟩ := mem_insertEntry he
      · rw [hsame, sameKey_comm]
        exact Bool.not_eq_true _ ▸ hkey
      · exact hsame ▸ hfirst a ha

/-- A map fits with one more entry. -/
theorem Fits.insertEntry {s : Scalar} {k : Kind} {key value : Value}
    {entries : List (Value × Value)} (h : (Value.map entries).Fits p (.map (.scalar s) k))
    (hkey : s.Holds key) (hvalue : value.Fits p (.one k)) :
    (Value.map (Value.insertEntry key value entries)).Fits p (.map (.scalar s) k) := by
  cases h with
  | map hs hkeys hapart hvalues =>
    refine .map hs (fun e he => ?_) (KeysApart.insertEntry hapart) (fun e he => ?_)
    · obtain ⟨rfl | ⟨a, ha, hsame⟩, -⟩ := mem_insertEntry he
      · exact hkey
      · exact hsame ▸ hkeys a ha
    · obtain ⟨-, rfl | ⟨a, ha, hsame⟩⟩ := mem_insertEntry he
      · exact hvalue
      · exact hsame ▸ hvalues a ha

end Value

end

end ServiceCall
