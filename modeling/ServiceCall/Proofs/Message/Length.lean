import ServiceCall.Proofs.Json.Weight
import ServiceCall.Proofs.Message.Listed
import ServiceCall.Proofs.Message.Reread
/-!
# How long messages are on the wire

A message is as long as its fields together (`Message.length_encode`), so a field that is set adds
its own length at most (`Message.length_encode_put_le`), and a message that stands in another one is
no longer than that (`Message.Fits.length_le_of_encloses`).
-/

namespace ServiceCall

open Wire (Raw RawRecord)

namespace Wire

theorem writeFields_append (r s : RawRecord) :
    Raw.writeFields (r ++ s) = Raw.writeFields r ++ Raw.writeFields s := by
  induction r with
  | nil => rw [Raw.writeFields, List.nil_append, List.nil_append]
  | cons x rest ih =>
    obtain ⟨number, v⟩ := x
    rw [List.cons_append, writeFields_cons, writeFields_cons, ih]
    simp only [List.append_assoc]

/-- The order of fields does not matter for their length. -/
theorem length_writeFields_of_perm {r s : RawRecord} (h : r.Perm s) :
    (Raw.writeFields r).length = (Raw.writeFields s).length := by
  induction h with
  | nil => rfl
  | cons x _ ih =>
    obtain ⟨number, v⟩ := x
    simp only [writeFields_cons, List.length_append, ih]
  | swap x y rest =>
    obtain ⟨number, v⟩ := x
    obtain ⟨other, w⟩ := y
    simp only [writeFields_cons, List.length_append]
    omega
  | trans _ _ ih ih' => exact ih.trans ih'

theorem length_write_le_of_mem {r : RawRecord} {x : Nat × Raw} (h : x ∈ r) :
    x.2.write.length ≤ (Raw.writeFields r).length := by
  induction r with
  | nil => cases h
  | cons y rest ih =>
    obtain ⟨number, v⟩ := y
    rw [writeFields_cons, List.length_append, List.length_append, List.length_append]
    obtain rfl | h := List.mem_cons.1 h
    · dsimp only
      omega
    · have := ih h
      omega

end Wire

/-- The bytes that a field takes with a value in it. -/
def Field.length (p : Pool) (f : Field) (v : Value) : Nat :=
  (Raw.writeFields (Message.present p f v (Message.rawValues p f v))).length

namespace Message

variable {p : Pool} {m : Message} {f : Field} {v : Value} {type : String} {number : Nat}

/-! ## The length of a message -/

/-- The bytes that fields that are set take. -/
def fieldsLength (p : Pool) (type : String) (fields : List (Nat × Value)) : Nat :=
  (Raw.writeFields (rawFields p type fields)).length

/-- A message is as long as its fields and what its type does not know. -/
theorem length_encode (p : Pool) (m : Message) : (m.encode p).length =
    fieldsLength p m.type m.fields + (Raw.writeFields m.unknown).length := by
  obtain ⟨type, fields, unknown⟩ := m
  have hunknown : (byNumber unknown).Perm unknown := List.mergeSort_perm unknown _
  rw [encode, toRaw, Wire.length_writeFields_of_perm (mergeByNumber_perm _ _),
    Wire.writeFields_append, List.length_append, Wire.length_writeFields_of_perm hunknown]
  rfl

theorem fieldsLength_cons (x : Nat × Value) (rest : List (Nat × Value)) :
    fieldsLength p type (x :: rest) = fieldsLength p type [x] + fieldsLength p type rest := by
  obtain ⟨number, v⟩ := x
  rw [fieldsLength, rawFields, Wire.writeFields_append, List.length_append, fieldsLength, rawFields,
    rawFields, List.append_nil, fieldsLength]

theorem fieldsLength_singleton (hf : p.field? type number = some f) (v : Value) :
    fieldsLength p type [(number, v)] = f.length p v := by
  rw [fieldsLength, rawFields_cons hf, rawFields, List.append_nil, Field.length]

theorem fieldsLength_setNumbered_le (number : Nat) (v : Value) (fields : List (Nat × Value)) :
    fieldsLength p type (setNumbered number v fields) ≤
      fieldsLength p type [(number, v)] + fieldsLength p type fields := by
  induction fields with
  | nil => exact Nat.le_add_right ..
  | cons x rest ih =>
    have hx := @fieldsLength_cons p type x rest
    obtain ⟨n, w⟩ := x
    rw [setNumbered]
    split_ifs
    · exact Nat.le_of_eq (fieldsLength_cons ..)
    · rw [fieldsLength_cons]
      omega
    · rw [fieldsLength_cons]
      omega

theorem fieldsLength_filter_le (fields : List (Nat × Value)) (keep : Nat × Value → Bool) :
    fieldsLength p type (fields.filter keep) ≤ fieldsLength p type fields := by
  induction fields with
  | nil => exact Nat.le_refl _
  | cons x rest ih =>
    have hx := @fieldsLength_cons p type x rest
    have hkept := @fieldsLength_cons p type x (rest.filter keep)
    rw [List.filter_cons]
    split_ifs <;> omega

/-- A field that is set adds its own length at most. -/
theorem length_encode_put_le (hf : p.field? m.type f.number = some f) (v : Value) :
    ((m.put p f v).encode p).length ≤ (m.encode p).length + f.length p v := by
  have hset (fields : List (Nat × Value)) := @fieldsLength_setNumbered_le p m.type f.number v fields
  rw [fieldsLength_singleton hf] at hset
  have hfields : fieldsLength p m.type (m.put p f v).fields ≤
      f.length p v + fieldsLength p m.type m.fields := by
    unfold put
    split
    next => exact Nat.le_trans (hset _) (Nat.add_le_add_left (fieldsLength_filter_le _ _) _)
    next => exact hset m.fields
  rw [length_encode, length_encode, unknown_put, type_put]
  omega

/-- No field is longer than the message. -/
theorem Fits.length_le (hm : m.Fits p) (hf : p.field? m.type f.number = some f)
    (hv : m.get? f.number = some v) : f.length p v ≤ (m.encode p).length := by
  have hmem := (numbered?_eq_some_iff hm.ascending).1 hv
  have hfields (fields : List (Nat × Value)) (hmem : (f.number, v) ∈ fields) :
      f.length p v ≤ fieldsLength p m.type fields := by
    induction fields with
    | nil => cases hmem
    | cons x rest ih =>
      have hx := @fieldsLength_cons p m.type x rest
      obtain rfl | hmem := List.mem_cons.1 hmem
      · rw [fieldsLength_singleton hf] at hx
        omega
      · have := ih hmem
        omega
  rw [length_encode]
  exact Nat.le_trans (hfields _ hmem) (Nat.le_add_right ..)

/-! ## The fields of a message on the wire -/

theorem mem_rawItems {items : List Value} {r : Raw} :
    r ∈ rawItems p f items ↔ ∃ v ∈ items, r ∈ rawValues p f v := by
  induction items with
  | nil => simp [rawItems]
  | cons w rest ih => simp [rawItems, ih]

theorem mem_rawEntries {entry : MessageType} {g h : Field} {s : Scalar}
    (hentry : p.mapEntry? f = some entry) (hfields : entry.HasEntry g s h)
    {entries : List (Value × Value)} {r : Raw} : r ∈ rawEntries p f entries ↔
      ∃ e ∈ entries, r = .record (entryFields p g h e.1 e.2) := by
  obtain ⟨hname, -⟩ := Pool.messageType_of_mapEntry? hentry
  induction entries with
  | nil => simp [rawEntries]
  | cons e rest ih =>
    obtain ⟨k, v⟩ := e
    rw [rawEntries, hname, List.mem_cons, ih]
    simp only [hfields.key, hfields.value, List.exists_mem_cons_iff, entryFields]

theorem mem_rawFields {type : String} {fields : List (Nat × Value)} {x : Nat × Raw}
    (h : x ∈ rawFields p type fields) :
    ∃ f v, p.field? type x.1 = some f ∧ (x.1, v) ∈ fields ∧ x.2 ∈ rawValues p f v := by
  induction fields with
  | nil =>
    rw [rawFields] at h
    cases h
  | cons y rest ih =>
    obtain ⟨n, v⟩ := y
    rw [rawFields] at h
    obtain h | h := List.mem_append.1 h
    · split at h
      next => cases h
      next f hf =>
        rw [present_eq] at h
        obtain ⟨r, hr, rfl⟩ := List.mem_map.1 h
        obtain rfl := Pool.number_of_field? hf
        split_ifs at hr
        · exact ⟨f, v, hf, List.mem_cons_self, hr⟩
        · cases hr
    · obtain ⟨f, w, hf, hw, hr⟩ := ih h
      exact ⟨f, w, hf, .tail _ hw, hr⟩

/-- What a message has on the wire comes of its fields, or its type does not know it. -/
theorem Fits.mem_toRaw (hm : m.Fits p) {x : Nat × Raw} (hx : x ∈ m.toRaw p) :
    (∃ f v, p.field? m.type x.1 = some f ∧ v.Fits p (p.shape f) ∧ (x.1, v) ∈ m.fields ∧
      x.2 ∈ rawValues p f v) ∨ p.field? m.type x.1 = none := by
  cases hm with
  | mk hascending hknown hfields honeofs hunknown =>
    rw [toRaw] at hx
    obtain hx | hx := List.mem_append.1 ((mergeByNumber_perm _ _).mem_iff.1 hx)
    · obtain ⟨f, v, hf, hv, hr⟩ := mem_rawFields hx
      exact .inl ⟨f, v, hf, hfields _ v f hv hf, hv, hr⟩
    · exact .inr (hunknown x (mem_byNumber.1 hx)).unknown

/-- A single value of a message type is a message of the type. -/
theorem exists_record {name : String} (hv : v.Fits p (.one (.message name))) :
    ∃ m, v = .record m ∧ m.Fits p ∧ m.type = name := by
  cases hv with
  | leaf h => exact h.elim
  | @message m hm => exact ⟨m, rfl, hm, rfl⟩

/-- A message in a field of its kind stands on the wire as its record. -/
theorem eq_record_of_mem {name : String} (hkind : f.kind = .message name)
    (hv : v.Fits p (.one f.kind)) {r : Raw} (hr : r ∈ rawValues p f v) :
    ∃ m, v = .record m ∧ m.Fits p ∧ m.type = name ∧ r = .record (m.toRaw p) := by
  rw [hkind] at hv
  obtain ⟨m, rfl, hm, htype⟩ := exists_record hv
  rw [rawValues, hkind] at hr
  exact ⟨m, rfl, hm, htype, List.mem_singleton.1 hr⟩

/-! ## Messages in messages -/

theorem nesting_le_of_get? {n : Nat} (hv : m.get? n = some v) : v.nesting ≤ m.nesting := by
  obtain ⟨type, fields, unknown⟩ := m
  have hmem : ∃ x ∈ fields, x.2 = v := by
    have hfind (fields : List (Nat × Value)) (h : numbered? n fields = some v) :
        ∃ x ∈ fields, x.2 = v := by
      induction fields with
      | nil => cases h
      | cons x rest ih =>
        obtain ⟨k, w⟩ := x
        rw [numbered?] at h
        split_ifs at h
        · exact ⟨_, List.mem_cons_self, Option.some.inj h⟩
        · obtain ⟨y, hy, he⟩ := ih h
          exact ⟨y, .tail _ hy, he⟩
    exact hfind fields hv
  obtain ⟨x, hx, rfl⟩ := hmem
  rw [nesting]
  exact Nat.le_trans (nesting_le_of_field hx) (Nat.le_max_left ..)

end Message

namespace Value

variable {p : Pool} {f : Field} {v : Value} {x : Message}

/-- A message that stands in a value is nested less deep. -/
theorem Encloses.nesting_lt (h : v.Encloses x) : x.nesting < v.nesting := by
  induction h with
  | record m => exact Nat.lt_succ_self m.nesting
  | item hv _ ih => exact Nat.lt_of_lt_of_le ih (nesting_le_of_item hv)
  | entry he _ ih => exact Nat.lt_of_lt_of_le ih (nesting_le_of_entry he)

/-- A message that stands in a value that fits does so too. -/
theorem Encloses.fits (h : v.Encloses x) {shape : Shape} (hv : v.Fits p shape) : x.Fits p := by
  induction h generalizing shape with
  | record m =>
    cases hv with
    | leaf h => exact absurd h Kind.not_holds_record
    | message h | group h => exact h
    | null _ h =>
      cases h with
      | leaf h => exact absurd h Kind.not_holds_record
      | message h | group h => exact h
  | item hmem _ ih =>
    cases hv with
    | leaf h => exact absurd h Kind.not_holds_list
    | list h => exact ih (h _ hmem)
    | null _ h =>
      cases h with
      | leaf h => exact absurd h Kind.not_holds_list
  | entry hmem _ ih =>
    cases hv with
    | leaf h => exact absurd h Kind.not_holds_map
    | map _ _ _ h => exact ih (h _ hmem)
    | null _ h =>
      cases h with
      | leaf h => exact absurd h Kind.not_holds_map

/-- A message that stands in a single value is no longer than its raw value. -/
theorem length_le_of_record (f : Field) (m : Message) :
    ∀ r ∈ Message.rawValues p f (.record m), (m.encode p).length ≤ r.write.length := by
  intro r hr
  rw [Message.rawValues, List.mem_singleton] at hr
  subst hr
  split
  next => exact Nat.le_refl _
  next =>
    rw [Raw.write, Message.encode]
    exact Nat.le_of_lt (Wire.length_writeDelimited _)

theorem Encloses.eq_record (h : v.Encloses x) {k : Kind} (hv : v.Fits p (.one k)) :
    v = .record x := by
  cases hv with
  | leaf hk => exact absurd h (not_encloses_of_holds hk)
  | message | group => rw [eq_of_encloses_record h]

end Value

namespace Message

variable {p : Pool} {m x : Message} {f : Field} {v : Value}

/-- A message that stands in the value of a field is no longer than what stands there for it. -/
theorem exists_rawValue_of_encloses (hp : p.Compiled) (hf : f.WellFormed)
    (hv : v.Fits p (p.shape f)) (h : v.Encloses x) :
    f.isDefault p v = false ∧ ∃ r ∈ rawValues p f v, (x.encode p).length ≤ r.write.length := by
  have hone {f : Field} {w : Value} {k : Kind} (hw : w.Fits p (.one k)) (h : w.Encloses x) :
      ∃ r, rawValues p f w = [r] ∧ (x.encode p).length ≤ r.write.length := by
    obtain rfl := h.eq_record hw
    refine ⟨_, by rw [rawValues], Value.length_le_of_record f x _ ?_⟩
    rw [rawValues]
    exact List.mem_singleton_self _
  cases h with
  | record =>
    have hraw := rawValues.eq_3 p f x
    exact ⟨rfl, _, hraw ▸ List.mem_singleton_self _,
      Value.length_le_of_record f x _ (hraw ▸ List.mem_singleton_self _)⟩
  | @item items w _ hw h =>
    obtain ⟨hrepeated, hmap, hitems⟩ := hv.of_list
    obtain ⟨r, hraw, hr⟩ := hone (hitems w hw) h
    refine ⟨List.isEmpty_eq_false_iff.2 (List.ne_nil_of_mem hw), r, ?_, hr⟩
    have hpacked : f.isPacked = false := by
      by_contra hpacked
      obtain ⟨-, hkind⟩ := hf.packed (Bool.not_eq_false _ ▸ hpacked)
      exact Value.not_encloses_of_holds (holds_of_isPackable hkind (hitems w hw)) h
    rw [rawValues, hpacked]
    exact mem_rawItems.2 ⟨w, hw, hraw ▸ List.mem_singleton_self r⟩
  | @entry entries e _ he h =>
    obtain ⟨entry, hentry⟩ := Option.isSome_iff_exists.1 hv.of_map
    obtain ⟨⟨g, s, w, hfields⟩, -⟩ := hp.isEntry hentry
    rw [Pool.shape_of_map hentry hfields] at hv
    cases hv with
    | map _ _ _ hvalues =>
      obtain ⟨r, hraw, hr⟩ := hone (hvalues e he) h
      refine ⟨List.isEmpty_eq_false_iff.2 (List.ne_nil_of_mem he), _,
        by rw [rawValues]; exact (mem_rawEntries hentry hfields).2 ⟨e, he, rfl⟩, ?_⟩
      have hmem : (w.number, r) ∈ entryFields p g w e.1 e.2 := by
        have hdefault : w.isDefault p e.2 = false := by
          rw [h.eq_record (hvalues e he)]
          rfl
        rw [entryFields, present, present, hdefault, hraw, Bool.not_false, Bool.or_true, if_pos rfl]
        exact List.mem_append_right _ (List.mem_singleton_self _)
      have hwrite := Wire.length_write_le_of_mem hmem
      rw [Raw.write]
      exact Nat.le_trans hr (Nat.le_trans hwrite (Nat.le_of_lt (Wire.length_writeDelimited _)))

/-- A message that stands in a field of another one is no longer than that. -/
theorem Fits.length_le_of_encloses (hp : p.Compiled) (hm : m.Fits p)
    (hf : p.field? m.type f.number = some f) (hv : m.get? f.number = some v) (h : v.Encloses x) :
    (x.encode p).length ≤ (m.encode p).length := by
  obtain ⟨hdefault, r, hr, hlength⟩ := exists_rawValue_of_encloses hp
    (hp.loaded.wellFormed_of_field? hf) (hm.get? hv hf) h
  have hmem : (f.number, r) ∈ present p f v (rawValues p f v) := by
    rw [present, hdefault, Bool.not_false, Bool.or_true, if_pos rfl]
    exact List.mem_map_of_mem hr
  have hwrite := Wire.length_write_le_of_mem hmem
  exact Nat.le_trans hlength (Nat.le_trans hwrite (hm.length_le hf hv))

end Message

end ServiceCall
