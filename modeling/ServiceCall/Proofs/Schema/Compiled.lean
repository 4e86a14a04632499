import ServiceCall.Proofs.Message.Put
/-!
# Pools as compilers make them

A loaded pool may still hold definitions that no compiler writes: entries of maps that are not a
key with a value, lists that tell being unset from being empty, and extensions that share a
number. In a compiled pool (`Pool.Compiled`) a field that is found by a key is found by its
number, and the shape of a map is told by its entries.
-/

namespace ServiceCall

/-- The entries of a map have a key and a value, each of them single and in no oneof. -/
structure MessageType.HasEntry (t : MessageType) (g : Field) (s : Scalar) (h : Field) : Prop where
  key : t.field? 1 = some g
  kind : g.kind = .scalar s
  isKey : s.isKey = true
  keySingle : g.isRepeated = false
  keyFree : g.oneofIndex = none
  value : t.field? 2 = some h
  valueSingle : h.isRepeated = false
  valueFree : h.oneofIndex = none

/-- The entries of a map have a key and a value and nothing else. -/
structure MessageType.IsEntry (p : Pool) (t : MessageType) : Prop where
  hasEntry : ∃ g s h, t.HasEntry g s h
  only : ∀ f ∈ t.declared ++ p.extensionsOf t.fullName, f.number = 1 ∨ f.number = 2

/-- The fields of a pool, of all its messages and extensions. -/
def Pool.fields (p : Pool) : List Field :=
  p.messages.flatMap (·.declared) ++ p.extensions.map (·.field)

/-- A loaded pool whose maps are made of proper entries, whose lists do not tell being unset from
being empty, and whose extensions have numbers of their own. -/
structure Pool.Compiled (p : Pool) : Prop where
  loaded : p.Loaded
  entries : ∀ t ∈ p.messages, t.isMapEntry = true → t.IsEntry p
  lists : ∀ f ∈ p.fields, f.isRepeated = true → f.hasPresence = false
  extensions : p.extensions.Pairwise fun x y =>
    x.extendee = y.extendee → x.field.number ≠ y.field.number
  extended : ∀ x ∈ p.extensions, (p.messageType x.extendee).field? x.field.number = none

/-- The entries of a map have a key and a value, as can be seen in their type. -/
def MessageType.hasEntry (t : MessageType) : Bool :=
  match t.field? 1, t.field? 2 with
  | some g, some h =>
    (match g.kind with
      | .scalar s => s.isKey
      | _ => false) &&
      !g.isRepeated && g.oneofIndex.isNone && !h.isRepeated && h.oneofIndex.isNone
  | _, _ => false

theorem MessageType.exists_hasEntry {t : MessageType} (ht : t.hasEntry = true) :
    ∃ g s h, t.HasEntry g s h := by
  unfold hasEntry at ht
  split at ht
  next g h hg hh =>
    simp only [Bool.and_eq_true, Bool.not_eq_true', Option.isNone_iff_eq_none] at ht
    obtain ⟨⟨⟨⟨hkey, hg1⟩, hg2⟩, hh1⟩, hh2⟩ := ht
    split at hkey
    next s hs => exact ⟨g, s, h, hg, hs, hkey, hg1, hg2, hh, hh1, hh2⟩
    next => cases hkey
  next => cases ht

namespace Pool

variable {p : Pool} {type key : String} {number : Nat} {f : Field} {entry : MessageType}

theorem field?_eq_some (h : p.field? type number = some f) :
    (f ∈ (p.messageType type).declared ∨ f ∈ p.extensionsOf type) ∧ f.number = number := by
  refine ⟨?_, number_of_field? h⟩
  rw [field?, Option.orElse_eq_orElse, Option.orElse_eq_or, Option.or_eq_some_iff] at h
  obtain h | ⟨-, h⟩ := h
  · exact .inl (List.mem_of_find?_eq_some h)
  · exact .inr (List.mem_of_find?_eq_some h)

/-- A declared field is the one that its number finds. -/
theorem Loaded.field?_of_declared (hp : p.Loaded) (hf : f ∈ (p.messageType type).declared) :
    (p.messageType type).field? f.number = some f := by
  unfold MessageType.field?
  cases h : (p.messageType type).declared.find? (·.number == f.number) with
  | none => exact absurd (List.find?_eq_none.1 h f hf) (by simp)
  | some g =>
    have hnumbers := (hp.wellFormed_messageType type).numbers
    rw [List.inj_on_of_nodup_map hnumbers (List.mem_of_find?_eq_some h) hf
      (by simpa using List.find?_some h)]

theorem field?_of_messageType (h : (p.messageType type).field? number = some f) :
    p.field? type number = some f := by
  rw [field?, h]
  rfl

theorem mem_fields_of_declared (hf : f ∈ (p.messageType type).declared) : f ∈ p.fields := by
  refine List.mem_append_left _ (List.mem_flatMap.2 ?_)
  unfold messageType at hf
  cases ht : p.referredMessage? type with
  | some t =>
    rw [ht] at hf
    exact ⟨t, List.mem_of_find?_eq_some ht, hf⟩
  | none =>
    rw [ht] at hf
    cases hf

theorem mem_fields_of_field? (hf : p.field? type number = some f) : f ∈ p.fields := by
  obtain ⟨hf | hf, -⟩ := field?_eq_some hf
  · exact mem_fields_of_declared hf
  · obtain ⟨x, hx, rfl⟩ := List.mem_map.1 hf
    exact List.mem_append_right _ (List.mem_map_of_mem (List.mem_of_mem_filter hx))

/-- A pool is compiled, as can be seen in its definitions. -/
def isCompiled (p : Pool) : Bool :=
  p.messages.all (fun t => !t.isMapEntry || (t.hasEntry &&
    (t.declared ++ p.extensionsOf t.fullName).all fun f => f.number == 1 || f.number == 2)) &&
  p.fields.all (fun f => !f.isRepeated || !f.hasPresence) &&
  decide (p.extensions.Pairwise fun x y => x.extendee = y.extendee → x.field.number ≠ y.field.number) &&
  p.extensions.all fun x => ((p.messageType x.extendee).field? x.field.number).isNone

theorem compiled_of_isCompiled (hp : p.Loaded) (h : p.isCompiled = true) : p.Compiled := by
  simp only [isCompiled, Bool.and_eq_true, List.all_eq_true, decide_eq_true_eq] at h
  obtain ⟨⟨⟨hentries, hlists⟩, hextensions⟩, hextended⟩ := h
  refine ⟨hp, fun t ht hentry => ?_, fun f hf hrepeated => ?_, hextensions,
    fun x hx => Option.isNone_iff_eq_none.1 (hextended x hx)⟩
  · have h := hentries t ht
    rw [hentry, Bool.not_true, Bool.false_or, Bool.and_eq_true, List.all_eq_true] at h
    exact ⟨MessageType.exists_hasEntry h.1, fun f hf => by simpa using h.2 f hf⟩
  · have h := hlists f hf
    rw [hrepeated] at h
    simpa using h

/-- A list does not tell being unset from being empty. -/
theorem Compiled.hasPresence_of_isRepeated (hp : p.Compiled) (hf : p.field? type number = some f)
    (h : f.isRepeated = true) : f.hasPresence = false :=
  hp.lists f (mem_fields_of_field? hf) h

/-- An extension is the field that its number finds. -/
theorem Compiled.field?_of_extension (hp : p.Compiled) {x : Extension} (hx : x ∈ p.extensions) :
    p.field? x.extendee x.field.number = some x.field := by
  have hpairwise : ((p.extensionsOf x.extendee).map (·.number)).Nodup := by
    unfold extensionsOf
    rw [List.map_map, List.nodup_iff_pairwise_ne, List.pairwise_map]
    refine (hp.extensions.filter _).imp_of_mem fun ha hb h => ?_
    exact h ((beq_iff_eq.1 (List.mem_filter.1 ha).2).trans
      (beq_iff_eq.1 (List.mem_filter.1 hb).2).symm)
  have hmem : x.field ∈ p.extensionsOf x.extendee :=
    List.mem_map_of_mem (List.mem_filter.2 ⟨hx, beq_self_eq_true _⟩)
  rw [field?, hp.extended x hx, Option.orElse_eq_orElse, Option.orElse_eq_or, Option.none_or]
  cases h : (p.extensionsOf x.extendee).find? (·.number == x.field.number) with
  | none => exact absurd (List.find?_eq_none.1 h _ hmem) (by simp)
  | some g =>
    rw [List.inj_on_of_nodup_map hpairwise (List.mem_of_find?_eq_some h) hmem
      (by simpa using List.find?_some h)]

/-- The field that a key names is found by its number too. -/
theorem Compiled.field?_of_fieldOfKey? (hp : p.Compiled) (h : p.fieldOfKey? type key = some f) :
    p.field? type f.number = some f := by
  obtain hf | hf := Message.mem_of_fieldOfKey? h
  · exact field?_of_messageType (hp.loaded.field?_of_declared hf)
  · obtain ⟨x, hx, rfl⟩ := List.mem_map.1 hf
    obtain ⟨hx, hextendee⟩ := List.mem_filter.1 hx
    rw [beq_iff_eq] at hextendee
    exact hextendee ▸ hp.field?_of_extension hx

/-- The number of a field stands in a oneof exactly if the field does. -/
theorem Loaded.mem_oneofNumbers_iff (hp : p.Loaded) (hf : p.field? type number = some f) {i : Nat} :
    number ∈ (p.messageType type).oneofNumbers i ↔ f.oneofIndex = some i := by
  obtain ⟨hmem, rfl⟩ := field?_eq_some hf
  constructor
  · intro h
    obtain ⟨g, hg, hnumber⟩ := List.mem_map.1 h
    obtain ⟨hg, hi⟩ := List.mem_filter.1 hg
    rw [beq_iff_eq] at hi
    have hfound := field?_of_messageType (hp.field?_of_declared hg)
    rw [hnumber, hf] at hfound
    exact Option.some.inj hfound ▸ hi
  · intro hi
    obtain hmem | hmem := hmem
    · exact List.mem_map.2 ⟨f, List.mem_filter.2 ⟨hmem, beq_iff_eq.2 hi⟩, rfl⟩
    · rw [Message.oneofIndex_of_extension hp hmem] at hi
      cases hi

/-! ## Maps -/

theorem mapEntry?_eq_some (h : p.mapEntry? f = some entry) :
    f.isRepeated = true ∧ p.referredMessage? f.kind.name = some entry ∧
      entry.isMapEntry = true ∧ f.kind.isPackable = false := by
  unfold mapEntry? at h
  split at h
  next name hrepeated hkind =>
    obtain ⟨h, hentry⟩ := Option.filter_eq_some_iff.1 h
    rw [hkind]
    exact ⟨hrepeated, h, hentry, rfl⟩
  next name hrepeated hkind =>
    obtain ⟨h, hentry⟩ := Option.filter_eq_some_iff.1 h
    rw [hkind]
    exact ⟨hrepeated, h, hentry, rfl⟩
  next => cases h

theorem mapEntry?_of_single (h : f.isRepeated = false) : p.mapEntry? f = none := by
  unfold mapEntry?
  rw [h]

theorem messageType_of_mapEntry? (h : p.mapEntry? f = some entry) :
    p.messageType f.kind.name = entry ∧ entry.fullName = f.kind.name := by
  obtain ⟨-, hfind, -⟩ := mapEntry?_eq_some h
  refine ⟨?_, by simpa using List.find?_some hfind⟩
  rw [messageType, hfind]
  rfl

theorem Compiled.isEntry (hp : p.Compiled) (h : p.mapEntry? f = some entry) : entry.IsEntry p := by
  obtain ⟨-, hfind, hentry, -⟩ := mapEntry?_eq_some h
  exact hp.entries entry (List.mem_of_find?_eq_some hfind) hentry

/-- The shape of a map says what its entries hold. -/
theorem shape_of_map {g h : Field} {s : Scalar} (hentry : p.mapEntry? f = some entry)
    (hfields : entry.HasEntry g s h) : p.shape f = .map (.scalar s) h.kind := by
  rw [shape, hentry]
  simp only [hfields.key, hfields.value, hfields.kind, Option.map_some, Option.getD_some]

theorem shape_of_single (h : f.isRepeated = false) : p.shape f = .one f.kind := by
  rw [shape, mapEntry?_of_single h]
  simp [h]

theorem shape_of_list (h : f.isRepeated = true) (hmap : p.mapEntry? f = none) :
    p.shape f = .list f.kind := by
  rw [shape, hmap]
  simp [h]

theorem mapEntry?_of_shape_map {key value : Kind} (h : p.shape f = .map key value) :
    ∃ entry, p.mapEntry? f = some entry := by
  cases hentry : p.mapEntry? f with
  | some entry => exact ⟨entry, rfl⟩
  | none =>
    cases hrepeated : f.isRepeated with
    | true =>
      rw [shape_of_list hrepeated hentry] at h
      cases h
    | false =>
      rw [shape_of_single hrepeated] at h
      cases h

theorem list_of_shape {k : Kind} (h : p.shape f = .list k) :
    f.isRepeated = true ∧ p.mapEntry? f = none ∧ f.kind = k := by
  cases hentry : p.mapEntry? f with
  | some entry =>
    rw [shape, hentry] at h
    cases h
  | none =>
    cases hrepeated : f.isRepeated with
    | true =>
      rw [shape_of_list hrepeated hentry] at h
      cases h
      exact ⟨rfl, rfl, rfl⟩
    | false =>
      rw [shape_of_single hrepeated] at h
      cases h

theorem fieldDefault_of_single (h : f.isRepeated = false) :
    p.fieldDefault f = f.declaredDefault.getD (p.kindDefault f.kind) := by
  rw [fieldDefault, isMap, mapEntry?_of_single h, h]
  cases f.declaredDefault <;> rfl

theorem fieldDefault_of_list (h : f.isRepeated = true) (hmap : p.mapEntry? f = none) :
    p.fieldDefault f = .list [] := by
  simp [fieldDefault, isMap, hmap, h]

theorem fieldDefault_of_map (h : p.mapEntry? f = some entry) : p.fieldDefault f = .map [] := by
  simp [fieldDefault, isMap, h]

end Pool

end ServiceCall
