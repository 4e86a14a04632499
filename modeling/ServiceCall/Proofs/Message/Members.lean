import ServiceCall.Message.Json.Write
import ServiceCall.Proofs.Message.Fits
/-!
# The members that a message is written as

A message is written as one member for each of its fields that is set, extensions last, and one
for each other field that does not tell being unset apart (`Message.toMembers_eq_ok`). What stands
under the name of a field is the JSON form of its value, set or not (`Message.mem_toMembers_iff`).

So it is written as the members of all fields that it shows (`Message.Shows`): those that are set, and
of the type's own fields also those that do not tell being unset apart. What stands under the key of a
field that is shown is the JSON form of its value, and nothing else is written
(`Message.mem_toMembers`). A message has a form if the values of all fields that it shows have one
(`Message.exists_toMembers`).
-/

namespace ServiceCall

namespace Message

variable {p : Pool} {payload : PayloadWriter}

/-- The field that a number stands for and the key that it is written under, if it is written with
the type's own fields, or else with its extensions. -/
def written? (p : Pool) (type : String) (extending : Bool) (x : Nat × Value) :
    Option (Field × String) :=
  match (p.messageType type).field? x.1 with
  | some f => if extending then none else some (f, f.name)
  | none => ((p.extensionsOf type).find? (·.number == x.1)).bind fun f =>
      if extending && (f.hasPresence || !f.isDefault p x.2) then some (f, Pool.extensionKey f)
      else none

/-- The member of a field. -/
def memberJson (p : Pool) (payload : PayloadWriter) (f : Field) (key : String) (v : Value) :
    Except MappingFault (String × Json) :=
  (key, ·) <$> valueToJson p payload f.kind (mapValueKind p f) v

/-- The fields that are set with their keys, as they are written. -/
def written (p : Pool) (type : String) (extending : Bool) (fields : List (Nat × Value)) :
    List (Field × String × Value) :=
  fields.filterMap fun x => (written? p type extending x).map fun (f, key) => (f, key, x.2)

theorem written_cons (type : String) (extending : Bool) (x : Nat × Value)
    (rest : List (Nat × Value)) :
    written p type extending (x :: rest) =
      match written? p type extending x with
      | some (f, key) => (f, key, x.2) :: written p type extending rest
      | none => written p type extending rest := by
  rw [written, List.filterMap_cons]
  cases written? p type extending x <;> rfl

/-- What is written of fields that are set is a member for each of them that is written. -/
theorem fieldMembers_eq (type : String) (extending : Bool) (fields : List (Nat × Value)) :
    fieldMembers p payload type extending fields =
      (written p type extending fields).mapM fun x => memberJson p payload x.1 x.2.1 x.2.2 := by
  have hcons (f : Field) (key : String) (v : Value) (rest : Except MappingFault Members) :
      (do return (key, ← valueToJson p payload f.kind (mapValueKind p f) v) :: (← rest)) =
        (do return (← memberJson p payload f key v) :: (← rest)) := by
    rw [memberJson]
    cases valueToJson p payload f.kind (mapValueKind p f) v <;> rfl
  induction fields with
  | nil => rfl
  | cons x rest ih =>
    obtain ⟨number, v⟩ := x
    rw [fieldMembers, written_cons, written?]
    cases (p.messageType type).field? number with
    | some f =>
      cases extending with
      | true => exact ih
      | false =>
        simp only [Bool.false_eq_true, if_false, List.mapM_cons, ← ih]
        exact hcons f f.name v _
    | none =>
      cases (p.extensionsOf type).find? (·.number == number) with
      | none => exact ih
      | some f =>
        simp only [Option.bind_some]
        split
        · simp only [List.mapM_cons, ← ih]
          exact hcons f (Pool.extensionKey f) v _
        · exact ih

theorem toMembers_eq_ok {m : Message} {ms : Members} :
    toMembers p payload m = .ok ms ↔ ∃ set,
      (written p m.type false m.fields ++ written p m.type true m.fields).mapM
        (fun x => memberJson p payload x.1 x.2.1 x.2.2) = .ok set ∧
      ms = defaultMembers p m.type m.fields ++ set := by
  obtain ⟨type, fields, unknown⟩ := m
  rw [toMembers, fieldMembers_eq, fieldMembers_eq, List.mapM_append]
  simp only [Except.bind_eq_ok, Except.pure_eq_ok]
  constructor
  · rintro ⟨own, hown, extending, hextending, rfl⟩
    exact ⟨_, ⟨own, hown, extending, hextending, rfl⟩, List.append_assoc ..⟩
  · rintro ⟨-, ⟨own, hown, extending, hextending, rfl⟩, rfl⟩
    exact ⟨own, hown, extending, hextending, List.append_assoc ..⟩

/-! ## Fields of the type itself -/

variable {type : String} {fields : List (Nat × Value)} {f : Field} {key : String} {v : Value}

theorem mem_written_own (hp : p.Loaded) :
    (f, key, v) ∈ written p type false fields ↔
      f ∈ (p.messageType type).declared ∧ key = f.name ∧ (f.number, v) ∈ fields := by
  simp only [written, List.mem_filterMap, Option.map_eq_some_iff, written?]
  constructor
  · rintro ⟨⟨n, w⟩, hx, ⟨g, k⟩, hg, he⟩
    obtain ⟨rfl, rfl, rfl⟩ : g = f ∧ k = key ∧ w = v := by simpa using he
    split at hg
    next h hh =>
      obtain ⟨rfl, rfl⟩ := Prod.mk.inj (Option.some.inj hg)
      have hnumber : h.number = n := by simpa using List.find?_some hh
      exact ⟨List.mem_of_find?_eq_some hh, rfl, hnumber ▸ hx⟩
    next => simp at hg
  · rintro ⟨hf, rfl, hx⟩
    refine ⟨(f.number, v), hx, (f, f.name), ?_, rfl⟩
    simp [hp.field?_of_declared hf]

theorem key_of_mem_written_extending (h : (f, key, v) ∈ written p type true fields) :
    f ∈ p.extensionsOf type ∧ key = Pool.extensionKey f := by
  simp only [written, List.mem_filterMap, Option.map_eq_some_iff, written?] at h
  obtain ⟨⟨n, w⟩, hx, ⟨g, k⟩, hg, he⟩ := h
  obtain ⟨rfl, rfl, rfl⟩ : g = f ∧ k = key ∧ w = v := by simpa using he
  split at hg
  next => simp at hg
  next =>
    obtain ⟨h, hh, hg⟩ := Option.bind_eq_some_iff.1 hg
    split_ifs at hg
    obtain ⟨rfl, rfl⟩ := Prod.mk.inj (Option.some.inj hg)
    exact ⟨List.mem_of_find?_eq_some hh, rfl⟩

/-- A value that is no message, list or map is written as its kind is. -/
theorem valueToJson_of_holds {k mapped : Kind} (h : k.Holds v) :
    valueToJson p payload k mapped v = .ok (scalarToJson p k v) := by
  cases v with
  | record m => exact absurd h Kind.not_holds_record
  | list items => exact absurd h Kind.not_holds_list
  | map entries => exact absurd h Kind.not_holds_map
  | _ => rfl

/-- The default of a field that does not tell being unset apart is written like any other value. -/
theorem valueToJson_fieldDefault (hp : p.Loaded) (hf : f.WellFormed)
    (hpresence : f.hasPresence = false) :
    valueToJson p payload f.kind (mapValueKind p f) (p.fieldDefault f) =
      .ok (defaultToJson p f) := by
  have hleaf {v : Value} (hv : f.kind.Holds v) (hdefault : p.fieldDefault f = v) :
      valueToJson p payload f.kind (mapValueKind p f) (p.fieldDefault f) =
        .ok (defaultToJson p f) := by
    rw [defaultToJson, hdefault, valueToJson_of_holds hv]
    cases v with
    | list items => exact absurd hv Kind.not_holds_list
    | map entries => exact absurd hv Kind.not_holds_map
    | _ => rfl
  cases hmap : p.isMap f with
  | true => simp [Pool.fieldDefault, defaultToJson, hmap, valueToJson, entriesToJson]; rfl
  | false =>
    cases hrepeated : f.isRepeated with
    | true => simp [Pool.fieldDefault, defaultToJson, hmap, hrepeated, valueToJson, itemsToJson]
    | false =>
      cases hdefault : f.declaredDefault with
      | some v => exact hleaf (hf.default v hdefault) (by simp [Pool.fieldDefault, *])
      | none =>
        have hkind : p.fieldDefault f = p.kindDefault f.kind := by simp [Pool.fieldDefault, *]
        refine hleaf ?_ hkind
        have hrecord (name : String) : ¬(f.kind = .message name ∨ f.kind = .group name) := by
          intro hk
          rw [hf.presence name hk hrepeated] at hpresence
          cases hpresence
        cases hk : f.kind with
        | scalar s => exact s.holds_fallback
        | enumeration name => exact Pool.holds_kindDefault hp name
        | message name => exact absurd (.inl hk) (hrecord name)
        | group name => exact absurd (.inr hk) (hrecord name)

/-- Under the name of a field of the type stands the JSON form of its value, if the field is set or
does not tell being unset apart. -/
theorem mem_toMembers_iff (hp : p.Loaded) {m : Message} {ms : Members}
    (hascending : m.fields.Pairwise fun a b => a.1 < b.1) (h : toMembers p payload m = .ok ms)
    (hf : f ∈ (p.messageType m.type).declared)
    (hapart : ∀ g ∈ p.extensionsOf m.type, Pool.extensionKey g ≠ f.name) {j : Json} :
    (f.name, j) ∈ ms ↔ (m.has p f = true ∨ f.hasPresence = false) ∧
      valueToJson p payload f.kind (mapValueKind p f) (m.value p f) = .ok j := by
  obtain ⟨set, hset, rfl⟩ := toMembers_eq_ok.1 h
  have hname {g : Field} (hg : g ∈ (p.messageType m.type).declared) (he : g.name = f.name) :
      g = f := List.inj_on_of_nodup_map (hp.nodup_name m.type) hg hf he
  have hdefault : (f.name, j) ∈ defaultMembers p m.type m.fields ↔
      f.hasPresence = false ∧ m.get? f.number = none ∧ defaultToJson p f = j := by
    simp only [defaultMembers, List.mem_map, List.mem_filter, Prod.mk.injEq, Bool.and_eq_true,
      Bool.not_eq_true', Option.isNone_iff_eq_none, MessageType.mem_fields]
    constructor
    · rintro ⟨g, ⟨hg, hpresence, hunset⟩, he, rfl⟩
      obtain rfl := hname hg he
      exact ⟨hpresence, hunset, rfl⟩
    · rintro ⟨hpresence, hunset, rfl⟩
      exact ⟨f, ⟨hf, hpresence, hunset⟩, rfl, rfl⟩
  have hwritten : (f.name, j) ∈ set ↔ ∃ v, m.get? f.number = some v ∧
      valueToJson p payload f.kind (mapValueKind p f) v = .ok j := by
    have hmember := List.mapM_eq_ok.1 hset
    constructor
    · intro hmem
      obtain ⟨⟨g, key, v⟩, hg, hv⟩ := hmember.exists_left hmem
      obtain ⟨i, hi, he⟩ := Except.fmap_eq_ok.1 hv
      obtain ⟨rfl, rfl⟩ := Prod.mk.inj he
      obtain hg | hg := List.mem_append.1 hg
      · obtain ⟨hdeclared, he, hset⟩ := (mem_written_own hp).1 hg
        obtain rfl := hname hdeclared he.symm
        exact ⟨v, (numbered?_eq_some_iff hascending).2 hset, hi⟩
      · obtain ⟨hextension, he⟩ := key_of_mem_written_extending hg
        exact absurd he.symm (hapart g hextension)
    · rintro ⟨v, hv, hj⟩
      have hg := (mem_written_own hp).2 ⟨hf, rfl, (numbered?_eq_some_iff hascending).1 hv⟩
      obtain ⟨x, hx, he⟩ := hmember.exists_right (List.mem_append_left _ hg)
      obtain ⟨i, hi, rfl⟩ := Except.fmap_eq_ok.1 he
      rwa [Except.ok.inj (hj.symm.trans hi)]
  have hwf := (hp.wellFormed_messageType m.type).fields f hf
  rw [List.mem_append, hdefault, hwritten, has, value]
  cases hget : m.get? f.number with
  | some v =>
    simp only [reduceCtorEq, false_and, and_false, Option.some.injEq, exists_eq_left', false_or,
      Option.getD_some, iff_and_self, Bool.or_eq_true]
    intro _
    cases f.hasPresence <;> simp
  | none =>
    simp only [true_and, reduceCtorEq, false_and, exists_false, or_false, Bool.false_eq_true,
      false_or, Option.getD_none]
    refine and_congr_right fun hpresence => ?_
    rw [valueToJson_fieldDefault hp hwf hpresence, Except.ok.injEq]

/-- A field that is set, or that does not tell being unset apart, has a JSON form if the message has
one. -/
theorem exists_valueToJson_of_toMembers (hp : p.Loaded) {m : Message} {ms : Members}
    (hascending : m.fields.Pairwise fun a b => a.1 < b.1) (h : toMembers p payload m = .ok ms)
    (hf : f ∈ (p.messageType m.type).declared)
    (hshown : m.has p f = true ∨ f.hasPresence = false) :
    ∃ j, valueToJson p payload f.kind (mapValueKind p f) (m.value p f) = .ok j := by
  obtain ⟨set, hset, rfl⟩ := toMembers_eq_ok.1 h
  rw [value]
  cases hget : m.get? f.number with
  | some v =>
    have hg := (mem_written_own hp).2 ⟨hf, rfl, (numbered?_eq_some_iff hascending).1 hget⟩
    obtain ⟨x, -, he⟩ := (List.mapM_eq_ok.1 hset).exists_right (List.mem_append_left _ hg)
    obtain ⟨j, hj, -⟩ := Except.fmap_eq_ok.1 he
    exact ⟨j, hj⟩
  | none =>
    have hpresence := hshown.resolve_left (by simp [has, hget])
    exact ⟨_, valueToJson_fieldDefault hp ((hp.wellFormed_messageType m.type).fields f hf) hpresence⟩

end Message

/-! ## What a message shows -/

/-- The key that a field of a type is written under. -/
inductive Pool.Writes (p : Pool) (type : String) : Field → String → Prop where
  | own {f : Field} (hf : f ∈ (p.messageType type).declared) : Pool.Writes p type f f.name
  | extension {f : Field} (hf : f ∈ p.extensionsOf type) :
      Pool.Writes p type f (Pool.extensionKey f)

/-- A field of a message is set, or it is one of the type's own and does not tell being unset
apart. -/
def Message.Shows (p : Pool) (m : Message) (f : Field) : Prop :=
  m.has p f = true ∨ f ∈ (p.messageType m.type).declared ∧ f.hasPresence = false

variable {p : Pool} {f : Field} {type key : String}

/-- A field that is written under a key is found by its number. -/
theorem Pool.Writes.field? (hp : p.Compiled) (h : p.Writes type f key) :
    p.field? type f.number = some f := by
  cases h with
  | own hf => exact Pool.field?_of_messageType (hp.loaded.field?_of_declared hf)
  | extension hf =>
    obtain ⟨x, hx, rfl⟩ := List.mem_map.1 hf
    obtain ⟨hx, hextendee⟩ := List.mem_filter.1 hx
    rw [beq_iff_eq] at hextendee
    exact hextendee ▸ hp.field?_of_extension hx

/-- An extension has none of the numbers of the fields of the type itself. -/
theorem Pool.Compiled.messageType_field?_of_extension (hp : p.Compiled)
    (hf : f ∈ p.extensionsOf type) : (p.messageType type).field? f.number = none := by
  obtain ⟨x, hx, rfl⟩ := List.mem_map.1 hf
  obtain ⟨hx, hextendee⟩ := List.mem_filter.1 hx
  rw [beq_iff_eq] at hextendee
  exact hextendee ▸ hp.extended x hx

namespace Message

variable {payload : PayloadWriter} {m : Message} {ms : Members} {fields : List (Nat × Value)}
  {v : Value} {j : Json}

theorem mem_written_extending (hp : p.Compiled) :
    (f, key, v) ∈ written p type true fields ↔
      f ∈ p.extensionsOf type ∧ key = Pool.extensionKey f ∧ (f.number, v) ∈ fields ∧
        (f.hasPresence || !f.isDefault p v) = true := by
  have hfind (hf : f ∈ p.extensionsOf type) :
      (p.extensionsOf type).find? (·.number == f.number) = some f := by
    have h := (Pool.Writes.extension hf).field? hp
    rwa [Pool.field?, hp.messageType_field?_of_extension hf, Option.orElse_eq_orElse,
      Option.orElse_eq_or, Option.none_or] at h
  simp only [written, List.mem_filterMap, Option.map_eq_some_iff, written?]
  constructor
  · rintro ⟨⟨n, w⟩, hx, ⟨g, k⟩, hg, he⟩
    obtain ⟨rfl, rfl, rfl⟩ : g = f ∧ k = key ∧ w = v := by simpa using he
    split at hg
    next => simp at hg
    next =>
      obtain ⟨h, hh, hg⟩ := Option.bind_eq_some_iff.1 hg
      split_ifs at hg with hshown
      obtain ⟨rfl, rfl⟩ := Prod.mk.inj (Option.some.inj hg)
      have hnumber : h.number = n := by simpa using List.find?_some hh
      exact ⟨List.mem_of_find?_eq_some hh, rfl, hnumber ▸ hx, by simpa using hshown⟩
  · rintro ⟨hf, rfl, hx, hshown⟩
    refine ⟨(f.number, v), hx, (f, Pool.extensionKey f), ?_, rfl⟩
    simp only [hp.messageType_field?_of_extension hf, hfind hf, Option.bind_some, Bool.true_and,
      if_pos hshown]

/-- What is written of a message by the default of a field. -/
theorem mem_defaultMembers : (key, j) ∈ defaultMembers p type fields ↔
    ∃ f ∈ (p.messageType type).declared, key = f.name ∧ f.hasPresence = false ∧
      numbered? f.number fields = none ∧ defaultToJson p f = j := by
  simp only [defaultMembers, List.mem_map, List.mem_filter, Prod.mk.injEq, Bool.and_eq_true,
    Bool.not_eq_true', Option.isNone_iff_eq_none, MessageType.mem_fields]
  constructor
  · rintro ⟨f, ⟨hf, hpresence, hunset⟩, rfl, rfl⟩
    exact ⟨f, hf, rfl, hpresence, hunset, rfl⟩
  · rintro ⟨f, hf, rfl, hpresence, hunset, rfl⟩
    exact ⟨f, ⟨hf, hpresence, hunset⟩, rfl, rfl⟩

/-- A field that is set is written exactly if it is shown. -/
theorem mem_written (hp : p.Compiled) (hascending : m.fields.Pairwise fun a b => a.1 < b.1) :
    (f, key, v) ∈ written p m.type false m.fields ++ written p m.type true m.fields ↔
      p.Writes m.type f key ∧ m.Shows p f ∧ m.get? f.number = some v := by
  rw [List.mem_append, mem_written_own hp.loaded, mem_written_extending hp,
    ← numbered?_eq_some_iff hascending]
  constructor
  · rintro (⟨hf, rfl, hv⟩ | ⟨hf, rfl, hv, hshown⟩)
    · refine ⟨.own hf, ?_, hv⟩
      cases hpresence : f.hasPresence with
      | true => exact .inl (by simp [has, get?, hv, hpresence])
      | false => exact .inr ⟨hf, hpresence⟩
    · exact ⟨.extension hf, .inl (by simpa [has, get?, hv] using hshown), hv⟩
  · rintro ⟨hwrites, hshown, hv⟩
    cases hwrites with
    | own hf => exact .inl ⟨hf, rfl, hv⟩
    | extension hf =>
      refine .inr ⟨hf, rfl, hv, ?_⟩
      obtain hset | ⟨hdeclared, -⟩ := hshown
      · simpa [has, hv] using hset
      · have hown := hp.loaded.field?_of_declared hdeclared
        rw [hp.messageType_field?_of_extension hf] at hown
        cases hown

/-- Under the key of each field that is shown stands the JSON form of its value, and nothing else is
written. -/
theorem mem_toMembers (hp : p.Compiled) (hascending : m.fields.Pairwise fun a b => a.1 < b.1)
    (h : toMembers p payload m = .ok ms) : (key, j) ∈ ms ↔
      ∃ f, p.Writes m.type f key ∧ m.Shows p f ∧
        valueToJson p payload f.kind (mapValueKind p f) (m.value p f) = .ok j := by
  obtain ⟨set, hset, rfl⟩ := toMembers_eq_ok.1 h
  have hmember := List.mapM_eq_ok.1 hset
  have hdefault {f : Field} (hf : f ∈ (p.messageType m.type).declared)
      (hpresence : f.hasPresence = false) (hunset : m.get? f.number = none) :
      valueToJson p payload f.kind (mapValueKind p f) (m.value p f) = .ok (defaultToJson p f) := by
    rw [value, hunset, Option.getD_none]
    exact valueToJson_fieldDefault hp.loaded
      ((hp.loaded.wellFormed_messageType m.type).fields f hf) hpresence
  rw [List.mem_append, mem_defaultMembers]
  constructor
  · rintro (⟨f, hf, rfl, hpresence, hunset, rfl⟩ | hmem)
    · exact ⟨f, .own hf, .inr ⟨hf, hpresence⟩, hdefault hf hpresence hunset⟩
    · obtain ⟨⟨f, k, v⟩, hx, hv⟩ := hmember.exists_left hmem
      obtain ⟨i, hi, he⟩ := Except.fmap_eq_ok.1 hv
      obtain ⟨rfl, rfl⟩ := Prod.mk.inj he
      obtain ⟨hwrites, hshown, hget⟩ := (mem_written hp hascending).1 hx
      refine ⟨f, hwrites, hshown, ?_⟩
      rwa [value, hget]
  · rintro ⟨f, hwrites, hshown, hj⟩
    cases hget : m.get? f.number with
    | some v =>
      rw [value, hget] at hj
      obtain ⟨x, hx, he⟩ :=
        hmember.exists_right ((mem_written hp hascending).2 ⟨hwrites, hshown, hget⟩)
      obtain ⟨i, hi, rfl⟩ := Except.fmap_eq_ok.1 he
      obtain rfl := Except.ok.inj (hj.symm.trans hi)
      exact .inr hx
    | none =>
      obtain hset | ⟨hf, hpresence⟩ := hshown
      · simp [has, hget] at hset
      · rw [hdefault hf hpresence hget] at hj
        refine .inl ⟨f, hf, ?_, hpresence, hget, Except.ok.inj hj⟩
        cases hwrites with
        | own => rfl
        | extension hextension =>
          have hown := hp.loaded.field?_of_declared hf
          rw [hp.messageType_field?_of_extension hextension] at hown
          cases hown

/-- A message has a JSON form if the values of all fields that it shows have one. -/
theorem exists_toMembers (hp : p.Compiled) (hascending : m.fields.Pairwise fun a b => a.1 < b.1)
    (h : ∀ f key, p.Writes m.type f key → m.Shows p f →
      ∃ j, valueToJson p payload f.kind (mapValueKind p f) (m.value p f) = .ok j) :
    ∃ ms, toMembers p payload m = .ok ms := by
  have hmember : ∀ x ∈ written p m.type false m.fields ++ written p m.type true m.fields,
      ∃ y, memberJson p payload x.1 x.2.1 x.2.2 = .ok y := by
    rintro ⟨f, key, v⟩ hx
    obtain ⟨hwrites, hshown, hget⟩ := (mem_written hp hascending).1 hx
    obtain ⟨j, hj⟩ := h f key hwrites hshown
    rw [value, hget] at hj
    exact ⟨(key, j), Except.fmap_eq_ok.2 ⟨j, hj, rfl⟩⟩
  obtain ⟨set, hset⟩ := List.exists_mapM_eq_ok.2 hmember
  exact ⟨_, toMembers_eq_ok.2 ⟨set, hset, rfl⟩⟩

end Message

end ServiceCall
