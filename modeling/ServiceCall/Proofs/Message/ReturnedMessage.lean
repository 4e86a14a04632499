import ServiceCall.Proofs.Message.ReturnedField
/-!
# Messages are read back from JSON

The members of a message make a message of its type that shows the same fields with what is read
back of each (`Message.Echoes`), so it is written as members that agree with the first ones
(`Message.ReturnsMembers`), also from the wire. So the message comes back, and so does one of a
well-known type (`WellKnown.Returned.returns`) and one of any type that packs another one
(`Message.exists_returns_of_value`, `Message.exists_returns_of_members`). No key may stand for two
fields (`Pool.Keyed`).
-/

namespace ServiceCall

open Wire (Raw RawRecord)

/-- Each key that a field of a type is written under names that field. -/
def Pool.Keyed (p : Pool) (type : String) : Prop :=
  ∀ f key, p.Writes type f key → p.fieldOfKey? type key = some f

variable {p : Pool} {payload : Message.PayloadWriter} {m m' : Message} {f g : Field}
  {type key key' : String} {v w : Value} {j : Json} {ms : Message.Members} {number : Nat}

namespace Pool

theorem Writes.key_eq (hp : p.Compiled) (h : p.Writes type f key) (h' : p.Writes type f key') :
    key = key' := by
  have hapart (hown : f ∈ (p.messageType type).declared) : f ∉ p.extensionsOf type := by
    intro hextension
    have hfound := hp.loaded.field?_of_declared hown
    rw [hp.messageType_field?_of_extension hextension] at hfound
    cases hfound
  cases h with
  | own hf =>
    cases h' with
    | own => rfl
    | extension hf' => exact absurd hf' (hapart hf)
  | extension hf =>
    cases h' with
    | own hf' => exact absurd hf (hapart hf')
    | extension => rfl

/-- Every field is written under a key. -/
theorem exists_writes (hf : p.field? type number = some f) : ∃ key, p.Writes type f key := by
  obtain ⟨hf | hf, -⟩ := field?_eq_some hf
  · exact ⟨_, .own hf⟩
  · exact ⟨_, .extension hf⟩

/-- An extension that is no list tells being unset apart. -/
theorem hasPresence_of_extension (hp : p.Loaded) (hf : f ∈ p.extensionsOf type)
    (hsingle : f.isRepeated = false) : f.hasPresence = true := by
  obtain ⟨files, hp⟩ := hp
  obtain ⟨x, hx, rfl⟩ := List.mem_map.1 hf
  exact (hp.origin.extensions x (List.mem_of_mem_filter hx)).presence hsingle

/-- No message stands in the default of a field that does not tell being unset apart. -/
theorem nesting_fieldDefault (hp : p.Loaded) (hf : f.WellFormed)
    (hpresence : f.hasPresence = false) : (p.fieldDefault f).nesting = 0 := by
  cases hrepeated : f.isRepeated with
  | true =>
    cases hmap : p.mapEntry? f with
    | none =>
      rw [fieldDefault_of_list hrepeated hmap]
      rfl
    | some entry =>
      rw [fieldDefault_of_map hmap]
      rfl
  | false =>
    have hkind (name : String) : ¬(f.kind = .message name ∨ f.kind = .group name) := fun hk => by
      rw [hf.presence name hk hrepeated] at hpresence
      cases hpresence
    obtain ⟨v, hv⟩ : ∃ v, f.kind.Holds v := by
      cases hk : f.kind with
      | scalar s => exact ⟨_, s.holds_fallback⟩
      | enumeration name => exact ⟨.integer 0, rfl⟩
      | message name => exact absurd (.inl hk) (hkind name)
      | group name => exact absurd (.inr hk) (hkind name)
    exact Kind.nesting_of_holds (Field.holds_fieldDefault hp hf hrepeated hv)

end Pool

namespace Message

/-! ## Shown fields -/

theorem exists_get?_of_has (h : m.has p f = true) : ∃ v, m.get? f.number = some v := by
  rw [has_eq] at h
  cases hget : m.get? f.number with
  | some v => exact ⟨v, rfl⟩
  | none =>
    rw [hget] at h
    cases h

/-- What a field that is shown holds: it is set, or has its default. -/
theorem Shows.get?_or (h : m.Shows p f) :
    (∃ v, m.get? f.number = some v) ∨ m.get? f.number = none ∧ f.hasPresence = false := by
  cases hget : m.get? f.number with
  | some v => exact .inl ⟨v, rfl⟩
  | none =>
    refine .inr ⟨rfl, (h.resolve_left fun hset => ?_).2⟩
    obtain ⟨v, hv⟩ := exists_get?_of_has hset
    exact absurd (hget.symm.trans hv) (by simp)

/-- A message is nested no deeper than its fields. -/
theorem nesting_le_of_forall (hm : m.Fits p) (hunknown : m.unknown = []) {depth : Nat}
    (h : ∀ f v, p.field? m.type f.number = some f → m.get? f.number = some v →
      v.nesting ≤ depth) : m.nesting ≤ depth := by
  obtain ⟨type, fields, unknown⟩ := m
  obtain rfl : unknown = [] := hunknown
  refine Nat.max_le.2 ⟨nestingOfFields_le fun x hx => ?_, Nat.zero_le _⟩
  have hget := (numbered?_eq_some_iff hm.ascending).2 hx
  obtain ⟨f, hf, hnumber⟩ := hm.exists_field (n := x.1) hget
  exact h f x.2 hf (hnumber ▸ hget)

theorem value_of_get? (hget : m.get? f.number = some v) : m.value p f = v := by
  rw [value, hget]
  rfl

theorem value_of_unset (hget : m.get? f.number = none) : m.value p f = p.fieldDefault f := by
  rw [value, hget]
  rfl

/-- A field that is shown holds no message that is nested deeper than the whole. -/
theorem Shows.nesting_le (hp : p.Loaded) (hf : f.WellFormed) (h : m.Shows p f) :
    (m.value p f).nesting ≤ m.nesting := by
  obtain ⟨v, hget⟩ | ⟨hget, hpresence⟩ := h.get?_or
  · rw [value_of_get? hget]
    exact nesting_le_of_get? hget
  · rw [value_of_unset hget, Pool.nesting_fieldDefault hp hf hpresence]
    exact Nat.zero_le _

/-- The messages in a field that is shown were set. -/
theorem Shows.get?_of_encloses (hp : p.Loaded) (hf : f.WellFormed) (h : m.Shows p f) {x : Message}
    (hx : (m.value p f).Encloses x) : ∃ v, m.get? f.number = some v ∧ v.Encloses x := by
  obtain ⟨v, hget⟩ | ⟨hget, hpresence⟩ := h.get?_or
  · exact ⟨v, hget, value_of_get? hget ▸ hx⟩
  · have hlt := hx.nesting_lt
    rw [value_of_unset hget, Pool.nesting_fieldDefault hp hf hpresence] at hlt
    exact absurd hlt (Nat.not_lt_zero _)

theorem Listed.value (hp : p.Loaded) (hm : m.Listed p) (hf : p.field? m.type f.number = some f) :
    f.Listed p (m.value p f) := by
  refine ⟨fun hrepeated => ?_, fun x hx =>
    listed_of_value (hp.wellFormed_of_field? hf) hm hx⟩
  cases hget : m.get? f.number with
  | some v =>
    rw [value_of_get? hget]
    exact (hm.field hf hget).own hrepeated
  | none =>
    rw [value_of_unset hget]
    cases hmap : p.mapEntry? f with
    | none =>
      rw [Pool.fieldDefault_of_list hrepeated hmap]
      trivial
    | some entry =>
      rw [Pool.fieldDefault_of_map hmap]
      trivial

/-- Of a oneof a message has at most one field set. -/
theorem Fits.number_eq_of_oneof (hm : m.Fits p) {i n k : Nat} (hv : m.get? n = some v)
    (hw : m.get? k = some w) (hn : n ∈ (p.messageType m.type).oneofNumbers i)
    (hk : k ∈ (p.messageType m.type).oneofNumbers i) : n = k := by
  have hmem {n : Nat} {v : Value} (hv : m.get? n = some v) : (n, v) ∈ m.fields :=
    (numbered?_eq_some_iff hm.ascending).1 hv
  replace hv := hmem hv
  replace hw := hmem hw
  cases hm with
  | mk _ _ _ honeofs _ => exact honeofs _ hv _ hw i hn hk

/-! ## Members that agree -/

/-- Two sets of members have the same keys, each of which stands for one value in either, and these
compare as equal. -/
structure MembersAlike (ms ms' : Members) : Prop where
  functional : Json.Functional ms
  functional' : Json.Functional ms'
  keys : ∀ k, k ∈ ms.map (·.1) ↔ k ∈ ms'.map (·.1)
  values : ∀ k v w, (k, v) ∈ ms → (k, w) ∈ ms' → v.Alike w

theorem MembersAlike.ofMembers {ms' : Members} (h : MembersAlike ms ms') :
    (Json.ofMembers ms).Alike (Json.ofMembers ms') :=
  Json.ofMembers_alike h.functional h.functional' h.keys h.values

theorem functional_cons {α : Type} {ms : List (String × α)} {a : α} (h : Json.Functional ms)
    (hfree : key ∉ ms.map (·.1)) : Json.Functional ((key, a) :: ms) := by
  have hnot {v : α} (hv : (key, v) ∈ ms) : False := hfree (List.mem_map_of_mem hv)
  intro k v w hv hw
  obtain hv | hv := List.mem_cons.1 hv <;> obtain hw | hw := List.mem_cons.1 hw
  · cases hv
    cases hw
    rfl
  · cases hv
    exact (hnot hw).elim
  · cases hw
    exact (hnot hv).elim
  · exact h k v w hv hw

/-- Members agree with one more. -/
theorem MembersAlike.cons {ms' : Members} (h : MembersAlike ms ms') (hfree : key ∉ ms.map (·.1))
    (j : Json) : MembersAlike ((key, j) :: ms) ((key, j) :: ms') := by
  have hfree' : key ∉ ms'.map (·.1) := fun hkey => hfree ((h.keys key).2 hkey)
  refine ⟨functional_cons h.functional hfree, functional_cons h.functional' hfree', fun k => ?_,
    fun k v w hv hw => ?_⟩
  · rw [List.map_cons, List.map_cons, List.mem_cons, List.mem_cons, h.keys]
  · obtain hv | hv := List.mem_cons.1 hv <;> obtain hw | hw := List.mem_cons.1 hw
    · cases hv
      cases hw
      exact .refl _
    · cases hv
      exact absurd (List.mem_map_of_mem hw) hfree'
    · cases hw
      exact absurd (List.mem_map_of_mem hv) hfree
    · exact h.values k v w hv hw

/-- Where each key names the field that is written under it, a key stands for one value. -/
theorem functional_toMembers (hp : p.Compiled) (hkeyed : p.Keyed m.type) (hm : m.Fits p)
    (h : toMembers p payload m = .ok ms) : Json.Functional ms := by
  intro key v w hv hw
  obtain ⟨f, hf, -, hfv⟩ := (mem_toMembers hp hm.ascending h).1 hv
  obtain ⟨g, hg, -, hgw⟩ := (mem_toMembers hp hm.ascending h).1 hw
  obtain rfl := Option.some.inj ((hkeyed f key hf).symm.trans (hkeyed g key hg))
  exact Except.ok.inj (hfv.symm.trans hgw)

/-- Each field that is shown has a member. -/
theorem exists_mem_toMembers (hp : p.Compiled) (hm : m.Fits p) (h : toMembers p payload m = .ok ms)
    (hwrites : p.Writes m.type f key) (hshown : m.Shows p f) : ∃ j, (key, j) ∈ ms := by
  suffices ∃ j, valueToJson p payload f.kind (mapValueKind p f) (m.value p f) = .ok j by
    obtain ⟨j, hj⟩ := this
    exact ⟨j, (mem_toMembers hp hm.ascending h).2 ⟨f, hwrites, hshown, hj⟩⟩
  obtain ⟨v, hget⟩ | ⟨hget, hpresence⟩ := hshown.get?_or
  · obtain ⟨set, hset, -⟩ := toMembers_eq_ok.1 h
    obtain ⟨x, -, hx⟩ := (List.mapM_eq_ok.1 hset).exists_right
      ((mem_written hp hm.ascending).2 ⟨hwrites, hshown, hget⟩)
    obtain ⟨j, hj, -⟩ := Except.fmap_eq_ok.1 hx
    exact ⟨j, value_of_get? hget ▸ hj⟩
  · rw [value_of_unset hget]
    exact ⟨_, valueToJson_fieldDefault hp.loaded
      (hp.loaded.wellFormed_of_field? (hwrites.field? hp)) hpresence⟩

/-- A message that shows the same fields as another one, with values that compare as equal, is
written as members that do. -/
theorem exists_membersAlike {payload' : PayloadWriter} (hp : p.Compiled) (hkeyed : p.Keyed m.type)
    (hm : m.Fits p) (h : toMembers p payload m = .ok ms) (hm' : m'.Fits p)
    (htype : m'.type = m.type)
    (hshows : ∀ f key, p.Writes m.type f key → (m'.Shows p f ↔ m.Shows p f))
    (hvalues : ∀ f key j, p.Writes m.type f key → m.Shows p f → (key, j) ∈ ms →
      ∃ j', valueToJson p payload' f.kind (mapValueKind p f) (m'.value p f) = .ok j' ∧ j.Alike j') :
    ∃ ms', toMembers p payload' m' = .ok ms' ∧ MembersAlike ms ms' := by
  obtain ⟨ms', hms'⟩ : ∃ ms', toMembers p payload' m' = .ok ms' := by
    refine exists_toMembers hp hm'.ascending fun f key hwrites hshown => ?_
    rw [htype] at hwrites
    replace hshown := (hshows f key hwrites).1 hshown
    obtain ⟨j, hj⟩ := exists_mem_toMembers hp hm h hwrites hshown
    obtain ⟨j', hj', -⟩ := hvalues f key j hwrites hshown hj
    exact ⟨j', hj'⟩
  have hfunctional' := functional_toMembers hp (htype ▸ hkeyed) hm' hms'
  -- What stands under a key in the one stands, up to the signs of zeros, in the other.
  have hmember {key : String} {j : Json} (hj : (key, j) ∈ ms) :
      ∃ j', (key, j') ∈ ms' ∧ j.Alike j' := by
    obtain ⟨f, hwrites, hshown, -⟩ := (mem_toMembers hp hm.ascending h).1 hj
    obtain ⟨j', hj', halike⟩ := hvalues f key j hwrites hshown hj
    exact ⟨j', (mem_toMembers hp hm'.ascending hms').2
      ⟨f, htype ▸ hwrites, (hshows f key hwrites).2 hshown, hj'⟩, halike⟩
  refine ⟨ms', hms', functional_toMembers hp hkeyed hm h, hfunctional', fun key => ⟨?_, ?_⟩,
    fun key v w hv hw => ?_⟩
  · intro hkey
    obtain ⟨⟨_, j⟩, hj, rfl⟩ := List.mem_map.1 hkey
    obtain ⟨j', hj', -⟩ := hmember hj
    exact List.mem_map.2 ⟨_, hj', rfl⟩
  · intro hkey
    obtain ⟨⟨_, j'⟩, hj', rfl⟩ := List.mem_map.1 hkey
    obtain ⟨f, hwrites, hshown, -⟩ := (mem_toMembers hp hm'.ascending hms').1 hj'
    rw [htype] at hwrites
    obtain ⟨j, hj⟩ := exists_mem_toMembers hp hm h hwrites ((hshows f _ hwrites).1 hshown)
    exact List.mem_map.2 ⟨_, hj, rfl⟩
  · obtain ⟨w', hw', halike⟩ := hmember hv
    rwa [hfunctional' key w w' hw hw']

/-! ## Members that are read back -/

theorem unknown_of_membersOfJson {passType : Bool} {members : List (String × Json)}
    (h : membersOfJson p passType m members = .ok m') : m'.unknown = m.unknown := by
  induction members generalizing m with
  | nil =>
    rw [membersOfJson] at h
    rw [← Except.ok.inj h]
  | cons x rest ih =>
    obtain ⟨key, j⟩ := x
    by_cases hkey : passType = true ∧ key = typeKey
    · rw [membersOfJson, if_pos hkey] at h
      exact ih h
    · obtain ⟨f, -, value?, -, h⟩ := (membersOfJson_cons hkey).1 h
      cases value? with
      | none => exact ih h
      | some v =>
        obtain ⟨mid, hmid, h⟩ := h
        rw [ih h, (putOnce_eq_ok.1 hmid).2, unknown_put]

/-- Members that make values of fields no longer than themselves make a message no longer than
all of them. -/
theorem length_encode_of_membersOfJson (hp : p.Compiled) {members : List (String × Json)}
    (h : membersOfJson p false m members = .ok m')
    (hlength : ∀ x ∈ members, ∀ f v, p.fieldOfKey? m.type x.1 = some f →
      fieldOfJson p f x.2 = .ok (some v) → f.length p v ≤ x.2.weight) :
    (m'.encode p).length ≤ (m.encode p).length + Json.weightOfMembers members := by
  induction members generalizing m with
  | nil =>
    rw [membersOfJson] at h
    rw [← Except.ok.inj h]
    exact Nat.le_add_right _ _
  | cons x rest ih =>
    obtain ⟨key, j⟩ := x
    obtain ⟨f, hf, value?, hvalue, h⟩ := (membersOfJson_cons (by simp)).1 h
    obtain ⟨hfirst, hrest⟩ := List.forall_mem_cons.1 hlength
    rw [Json.weightOfMembers]
    cases value? with
    | none =>
      have := ih h hrest
      omega
    | some v =>
      obtain ⟨mid, hmid, h⟩ := h
      obtain ⟨-, rfl⟩ := putOnce_eq_ok.1 hmid
      have hput := length_encode_put_le (hp.field?_of_fieldOfKey? hf) v
      have := ih h (by rwa [type_put])
      have := hfirst f v hf hvalue
      dsimp only at this
      omega

theorem length_encode_empty (p : Pool) (type : String) : ((empty type).encode p).length = 0 := by
  rw [encode, empty, toRaw_of_known, rawFields]
  rfl

/-- A message is made of the members of another one: each field that the other one shows holds what
is read back of its member, and no other field is set. -/
structure Echoes (p : Pool) (m : Message) (ms : Members) (m' : Message) : Prop where
  read : membersOfJson p false (.empty m.type) (Json.sorted ms) = .ok m'
  fits : m'.Fits p
  shown : ∀ f key j, p.Writes m.type f key → m.Shows p f → (key, j) ∈ ms →
    ∃ v', m'.get? f.number = some v' ∧ f.Returns p (m.value p f) j v'
  hidden : ∀ f key, p.Writes m.type f key → ¬m.Shows p f → m'.get? f.number = none
  length : (m'.encode p).length ≤ Json.weightOfMembers (Json.sorted ms)

/-- The members of a message make a message if what each of them holds is read back. -/
theorem exists_echoes (hp : p.Compiled) (hkeyed : p.Keyed m.type) (hm : m.Fits p)
    (h : toMembers p payload m = .ok ms)
    (hread : ∀ f key j, p.Writes m.type f key → m.Shows p f → (key, j) ∈ ms →
      ∃ v', f.Returns p (m.value p f) j v') : ∃ m', m.Echoes p ms m' := by
  have hmem {x : String × Json} : x ∈ Json.sorted ms ↔ x ∈ ms :=
    Json.mem_sorted (functional_toMembers hp hkeyed hm h)
  have hmember {x : String × Json} (hx : x ∈ Json.sorted ms) : ∃ f, p.Writes m.type f x.1 ∧
      m.Shows p f ∧ p.fieldOfKey? m.type x.1 = some f := by
    obtain ⟨f, hwrites, hshown, -⟩ := (mem_toMembers hp hm.ascending h).1 (hmem.1 hx)
    exact ⟨f, hwrites, hshown, hkeyed f _ hwrites⟩
  have hvalue {x : String × Json} (hx : x ∈ Json.sorted ms) {f : Field}
      (hf : p.fieldOfKey? m.type x.1 = some f) : p.Writes m.type f x.1 ∧ m.Shows p f ∧
        ∃ v', f.Returns p (m.value p f) x.2 v' := by
    obtain ⟨g, hwrites, hshown, hg⟩ := hmember hx
    obtain rfl := Option.some.inj (hg.symm.trans hf)
    exact ⟨hwrites, hshown, hread _ x.1 x.2 hwrites hshown (hmem.1 hx)⟩
  -- No two members are for one field, or for fields of one oneof.
  have hdisjoint : (Json.sorted ms).Pairwise (Disjoint p m.type) := by
    refine (Json.ascending_sorted ms).imp_of_mem fun {x y} hx hy hlt f g hf hg => ?_
    obtain ⟨hfw, hfs, -⟩ := hvalue hx hf
    obtain ⟨hgw, hgs, -⟩ := hvalue hy hg
    have hnumber : f.number ≠ g.number := fun hnumber => by
      have hsame := hnumber ▸ hfw.field? hp
      obtain rfl := Option.some.inj (hsame.symm.trans (hgw.field? hp))
      exact absurd (hfw.key_eq hp hgw) hlt.ne
    refine ⟨hnumber, fun i hi hi' => ?_⟩
    have hset {f : Field} {key : String} (hw : p.Writes m.type f key) (hs : m.Shows p f)
        (hi : f.oneofIndex = some i) : (∃ v, m.get? f.number = some v) ∧
          f.number ∈ (p.messageType m.type).oneofNumbers i := by
      have hpresence := (hp.loaded.wellFormed_of_field? (hw.field? hp)).oneof (by rw [hi]; rfl)
      refine ⟨hs.get?_or.resolve_right fun hunset => ?_,
        (hp.loaded.mem_oneofNumbers_iff (hw.field? hp)).2 hi⟩
      rw [hpresence] at hunset
      cases hunset.2
    obtain ⟨⟨v, hv⟩, hn⟩ := hset hfw hfs hi
    obtain ⟨⟨w, hw⟩, hk⟩ := hset hgw hgs hi'
    exact hnumber (hm.number_eq_of_oneof hv hw hn hk)
  obtain ⟨m', hread', hfits⟩ := exists_membersOfJson (m := .empty m.type) hp (fits_empty p m.type)
    (fun x hx => by
      obtain ⟨f, hwrites, hshown, hf⟩ := hmember hx
      obtain ⟨-, -, v', hv'⟩ := hvalue hx hf
      exact ⟨f, v', hf, hv'.read, hv'.fits⟩) hdisjoint (fun _ _ _ _ _ _ _ _ => rfl)
  obtain ⟨hown, hother⟩ := get?_of_membersOfJson hp.loaded hread'
    (hdisjoint.imp fun hxy => hxy.apart)
  refine ⟨m', hread', hfits, fun f key j hwrites hshown hj => ?_,
    fun f key hwrites hhidden => ?_, ?_⟩
  · have hf := hkeyed f key hwrites
    obtain ⟨v', hv'⟩ := hread f key j hwrites hshown hj
    have hget := hown (key, j) (hmem.2 hj) f hf rfl
    exact ⟨v', (Except.ok.inj (hv'.read.symm.trans hget)).symm, hv'⟩
  · refine hother f.number fun x hx g hg hnumber => hhidden ?_
    obtain ⟨hgw, hgs, -⟩ := hvalue hx hg
    have hsame := hnumber ▸ hgw.field? hp
    rwa [Option.some.inj ((hwrites.field? hp).symm.trans hsame)]
  · have hlength := length_encode_of_membersOfJson hp hread' fun x hx f v hf hv => by
      obtain ⟨-, -, v', hv'⟩ := hvalue hx hf
      obtain rfl := Option.some.inj (Except.ok.inj (hv.symm.trans hv'.read))
      exact hv'.length
    rwa [length_encode_empty, Nat.zero_add] at hlength

/-- A message has the same fields shown as another one if it has set what the other one has set, but
for own fields that do not tell being unset apart, and nothing else. -/
theorem shows_iff (htype : m'.type = m.type) (hwrites : p.Writes m.type f key)
    (hhidden : ¬m.Shows p f → m'.get? f.number = none)
    (hset : m.has p f = true → f.hasPresence = true ∨ f ∈ p.extensionsOf m.type →
      m'.has p f = true) : m'.Shows p f ↔ m.Shows p f := by
  constructor
  · intro hshown
    by_contra hnot
    obtain ⟨v, hget⟩ | ⟨-, hpresence⟩ := hshown.get?_or
    · rw [hhidden hnot] at hget
      cases hget
    · refine hnot (hshown.elim (fun hhas => ?_) fun hown => .inr (htype ▸ hown))
      rw [has, hhidden hnot] at hhas
      cases hhas
  · rintro (hhas | hown)
    · cases hpresence : f.hasPresence with
      | true => exact .inl (hset hhas (.inl hpresence))
      | false =>
        cases hwrites with
        | own hf => exact .inr ⟨htype.symm ▸ hf, hpresence⟩
        | extension hf => exact .inl (hset hhas (.inr hf))
    · exact .inr (htype.symm ▸ hown)

/-- What counts as set still does when it was written and read back. -/
theorem isDefault_reread (h : f.isDefault p v = false) :
    f.isDefault p (f.reread p v) = false := by
  cases v with
  | list items =>
    cases items with
    | nil => cases h
    | cons => rfl
  | map entries =>
    cases entries with
    | nil => cases h
    | cons => rfl
  | _ =>
    rw [Field.reread]
    · split
      · rfl
      · exact h
    · intros; contradiction
    · intros; contradiction

/-- What is set is still set after a message was written and read back. -/
theorem has_reread (hp : p.Compiled) (hm : m.Fits p) (hf : p.field? m.type f.number = some f)
    (h : m.has p f = true) : (m.reread p).has p f = true := by
  rw [has_eq] at h
  cases hget : m.get? f.number with
  | none =>
    rw [hget] at h
    cases h
  | some v =>
    rw [hget] at h
    rw [has_eq, get?_reread hp hm hf, hget, Option.bind_some, Field.kept, if_pos (by exact h),
      Field.isSet]
    obtain hpresence | hdefault := Bool.or_eq_true_iff.1 h
    · rw [hpresence]
      rfl
    · rw [isDefault_reread (by simpa using hdefault), Bool.not_false,
        Bool.or_true]

/-- The members of a message are read as another one that has them too. -/
structure ReturnsMembers (p : Pool) (m : Message) (ms : Members) (m' : Message) : Prop where
  read : membersOfJson p false (.empty m.type) (Json.sorted ms) = .ok m'
  fits : m'.Fits p
  type : m'.type = m.type
  nesting : m'.nesting ≤ m.nesting
  length : (m'.encode p).length ≤ Json.weightOfMembers (Json.sorted ms)
  written : ∀ depth, (m'.encode p).length < depth →
    ∃ ms', toMembers p (payloadMembers p depth) m' = .ok ms' ∧ MembersAlike ms ms'
  reread : m.Listed p → ∀ depth, (m'.encode p).length < depth →
    ∃ ms', toMembers p (payloadMembers p depth) (m'.reread p) = .ok ms' ∧ MembersAlike ms ms'

/-- A message that is made of the members of another one has them too. -/
theorem Echoes.returnsMembers (hp : p.Compiled) (hkeyed : p.Keyed m.type) (hm : m.Fits p)
    (h : toMembers p payload m = .ok ms) (hr : m.Echoes p ms m') : m.ReturnsMembers p ms m' := by
  have htype : m'.type = m.type := type_of_membersOfJson (m := .empty m.type) hr.read
  have hwritten {f : Field} {v : Value} (hf : p.field? m.type f.number = some f)
      (hget : m'.get? f.number = some v) : m.Shows p f ∧ ∃ j, f.Returns p (m.value p f) j v := by
    obtain ⟨key, hwrites⟩ := Pool.exists_writes hf
    by_cases hshown : m.Shows p f
    · obtain ⟨j, hj⟩ := exists_mem_toMembers hp hm h hwrites hshown
      obtain ⟨v', hv', hreturns⟩ := hr.shown f key j hwrites hshown hj
      obtain rfl := Option.some.inj (hget.symm.trans hv')
      exact ⟨hshown, j, hreturns⟩
    · rw [hr.hidden f key hwrites hshown] at hget
      cases hget
  have hset {f : Field} {key : String} (hwrites : p.Writes m.type f key) (hhas : m.has p f = true)
      (hkind : f.hasPresence = true ∨ f ∈ p.extensionsOf m.type) : m'.has p f = true := by
    obtain ⟨j, hj⟩ := exists_mem_toMembers hp hm h hwrites (.inl hhas)
    obtain ⟨v', hget, hreturns⟩ := hr.shown f key j hwrites (.inl hhas) hj
    rw [has, hget]
    cases hpresence : f.hasPresence with
    | true => rfl
    | false =>
      -- An extension that does not tell being unset apart is a list, which is as long as before.
      have hextension := hkind.resolve_left (by simp [hpresence])
      have hrepeated : f.isRepeated = true := by
        by_contra hsingle
        rw [Pool.hasPresence_of_extension hp.loaded hextension (by simpa using hsingle)]
          at hpresence
        cases hpresence
      obtain ⟨v, hv⟩ := exists_get?_of_has hhas
      rw [has, hv, hpresence] at hhas
      dsimp only
      rw [hreturns.isDefault hrepeated, value_of_get? hv]
      exact hhas
  have hshows (f : Field) (key : String) (hwrites : p.Writes m.type f key) :
      m'.Shows p f ↔ m.Shows p f := shows_iff htype hwrites (hr.hidden f key hwrites) (hset hwrites)
  have hbelow {f : Field} {v : Value} {depth : Nat} (hf : p.field? m.type f.number = some f)
      (hget : m'.get? f.number = some v) (hdepth : (m'.encode p).length < depth) :
      v.Below p depth := fun x hx =>
    Nat.lt_of_le_of_lt (hr.fits.length_le_of_encloses hp (htype ▸ hf) hget hx) hdepth
  refine ⟨hr.read, hr.fits, htype, ?_, hr.length, fun depth hdepth => ?_,
    fun hlisted depth hdepth => ?_⟩
  · refine nesting_le_of_forall hr.fits (unknown_of_membersOfJson hr.read) fun f v hf hget => ?_
    rw [htype] at hf
    obtain ⟨hshown, j, hreturns⟩ := hwritten hf hget
    exact Nat.le_trans hreturns.nesting
      (hshown.nesting_le hp.loaded (hp.loaded.wellFormed_of_field? hf))
  · refine exists_membersAlike hp hkeyed hm h hr.fits htype hshows
      fun f key j hwrites hshown hj => ?_
    obtain ⟨v', hget, hreturns⟩ := hr.shown f key j hwrites hshown hj
    rw [value_of_get? hget]
    exact hreturns.written depth (hbelow (hwrites.field? hp) hget hdepth)
  · refine exists_membersAlike hp hkeyed hm h (hr.fits.reread hp) ((type_reread ..).trans htype)
      (fun f key hwrites => ?_) fun f key j hwrites hshown hj => ?_
    · have hf := htype.symm ▸ hwrites.field? hp
      refine shows_iff ((type_reread ..).trans htype) hwrites (fun hhidden => ?_)
        fun hhas hkind => has_reread hp hr.fits hf (hset hwrites hhas hkind)
      rw [get?_reread hp hr.fits hf, hr.hidden f key hwrites hhidden]
      rfl
    · have hf := htype.symm ▸ hwrites.field? hp
      obtain ⟨v', hget, hreturns⟩ := hr.shown f key j hwrites hshown hj
      rw [value, get?_reread hp hr.fits hf, hget, Option.bind_some, Field.kept]
      split_ifs with hkept
      · exact hreturns.reread (hlisted.value hp.loaded (hwrites.field? hp)) depth
          (hbelow (hwrites.field? hp) hget hdepth)
      · have hdefault : f.hasPresence = false ∧ f.isDefault p v' = true := by simpa using hkept
        exact hreturns.default hdefault.2 depth

/-- The members of a message are read back if the messages in its fields are. -/
theorem exists_returnsMembers (hp : p.Compiled) (hs : p.Standard) (hkeyed : p.Keyed m.type)
    (hm : m.Fits p)
    (hknown : ∀ n v x, m.get? n = some v → v.Encloses x → (p.referredMessage? x.type).isSome = true)
    (h : toMembers p payload m = .ok ms) (hweight : Json.weightOfMembers (Json.sorted ms) < 2 ^ 64)
    (ih : ∀ n v x, m.get? n = some v → v.Encloses x → x.ComesBack p payload) :
    ∃ m', m.ReturnsMembers p ms m' := by
  have hfunctional := functional_toMembers hp hkeyed hm h
  obtain ⟨m', hm'⟩ := exists_echoes hp hkeyed hm h fun f key j hwrites hshown hj => by
    have hf := hwrites.field? hp
    have hwell := hp.loaded.wellFormed_of_field? hf
    have hmember := Json.weight_le_of_member ((Json.mem_sorted hfunctional).2 hj)
    dsimp only at hmember
    obtain ⟨g, hwrites', -, hvalue⟩ := (mem_toMembers hp hm.ascending h).1 hj
    obtain rfl := Option.some.inj ((hkeyed f key hwrites).symm.trans (hkeyed g key hwrites'))
    refine Field.exists_returns hp hs hf (hm.value hp hf) (fun x hx => ?_) hvalue (by omega)
      fun x hx => ?_
    · obtain ⟨v, hget, hx⟩ := hshown.get?_of_encloses hp.loaded hwell hx
      exact hknown f.number v x hget hx
    · obtain ⟨v, hget, hx⟩ := hshown.get?_of_encloses hp.loaded hwell hx
      exact ih f.number v x hget hx
  exact ⟨m', hm'.returnsMembers hp hkeyed hm h⟩

/-! ## Whole messages -/

theorem valueOfJson_members {name : String} (hname : WellKnown.ofName? name = none)
    (members : List (String × Json)) : valueOfJson p (.one (.message name)) (.object members) =
      .record <$> membersOfJson p false (.empty name) members := by
  rw [valueOfJson]
  simp only [hname]

theorem writeJson_members (hname : WellKnown.ofName? m.type = none) :
    writeJson p payload m = Json.ofMembers <$> toMembers p payload m := by
  rw [writeJson, valueToJson]
  simp only [hname]

theorem valueOfJson_wellKnown {w : WellKnown} {name : String}
    (hname : WellKnown.ofName? name = some w) (hany : w ≠ .any) (j : Json) :
    valueOfJson p (.one (.message name)) j = (do
      let r ← w.rawOfJson j
      return .record (← ofRaw p name r)) := by
  cases j <;> rw [valueOfJson, leafOfJson] <;> simp [hname]

theorem writeJson_wellKnown {w : WellKnown} (hname : WellKnown.ofName? m.type = some w)
    (hany : w ≠ .any) : writeJson p payload m = w.toJson p m := by
  rw [writeJson, valueToJson]
  cases w with
  | any => exact absurd rfl hany
  | _ => simp only [hname]

/-- A message whose members are read back is so as a whole, if its type has no form of its own. -/
theorem ReturnsMembers.returns (hname : WellKnown.ofName? m.type = none)
    (h : m.ReturnsMembers p ms m') : m.Returns p (Json.ofMembers ms) m' := by
  have hwrite {n : Message} (htype : n.type = m.type) {depth : Nat}
      (hms : ∃ ms', toMembers p (payloadMembers p depth) n = .ok ms' ∧ MembersAlike ms ms') :
      n.WrittenAs p depth (Json.ofMembers ms) := by
    obtain ⟨ms', hms', halike⟩ := hms
    refine ⟨_, ?_, halike.ofMembers⟩
    rw [writeJson_members (htype.symm ▸ hname), hms']
    rfl
  refine ⟨?_, h.fits, h.type, h.nesting, ?_,
    fun depth hdepth => hwrite h.type (h.written depth hdepth), fun hlisted depth hdepth =>
      hwrite ((type_reread ..).trans h.type) (h.reread hlisted depth hdepth)⟩
  · rw [Json.ofMembers_eq, valueOfJson_members hname, h.read]
    rfl
  · have hlength := h.length
    rw [Json.ofMembers_eq, Json.weight]
    omega

end Message

/-- A message of a well-known type is read back as a whole. -/
theorem WellKnown.Returned.returns (hp : p.Compiled) {w : WellKnown} {r : RawRecord}
    (hname : WellKnown.ofName? m.type = some w) (hany : w ≠ .any) (hweight : j.weight < 2 ^ 64)
    (h : WellKnown.Returned p w m j m' r) : m.Returns p j m' := by
  have hlength := h.length
  have hencode : m'.encode p = Raw.writeFields r := by rw [Message.encode, h.settled.raw]
  have hwritten (depth : Nat) : m'.WrittenAs p depth j := by
    obtain ⟨j', hj', halike⟩ := h.written
    exact ⟨j', (Message.writeJson_wellKnown (h.type.symm ▸ hname) hany).trans hj', halike⟩
  refine ⟨?_, h.settled.fits, h.type, h.nesting, hencode.symm ▸ hlength,
    fun depth _ => hwritten depth, fun _ depth _ => h.settled.reread.symm ▸ hwritten depth⟩
  rw [Message.valueOfJson_wellKnown hname hany, h.read]
  have hread := h.settled.ofRaw hp h.levels (by omega)
  rw [h.type] at hread
  change (do return Value.record (← Message.ofRaw p m.type r)) = _
  rw [hread]
  rfl

/-! ## Messages of any type -/

namespace Message

/-- A message of any type holds another one under an address that gives the name of its type. -/
structure Packs (p : Pool) (m : Message) (url name : String) (held : Message) : Prop where
  any : WellKnown.ofName? m.type = some .any
  record : ∃ r, WellKnown.recordOf p m = .ok r ∧ (WellKnown.textsIn 1 r).getLast?.getD "" = url ∧
    decode p (Pool.bareName name) (WellKnown.bytesIn 2 r) = .ok held
  address : TypeUrl.typeName? url = some name
  known : (p.message? name).isSome = true

/-- What a message of any type is written as, told by what it holds. -/
def packedMembers (p : Pool) (depth : Nat) (url name : String) (held : Message) :
    Except MappingFault Members :=
  if (WellKnown.ofName? name).isSome then
    (fun j => [(typeKey, .string url), (payloadKey, j)]) <$>
      writeJson p (payloadMembers p depth) held
  else ((typeKey, .string url) :: ·) <$> toMembers p (payloadMembers p depth) held

theorem payloadMembers_succ {url name : String} {held : Message} (h : m.Packs p url name held)
    (depth : Nat) : payloadMembers p (depth + 1) m = packedMembers p depth url name held := by
  obtain ⟨r, hr, hurl, hheld⟩ := h.record
  have hnone : (p.message? name).isNone = false := by
    rw [Option.isNone_eq_false_iff]
    exact h.known
  rw [payloadMembers, hr]
  simp only [Bind.bind, Except.bind, hurl, h.address, hnone, hheld, packedMembers, Except.mapError,
    Bool.false_eq_true, if_false]
  split_ifs
  · cases writeJson p (payloadMembers p depth) held <;> rfl
  · cases toMembers p (payloadMembers p depth) held <;> rfl

/-- A message of any type that is written holds a message. -/
theorem exists_packs (hany : WellKnown.ofName? m.type = some .any) {depth : Nat}
    (h : payloadMembers p depth m = .ok ms) : ∃ d url name held, depth = d + 1 ∧
      m.Packs p url name held ∧ packedMembers p d url name held = .ok ms := by
  cases depth with
  | zero => cases h
  | succ d =>
    obtain ⟨r, hr, hrest⟩ := Except.bind_eq_ok.1 h
    have ⟨url, hurl⟩ : ∃ url, (WellKnown.textsIn 1 r).getLast?.getD "" = url := ⟨_, rfl⟩
    dsimp only at hrest
    rw [hurl] at hrest
    cases haddress : TypeUrl.typeName? url with
    | none =>
      rw [haddress] at hrest
      cases hrest
    | some name =>
      rw [haddress] at hrest
      dsimp only at hrest
      by_cases hnone : (p.message? name).isNone = true
      · rw [if_pos hnone] at hrest
        cases hrest
      · rw [if_neg hnone] at hrest
        obtain ⟨held, hheld, -⟩ := Except.bind_eq_ok.1 hrest
        have hpacks : m.Packs p url name held := ⟨hany,
          ⟨r, hr, hurl, Except.mapError_eq_ok.1 hheld⟩, haddress,
          by simpa [Option.isSome_iff_ne_none] using hnone⟩
        exact ⟨d, url, name, held, rfl, hpacks, (payloadMembers_succ hpacks d).symm.trans h⟩

/-- A message that is not nested too deep is decoded from what is encoded of it. -/
theorem decode_encode_eq (hp : p.Compiled) (hm : m.Fits p) (hn : m.nesting ≤ Wire.maxDepth)
    (hl : (m.encode p).length < 2 ^ 64) : decode p m.type (m.encode p) = .ok (m.reread p) := by
  rw [decode, encode, Wire.read_writeFields
    (roundTrips hp Wire.maxDepth m m hm (.refl m) hn).1 hl]
  rfl

/-- The record of a message of any type. -/
def packedRecord (url : String) (bytes : Bytes) : RawRecord :=
  (if url.isEmpty then [] else [(1, .text url)]) ++
    (if bytes.isEmpty then [] else [(2, .bytes bytes)])

open WellKnown (scalarFields)

theorem packedRecord_eq (url : String) (bytes : Bytes) : packedRecord url bytes =
    scalarFields .string 1 (.text url) ++ scalarFields .bytes 2 (.bytes bytes) := by
  have hurl : (url == "") = url.isEmpty := by
    rw [Bool.eq_iff_iff, beq_iff_eq, String.isEmpty_iff]
  have hbytes : (bytes == []) = bytes.isEmpty := by
    rw [Bool.eq_iff_iff, beq_iff_eq, List.isEmpty_iff]
  rw [packedRecord, scalarFields, scalarFields, ← hurl, ← hbytes]
  rfl

theorem levelsOf_packedRecord (url : String) (bytes : Bytes) :
    Raw.levelsOf (packedRecord url bytes) = 0 := by
  rw [packedRecord]
  split_ifs <;> rfl

/-- An address that gives a name is not empty. -/
theorem isEmpty_of_typeName? {url name : String} (h : TypeUrl.typeName? url = some name) :
    url.isEmpty = false := by
  rw [Bool.eq_false_iff, ne_eq, String.isEmpty_iff]
  rintro rfl
  cases h

/-- Both parts of the record are found again. -/
theorem parts_packedRecord {url name : String} (h : TypeUrl.typeName? url = some name)
    (bytes : Bytes) : (WellKnown.textsIn 1 (packedRecord url bytes)).getLast?.getD "" = url ∧
      WellKnown.bytesIn 2 (packedRecord url bytes) = bytes := by
  cases bytes <;> simp [packedRecord, isEmpty_of_typeName? h, WellKnown.textsIn, WellKnown.bytesIn]

open Wire in
theorem length_packedRecord {url name : String} (h : TypeUrl.typeName? url = some name)
    {bytes : Bytes} (hlength : 4 * url.length + bytes.length + 50 < 2 ^ 64) :
    bytes.length < (Raw.writeFields (packedRecord url bytes)).length ∧
      (Raw.writeFields (packedRecord url bytes)).length ≤ 4 * url.length + bytes.length + 50 := by
  have hurl := length_utf8_le url
  have htext := length_writeDelimited_le (b := utf8 url) (by omega)
  have hbytes := length_writeDelimited_le (b := bytes) (by omega)
  constructor
  · cases bytes with
    | nil =>
      have hmem : (1, Raw.text url) ∈ packedRecord url [] := by
        simp [packedRecord, isEmpty_of_typeName? h]
      exact Nat.lt_of_lt_of_le (Nat.zero_lt_of_lt (length_writeDelimited (utf8 url)))
        (length_write_le_of_mem hmem)
    | cons b rest =>
      have hmem : (2, Raw.bytes (b :: rest)) ∈ packedRecord url (b :: rest) := by
        simp [packedRecord]
      exact Nat.lt_of_lt_of_le (length_writeDelimited (b :: rest)) (length_write_le_of_mem hmem)
  · have hfirst : (Raw.writeFields (scalarFields .string 1 (.text url))).length ≤
        (Raw.text url).write.length + 10 := WellKnown.length_scalarFields_le (by decide) ..
    have hsecond : (Raw.writeFields (scalarFields .bytes 2 (.bytes bytes))).length ≤
        (Raw.bytes bytes).write.length + 10 := WellKnown.length_scalarFields_le (by decide) ..
    simp only [Raw.write] at hfirst hsecond
    rw [packedRecord_eq, writeFields_append, List.length_append]
    omega

/-- A message that is not nested too deep is packed into one of any type, which holds what comes of
it on the wire. -/
theorem exists_pack (hp : p.Compiled) (hs : p.Standard)
    (hany : WellKnown.ofName? m.type = some .any)
    (hknown : (p.referredMessage? m.type).isSome = true) {url name : String} {held : Message}
    (haddress : TypeUrl.typeName? url = some name) (hname : (p.message? name).isSome = true)
    (htype : held.type = Pool.bareName name) (hfits : held.Fits p)
    (hnesting : held.nesting ≤ Wire.maxDepth)
    (hlength : 4 * url.length + (held.encode p).length + 50 < 2 ^ 64) :
    ∃ m', pack p url held = .ok m' ∧ m'.type = m.type ∧ m'.Fits p ∧ m'.nesting = 0 ∧
      m'.reread p = m' ∧ m'.Packs p url name (held.reread p) ∧
      (held.encode p).length < (m'.encode p).length ∧
      (m'.encode p).length ≤ 4 * url.length + (held.encode p).length + 50 := by
  have htypeName := WellKnown.eq_of_ofName?_any hany
  have hknows := hs.knows m.type (WellKnown.mem_names_of_ofName? hany) hknown m.type
    (WellKnown.mem_family m.type)
  have hforms := WellKnown.formsOf_eq hany
  obtain ⟨m', htype', hsettled⟩ := exists_settled_scalars hp hknows (s := .string)
    (t := .bytes) (v := .text url) (w := .bytes (held.encode p)) (show 1 < 2 by decide)
    (by rw [hforms]; rfl) (by rw [hforms]; rfl) trivial trivial
  rw [← packedRecord_eq] at hsettled
  obtain ⟨hlt, hle⟩ := length_packedRecord haddress hlength
  obtain ⟨hurl, hbytes⟩ := parts_packedRecord haddress (held.encode p)
  have hencode : m'.encode p = Raw.writeFields (packedRecord url (held.encode p)) := by
    rw [encode, hsettled.raw]
  have hlevels := levelsOf_packedRecord url (held.encode p)
  have hfit : Wire.FieldsFit WellKnown.layout (.record m'.type) Wire.maxDepth
      (packedRecord url (held.encode p)) := by
    rw [packedRecord_eq, htype']
    refine fieldsFit_of_forall fun x hx => ?_
    obtain hx | hx := List.mem_append.1 hx
    · exact WellKnown.fieldFits_of_mem_scalarFields (s := .string) (v := .text url)
        ((WellKnown.layout_field?_eq hany 1).trans rfl) trivial (by decide) (by decide) x hx
    · exact WellKnown.fieldFits_of_mem_scalarFields (s := .bytes) (v := .bytes (held.encode p))
        ((WellKnown.layout_field?_eq hany 2).trans rfl) trivial (by decide) (by decide) x hx
  have hread := hsettled.ofRaw hp (hlevels.symm ▸ Nat.zero_le _) (by omega)
  refine ⟨m', ?_, htype', hsettled.fits, Nat.le_zero.1 (hlevels ▸ hsettled.nesting),
    hsettled.reread, ⟨htype'.symm ▸ hany, ⟨_, hsettled.recordOf hfit (by omega), hurl, ?_⟩,
      haddress, hname⟩, hencode ▸ hlt, hencode ▸ hle⟩
  · rw [htype', htypeName] at hread
    exact hread
  · rw [hbytes, ← htype]
    exact decode_encode_eq hp hfits hnesting (by omega)

theorem writeJson_any (hany : WellKnown.ofName? m.type = some .any) :
    writeJson p payload m = Json.ofMembers <$> payload m := by
  rw [writeJson, valueToJson]
  simp only [hany]

theorem payloadType_eq {members : List (String × Json)} {url name : String}
    (hmember : Json.member? typeKey members = some (.string url))
    (haddress : TypeUrl.typeName? url = some name) (hknown : (p.message? name).isSome = true) :
    payloadType p members = .ok (url, name) := by
  rw [payloadType, hmember]
  simp only [haddress, hknown, if_true]

/-- A message of any type is read back if what it holds is. -/
theorem exists_returns_of_packs (hp : p.Compiled) (hs : p.Standard)
    (hknown : (p.referredMessage? m.type).isSome = true) {url name : String}
    {held held' : Message} (hpacks : m.Packs p url name held) (hn : held.nesting ≤ Wire.maxDepth)
    (hfits : held'.Fits p) (htype : held'.type = held.type)
    (hnesting : held'.nesting ≤ held.nesting)
    (hread : valueOfJson p (.one (.message m.type)) j = .record <$> pack p url held')
    (hlength : 4 * url.length + (held'.encode p).length + 70 ≤ j.weight)
    (hweight : j.weight < 2 ^ 64)
    (hwritten : ∀ depth, (held'.encode p).length < depth → ∃ ms',
      packedMembers p depth url name (held'.reread p) = .ok ms' ∧ j.Alike (Json.ofMembers ms')) :
    ∃ m', m.Returns p j m' := by
  obtain ⟨r, -, -, hheld⟩ := hpacks.record
  obtain ⟨-, hheldType⟩ := fits_of_decode hp hheld
  obtain ⟨m', hpack, htype', hfits', hnesting', hreread, hpacks', hlt, hle⟩ :=
    exists_pack hp hs hpacks.any hknown hpacks.address hpacks.known (htype.trans hheldType) hfits
      (Nat.le_trans hnesting hn) (by omega)
  have hback (depth : Nat) (hdepth : (m'.encode p).length < depth) : m'.WrittenAs p depth j := by
    obtain ⟨d, rfl⟩ : ∃ d, depth = d + 1 := Nat.exists_eq_add_one.2 (Nat.zero_lt_of_lt hdepth)
    obtain ⟨ms', hms', halike⟩ := hwritten d (by omega)
    refine ⟨_, ?_, halike⟩
    rw [writeJson_any hpacks'.any, payloadMembers_succ hpacks', hms']
    rfl
  exact ⟨m', by rw [hread, hpack]; rfl, hfits', htype', hnesting'.symm ▸ Nat.zero_le _, by omega,
    hback, fun _ => hreread.symm ▸ hback⟩

section

variable {type url name : String} {members : List (String × Json)}

/-- An object for a message of any type that holds one of a well-known type under the key for it. -/
theorem valueOfJson_payload (hany : WellKnown.ofName? type = some .any)
    (htype : payloadType p members = .ok (url, name))
    (hname : (WellKnown.ofName? name).isSome = true)
    (hpayload : payloadOfJson p name members = .ok (some m))
    (hkeys : ∀ x ∈ members, x.1 = typeKey ∨ x.1 = payloadKey) :
    valueOfJson p (.one (.message type)) (.object members) = .record <$> pack p url m := by
  rw [valueOfJson]
  simp only [hany, htype, hpayload, hname, if_true, Bind.bind, Except.bind]
  rw [List.find?_eq_none.2 fun x hx => ?_]
  obtain h | h := hkeys x hx <;> simp [h]

/-- An object for a message of any type that holds any other one with its members. -/
theorem valueOfJson_packed (hany : WellKnown.ofName? type = some .any)
    (htype : payloadType p members = .ok (url, name)) (hname : WellKnown.ofName? name = none)
    (hread : membersOfJson p true (.empty (Pool.bareName name)) members = .ok m) :
    valueOfJson p (.one (.message type)) (.object members) = .record <$> pack p url m := by
  rw [valueOfJson]
  simp only [hany, htype, hname, hread, Option.isSome_none, Bool.false_eq_true, if_false, Bind.bind,
    Except.bind]

end

/-- The names of well-known types have no dot in front. -/
theorem bareName_of_ofName? {name : String} (h : (WellKnown.ofName? name).isSome = true) :
    Pool.bareName name = name := by
  obtain ⟨w, hw⟩ := Option.isSome_iff_exists.1 h
  have htable : ∀ x ∈ WellKnown.table, Pool.bareName x.1 = x.1 := by decide +kernel
  exact htable (name, w) (WellKnown.eq_of_ofName? hw)

/-- A message of any type that holds a message of a well-known type is read back if that is. -/
theorem exists_returns_of_value (hp : p.Compiled) (hs : p.Standard)
    (hknown : (p.referredMessage? m.type).isSome = true) {url name : String}
    {held held' : Message} (hpacks : m.Packs p url name held) (hn : held.nesting ≤ Wire.maxDepth)
    (hname : (WellKnown.ofName? name).isSome = true) (hr : held.Returns p j held')
    (hweight : (Json.ofMembers [(typeKey, .string url), (payloadKey, j)]).weight < 2 ^ 64) :
    ∃ m', m.Returns p (Json.ofMembers [(typeKey, .string url), (payloadKey, j)]) m' := by
  obtain ⟨r, -, -, hheld⟩ := hpacks.record
  obtain ⟨-, hheldType⟩ := fits_of_decode hp hheld
  have hascending (j : Json) : Json.Ascending [(typeKey, .string url), (payloadKey, j)] :=
    List.pairwise_pair.2 (by decide : typeKey < payloadKey)
  have hobject (j : Json) : Json.ofMembers [(typeKey, .string url), (payloadKey, j)] =
      .object [(typeKey, .string url), (payloadKey, j)] := by
    rw [Json.ofMembers_eq, (hascending j).sorted_eq]
  have hlength := hr.length
  rw [hobject] at hweight ⊢
  refine exists_returns_of_packs hp hs hknown hpacks hn hr.fits hr.type hr.nesting ?_ ?_ hweight
    fun depth hdepth => ?_
  · have hpayload : payloadOfJson p name [(typeKey, .string url), (payloadKey, j)] =
        .ok (some held') := by
      rw [payloadOfJson, if_pos (by decide), payloadOfJson, if_neg (by simp)]
      rw [← bareName_of_ofName? hname, ← hheldType, hr.read]
      rfl
    exact valueOfJson_payload hpacks.any (payloadType_eq rfl hpacks.address hpacks.known) hname
      hpayload (by simp)
  · simp only [Json.weight, Json.weightOfMembers]
    omega
  · obtain ⟨j', hj', halike⟩ := hr.reread (listed_of_decode hp.loaded hheld) depth hdepth
    refine ⟨_, ?_,
      Json.alike_ofMembers (hascending j) (.cons (.mk (.refl _)) (.cons (.mk halike) .nil))⟩
    rw [packedMembers, if_pos hname, hj']
    rfl

/-- Without its member an object has the other members left, in their order. -/
theorem filter_sorted_cons (hfunctional : Json.Functional ms) (hfree : key ∉ ms.map (·.1)) :
    (Json.sorted ((key, j) :: ms)).filter (fun x => x.1 ≠ key) = Json.sorted ms := by
  refine Json.Ascending.eq_of_mem_iff ((Json.ascending_sorted _).filter _)
    (Json.ascending_sorted ms) fun x => ?_
  rw [List.mem_filter, Json.mem_sorted (functional_cons hfunctional hfree), List.mem_cons,
    Json.mem_sorted hfunctional, decide_eq_true_iff]
  constructor
  · rintro ⟨rfl | hx, hkey⟩
    · exact absurd rfl hkey
    · exact hx
  · exact fun hx => ⟨.inr hx, fun hkey => hfree (hkey ▸ List.mem_map_of_mem hx)⟩

/-- One more member adds its weight to that of the others. -/
theorem weightOfMembers_sorted_cons (hfunctional : Json.Functional ms)
    (hfree : key ∉ ms.map (·.1)) : Json.weightOfMembers (Json.sorted ms) +
      (64 + 32 * key.length + j.weight) ≤ Json.weightOfMembers (Json.sorted ((key, j) :: ms)) := by
  have hmem : (key, j) ∈ Json.sorted ((key, j) :: ms) :=
    (Json.mem_sorted (functional_cons hfunctional hfree)).2 List.mem_cons_self
  have hout := @Json.weightOfMembers_filter_le _ (fun x => x.1 ≠ key) _ hmem (by simp)
  rwa [filter_sorted_cons hfunctional hfree] at hout

/-- A message of any type that holds another message is read back if the members of that are. -/
theorem exists_returns_of_members (hp : p.Compiled) (hs : p.Standard)
    (hknown : (p.referredMessage? m.type).isSome = true) {url name : String}
    {held held' : Message} (hpacks : m.Packs p url name held) (hn : held.nesting ≤ Wire.maxDepth)
    (hname : WellKnown.ofName? name = none) (hr : held.ReturnsMembers p ms held')
    (hfunctional : Json.Functional ms) (hfree : typeKey ∉ ms.map (·.1))
    (hweight : (Json.ofMembers ((typeKey, .string url) :: ms)).weight < 2 ^ 64) :
    ∃ m', m.Returns p (Json.ofMembers ((typeKey, .string url) :: ms)) m' := by
  obtain ⟨r, -, -, hheld⟩ := hpacks.record
  obtain ⟨-, hheldType⟩ := fits_of_decode hp hheld
  have hascending := Json.ascending_sorted ((typeKey, Json.string url) :: ms)
  have hmem : (typeKey, Json.string url) ∈ Json.sorted ((typeKey, Json.string url) :: ms) :=
    (Json.mem_sorted (functional_cons hfunctional hfree)).2 List.mem_cons_self
  have hfilter := filter_sorted_cons (j := .string url) hfunctional hfree
  have hout := weightOfMembers_sorted_cons (j := .string url) hfunctional hfree
  have hlength := hr.length
  rw [Json.ofMembers_eq] at hweight ⊢
  refine exists_returns_of_packs hp hs hknown hpacks hn hr.fits hr.type hr.nesting ?_ ?_ hweight
    fun depth hdepth => ?_
  · have hmember : Json.member? typeKey (Json.sorted ((typeKey, .string url) :: ms)) =
        some (.string url) := (Json.member?_eq_some_iff hascending.nodup_keys).2 hmem
    have hread := membersOfJson_passType (hfilter.symm ▸ hr.read)
    rw [hheldType] at hread
    exact valueOfJson_packed hpacks.any (payloadType_eq hmember hpacks.address hpacks.known) hname
      hread
  · rw [Json.weight]
    simp only [Json.weight] at hout
    omega
  · obtain ⟨ms', hms', halike⟩ := hr.reread (listed_of_decode hp.loaded hheld) depth hdepth
    refine ⟨(typeKey, .string url) :: ms', ?_, ?_⟩
    · rw [packedMembers, if_neg (by simp [hname]), hms']
      rfl
    · rw [← Json.ofMembers_eq]
      exact (halike.cons hfree (.string url)).ofMembers

end Message

end ServiceCall
