import ServiceCall.Message.Json.Read
import ServiceCall.Proofs.Message.Decode
/-!
# What is read from JSON fits

A JSON value whose numbers are finite makes a value of the shape that it is read for
(`fits_valueOfJson`), by induction on the JSON value: members are put into a message one after
the other, and the types with a form of their own are decoded from the wire.

Members make a message if each of them makes a value of the field that its key names, no two of
them name one field, and no two of them name fields of one oneof (`exists_membersOfJson`). The
member that says the type of a message of any type may be left out before the message is read
(`membersOfJson_passType`).
-/

namespace ServiceCall

open Wire (Raw RawRecord)

namespace Json

mutual

/-- Every number in the value is finite. -/
def Finite : Json → Prop
  | .float x => x.isFinite = true
  | .array items => FiniteItems items
  | .object members => FiniteMembers members
  | _ => True

def FiniteItems : List Json → Prop
  | [] => True
  | v :: rest => v.Finite ∧ FiniteItems rest

def FiniteMembers : List (String × Json) → Prop
  | [] => True
  | (_, v) :: rest => v.Finite ∧ FiniteMembers rest

end

end Json

/-- The keys of a shape's entries are of a type for keys. -/
def Shape.IsProper : Shape → Prop
  | .map (.scalar s) _ => s.isKey = true
  | _ => True

theorem Shape.isProper_one (k : Kind) : (Shape.one k).IsProper := trivial

theorem Pool.isProper_shape {p : Pool} (hp : p.Compiled) (f : Field) : (p.shape f).IsProper := by
  cases hentry : p.mapEntry? f with
  | some entry =>
    obtain ⟨⟨g, s, h, hfields⟩, -⟩ := hp.isEntry hentry
    rw [shape_of_map hentry hfields]
    exact hfields.isKey
  | none =>
    cases hrepeated : f.isRepeated with
    | true =>
      rw [shape_of_list hrepeated hentry]
      exact trivial
    | false =>
      rw [shape_of_single hrepeated]
      exact trivial

theorem WellKnown.eq_of_ofName?_any {name : String} (h : WellKnown.ofName? name = some .any) :
    name = "google.protobuf.Any" := by
  obtain ⟨before, after, htable, -⟩ := List.lookup_eq_some_iff.1 h
  have hmem : (name, any) ∈ table := htable ▸ List.mem_append_right before List.mem_cons_self
  simpa [table] using hmem

namespace Message

section

variable {p : Pool} {m m' : Message} {v : Value}

theorem holds_enumOfJson (hp : p.Loaded) {name : String} {j : Json}
    (h : enumOfJson p name j = .ok v) : (Kind.enumeration name).Holds v := by
  have hzero : (Kind.enumeration name).Holds (.integer 0) := Scalar.zero_mem_range .int32
  unfold enumOfJson at h
  split_ifs at h
  · split at h
    · exact Except.ok.inj h ▸ hzero
    · split_ifs at h
      exact Except.ok.inj h ▸ hzero
    · cases h
  · split at h
    · split at h
      next value hvalue =>
        obtain ⟨files, hp⟩ := hp
        obtain ⟨e, he, hfind⟩ := Option.bind_eq_some_iff.1 hvalue
        exact Except.ok.inj h ▸ hp.origin.enums e (List.mem_of_find?_eq_some he) value
          (List.mem_of_find?_eq_some hfind)
      next => cases h
    · obtain ⟨i, hi, rfl⟩ := Except.fmap_eq_ok.1 h
      exact IntegerRange.mem_ofJson rfl hi
    · cases h

theorem fits_leafOfJson (hp : p.Compiled) {shape : Shape} {j : Json}
    (hj : ∀ x, j = .float x → x.isFinite = true) (h : leafOfJson p shape j = .ok v) :
    v.Fits p shape := by
  unfold leafOfJson at h
  split at h
  · cases h
  · cases h
  · exact .leaf (Scalar.holds_ofJson hj h)
  · exact .leaf (holds_enumOfJson hp.loaded h)
  · split at h
    · cases h
    · obtain ⟨r, -, h⟩ := Except.bind_eq_ok.1 h
      obtain ⟨m, hm, hv⟩ := Except.bind_eq_ok.1 h
      obtain ⟨hfits, rfl⟩ := fits_of_ofRaw hp hm
      exact Except.ok.inj hv ▸ .message hfits
  · split at h
    · cases h
    · obtain ⟨r, -, h⟩ := Except.bind_eq_ok.1 h
      obtain ⟨m, hm, hv⟩ := Except.bind_eq_ok.1 h
      obtain ⟨hfits, rfl⟩ := fits_of_ofRaw hp hm
      exact Except.ok.inj hv ▸ .group hfits

/-- A value that null makes of a field is one of its shape. -/
theorem fits_nullValue (hp : p.Compiled) {f : Field} (h : p.nullValue f = .ok (some v)) :
    v.Fits p (p.shape f) := by
  obtain ⟨k, hshape, hnull, hfits⟩ : ∃ k, (p.shape f = .one k ∨ p.shape f = .list k) ∧
      v.IsNull p k ∧ v.Fits p (.one k) := by
    unfold Pool.nullValue at h
    split at h
    next => cases h
    all_goals
      rename_i k hshape
      refine ⟨k, by simp [hshape], ?_⟩
      split at h
      next name =>
        split_ifs at h with hname
        · obtain ⟨m, hm, hv⟩ := Except.fmap_eq_ok.1 h
          obtain ⟨hfits, rfl⟩ := fits_of_ofRaw hp hm
          obtain rfl := Option.some.inj hv
          exact ⟨.inl ⟨congrArg Kind.message hname, m, hname ▸ hm, rfl⟩, .message hfits⟩
        · cases h
      next name =>
        have hv := Except.ok.inj h
        split_ifs at hv with hname
        obtain rfl := Option.some.inj hv
        exact ⟨.inr ⟨congrArg Kind.enumeration hname, rfl⟩, .leaf (Scalar.zero_mem_range .int32)⟩
      next => cases h
  obtain hshape | hshape := hshape
  · exact hshape ▸ hfits
  · exact hshape ▸ .null hnull hfits

/-- What a member makes of its field is one of the field's shape. -/
theorem fits_fieldOfJson (hp : p.Compiled) {f : Field} {j : Json}
    (hvalue : ∀ w, valueOfJson p (p.shape f) j = .ok w → w.Fits p (p.shape f))
    (h : fieldOfJson p f j = .ok (some v)) : v.Fits p (p.shape f) := by
  unfold fieldOfJson at h
  split at h
  · exact fits_nullValue hp h
  · obtain ⟨w, hw, hv⟩ := Except.fmap_eq_ok.1 h
    exact Option.some.inj hv ▸ hvalue w hw

theorem fits_putOnce (hp : p.Compiled) {key : String} {f : Field} (hm : m.Fits p)
    (hf : p.fieldOfKey? m.type key = some f) (hv : v.Fits p (p.shape f))
    (h : p.putOnce m f v = .ok m') : m'.Fits p := by
  obtain ⟨-, rfl⟩ := putOnce_eq_ok.1 h
  exact hm.put hp (hp.field?_of_fieldOfKey? hf) hv

/-- A message of any type is decoded from the wire, and so fits. -/
theorem fits_pack (hp : p.Compiled) {url : String} (h : pack p url m = .ok m') :
    m'.Fits p ∧ m'.type = "google.protobuf.Any" := fits_of_ofRaw hp h

end

section

variable {p : Pool}

/-- An object for a message of any type. -/
theorem fits_any (hp : p.Compiled) {name : String} {members : List (String × Json)}
    {k : Kind} (hk : k = .message name ∨ k = .group name)
    (hname : WellKnown.ofName? name = some .any) {v : Value}
    (h : valueOfJson p (.one k) (.object members) = .ok v) : v.Fits p (.one k) := by
  have hpack {url : String} {m : Message} (h : Value.record <$> pack p url m = .ok v) :
      v.Fits p (.one k) := by
    obtain ⟨m', hm', rfl⟩ := Except.fmap_eq_ok.1 h
    obtain ⟨hfits, htype⟩ := fits_pack hp hm'
    refine fits_record_of_kind hfits ?_
    rwa [htype, ← WellKnown.eq_of_ofName?_any hname]
  obtain rfl | rfl := hk <;> simp only [valueOfJson, hname] at h
  all_goals
    obtain ⟨⟨url, payload⟩, -, h⟩ := Except.bind_eq_ok.1 h
    dsimp only at h
    split at h
    · obtain ⟨payload?, -, h⟩ := Except.bind_eq_ok.1 h
      split at h
      · cases h
      · split at h
        · cases h
        · exact hpack h
    · obtain ⟨m, -, h⟩ := Except.bind_eq_ok.1 h
      exact hpack h

/-- An object for a message: its members make the message, unless its type has a form of its
own. -/
theorem fits_object (hp : p.Compiled) {name : String} {members : List (String × Json)} {k : Kind}
    (hk : k = .message name ∨ k = .group name)
    (hmembers : ∀ m, membersOfJson p false (.empty name) members = .ok m → m.Fits p) {v : Value}
    (h : valueOfJson p (.one k) (.object members) = .ok v) : v.Fits p (.one k) := by
  cases hw : WellKnown.ofName? name with
  | none =>
    have hrecord : Value.record <$> membersOfJson p false (.empty name) members = .ok v := by
      obtain rfl | rfl := hk <;> simpa only [valueOfJson, hw] using h
    obtain ⟨m, hm, rfl⟩ := Except.fmap_eq_ok.1 hrecord
    refine fits_record_of_kind (hmembers m hm) ?_
    rwa [type_of_membersOfJson hm]
  | some w =>
    by_cases hany : w = .any
    · exact fits_any hp hk (hany ▸ hw) h
    · refine fits_leafOfJson hp (j := .object members) (by simp) ?_
      obtain rfl | rfl := hk <;> cases w <;>
        first | exact absurd rfl hany | simpa only [valueOfJson, hw] using h

mutual

/-- A JSON value makes a value of the shape that it is read for. -/
theorem fits_valueOfJson (hp : p.Compiled) {shape : Shape} (hshape : shape.IsProper) {v : Value} :
    (j : Json) → j.Finite → valueOfJson p shape j = .ok v → v.Fits p shape
  | .object members, hj, h => by
    cases shape with
    | list k => exact fits_leafOfJson hp (by simp) h
    | map key value =>
      cases key with
      | scalar s =>
        rw [valueOfJson] at h
        obtain ⟨entries, hentries, rfl⟩ := Except.fmap_eq_ok.1 h
        exact fits_entriesOfJson hp (.map hshape (by simp) .nil (by simp)) members hj hentries
      | _ => exact fits_leafOfJson hp (by simp) h
    | one k =>
      have hmembers (name : String) (m : Message)
          (hm : membersOfJson p false (.empty name) members = .ok m) : m.Fits p :=
        fits_membersOfJson hp (fits_empty p name) members hj hm
      cases k with
      | message name => exact fits_object hp (.inl rfl) (hmembers name) h
      | group name => exact fits_object hp (.inr rfl) (hmembers name) h
      | scalar s => exact fits_leafOfJson hp (by simp) h
      | enumeration name =>
        simp only [valueOfJson] at h
        exact fits_leafOfJson hp (by simp) h
  | .array items, hj, h => by
    cases shape with
    | list k =>
      rw [valueOfJson] at h
      obtain ⟨values, hvalues, rfl⟩ := Except.fmap_eq_ok.1 h
      exact .list (fits_itemsOfJson hp items hj hvalues)
    | one k | map key value => exact fits_leafOfJson hp (by simp) h
  | .null, hj, h => fits_leafOfJson hp (by simp) h
  | .bool b, hj, h => fits_leafOfJson hp (by simp) h
  | .integer i, hj, h => fits_leafOfJson hp (by simp) h
  | .float x, hj, h => fits_leafOfJson hp (fun y hy => by cases hy; exact hj) h
  | .string s, hj, h => fits_leafOfJson hp (by simp) h

theorem fits_itemsOfJson (hp : p.Compiled) {k : Kind} {values : List Value} :
    (items : List Json) → Json.FiniteItems items → itemsOfJson p k items = .ok values →
      ∀ v ∈ values, v.Fits p (.one k)
  | [], hj, h => by
    rw [itemsOfJson] at h
    cases h
    exact fun v hv => nomatch hv
  | j :: rest, hj, h => by
    rw [itemsOfJson] at h
    obtain ⟨first, hfirst, h⟩ := Except.bind_eq_ok.1 h
    obtain ⟨more, hmore, h⟩ := Except.bind_eq_ok.1 h
    cases h
    intro v hv
    obtain rfl | hv := List.mem_cons.1 hv
    · exact fits_valueOfJson hp (Shape.isProper_one k) j hj.1 hfirst
    · exact fits_itemsOfJson hp rest hj.2 hmore v hv

theorem fits_entriesOfJson (hp : p.Compiled) {key : Scalar} {value : Kind}
    {entries after : List (Value × Value)}
    (hentries : (Value.map entries).Fits p (.map (.scalar key) value)) :
    (members : List (String × Json)) → Json.FiniteMembers members →
      entriesOfJson p key value entries members = .ok after →
      (Value.map after).Fits p (.map (.scalar key) value)
  | [], hj, h => by
    rw [entriesOfJson] at h
    cases h
    exact hentries
  | (k, j) :: rest, hj, h => by
    rw [entriesOfJson] at h
    obtain ⟨key', hkey, h⟩ := Except.bind_eq_ok.1 h
    obtain ⟨v, hv, h⟩ := Except.bind_eq_ok.1 h
    have hisKey : key.isKey = true := by
      cases hentries with
      | map hkey => exact hkey
    have hfits := hentries.insertEntry (Scalar.holds_ofKey hisKey hkey)
      (fits_valueOfJson hp (Shape.isProper_one value) j hj.1 hv)
    exact fits_entriesOfJson hp hfits rest hj.2 h

theorem fits_membersOfJson (hp : p.Compiled) {m m' : Message} (hm : m.Fits p) :
    (members : List (String × Json)) → Json.FiniteMembers members →
      membersOfJson p false m members = .ok m' → m'.Fits p
  | [], hj, h => by
    rw [membersOfJson] at h
    cases h
    exact hm
  | (key, j) :: rest, hj, h => by
    obtain ⟨f, hf, value?, hvalue, h⟩ := (membersOfJson_cons (by simp)).1 h
    cases value? with
    | none => exact fits_membersOfJson hp hm rest hj.2 h
    | some v =>
      obtain ⟨mid, hput, h⟩ := h
      have hv := fits_fieldOfJson hp
        (fun w hw => fits_valueOfJson hp (Pool.isProper_shape hp f) j hj.1 hw) hvalue
      exact fits_membersOfJson hp (fits_putOnce hp hm hf hv hput) rest hj.2 h

end

/-- The message that a JSON value stands for fits its type. -/
theorem fits_of_ofJson (hp : p.Compiled) {type : String} {j : Json} (hj : j.Finite) {m : Message}
    (h : ofJson p type j = .ok m) : m.Fits p ∧ m.type = type := by
  obtain ⟨v, hv, h⟩ := Except.bind_eq_ok.1 h
  have hfits := fits_valueOfJson hp (Shape.isProper_one _) j hj hv
  cases hfits with
  | leaf hleaf => exact hleaf.elim
  | message hm =>
    cases h
    exact ⟨hm, rfl⟩

end

/-! ## Members that make a message -/

section

variable {p : Pool} {m m' : Message} {members : List (String × Json)}

/-- The keys of two members name different fields, and not two of one oneof. -/
def Disjoint (p : Pool) (type : String) (x y : String × Json) : Prop :=
  ∀ f g, p.fieldOfKey? type x.1 = some f → p.fieldOfKey? type y.1 = some g →
    f.number ≠ g.number ∧ ∀ i ∈ f.oneofIndex, i ∉ g.oneofIndex

/-- No field of the oneof of a field is set. -/
def Open (p : Pool) (m : Message) (f : Field) : Prop :=
  ∀ i ∈ f.oneofIndex, ∀ n ∈ (p.messageType m.type).oneofNumbers i, m.get? n = none

theorem oneofTaken?_of_open {f : Field} (h : Open p m f) : p.oneofTaken? m f = none := by
  cases hi : f.oneofIndex with
  | none => rw [Pool.oneofTaken?, hi]
  | some i =>
    have hnone : (p.messageType m.type).declared.any
        (fun g => g.oneofIndex == some i && m.has p g) = false := by
      rw [List.any_eq_false]
      intro g hg hset
      obtain ⟨hgi, hset⟩ := Bool.and_eq_true_iff.1 hset
      have hunset := h i hi g.number (List.mem_map.2 ⟨g, List.mem_filter.2 ⟨hg, hgi⟩, rfl⟩)
      simp [has, hunset] at hset
    simp only [Pool.oneofTaken?, hi, hnone]
    rfl

/-- Members that make values of disjoint fields make a message. -/
theorem exists_membersOfJson (hp : p.Compiled) (hm : m.Fits p)
    (hread : ∀ x ∈ members, ∃ f v, p.fieldOfKey? m.type x.1 = some f ∧
      fieldOfJson p f x.2 = .ok (some v) ∧ v.Fits p (p.shape f))
    (hdisjoint : members.Pairwise (Disjoint p m.type))
    (hopen : ∀ x ∈ members, ∀ f, p.fieldOfKey? m.type x.1 = some f → Open p m f) :
    ∃ m', membersOfJson p false m members = .ok m' ∧ m'.Fits p := by
  induction members generalizing m with
  | nil => exact ⟨m, by rw [membersOfJson], hm⟩
  | cons x rest ih =>
    obtain ⟨key, j⟩ := x
    obtain ⟨hfirst, hrest⟩ := List.pairwise_cons.1 hdisjoint
    obtain ⟨f, v, hf, hj, hv⟩ := hread _ List.mem_cons_self
    have hput : p.putOnce m f v = .ok (m.put p f v) :=
      putOnce_eq_ok.2 ⟨oneofTaken?_of_open (hopen _ List.mem_cons_self f hf), rfl⟩
    have htype : (m.put p f v).type = m.type := type_put ..
    have hopen' : ∀ y ∈ rest, ∀ g, p.fieldOfKey? m.type y.1 = some g → Open p (m.put p f v) g := by
      intro y hy g hg i hi n hn
      rw [htype] at hn
      have hunset := hopen y (.tail _ hy) g hg i hi n hn
      by_cases hne : n = f.number
      · -- The field that was put is in no oneof with one that is still to come.
        subst hne
        have hown := (hp.loaded.mem_oneofNumbers_iff (hp.field?_of_fieldOfKey? hf)).1 hn
        exact absurd hi ((hfirst y hy f g hf hg).2 i hown)
      · rw [get?_of_putOnce hp.loaded hf hput hne, hunset]
    obtain ⟨m', hm', hfits⟩ := ih (m := m.put p f v) (hm.put hp (hp.field?_of_fieldOfKey? hf) hv)
      (htype ▸ fun y hy => hread y (.tail _ hy)) (htype ▸ hrest) (htype ▸ hopen')
    exact ⟨m', (membersOfJson_cons (by simp)).2 ⟨f, hf, _, hj, _, hput, hm'⟩, hfits⟩

theorem Disjoint.apart {type : String} {x y : String × Json} (h : Disjoint p type x y) :
    Apart p type x y :=
  fun f g hf hg => (h f g hf hg).1

/-- In a message of any type the member that says the type is passed over. -/
theorem membersOfJson_passType (h : membersOfJson p false m
      (members.filter fun x => x.1 ≠ typeKey) = .ok m') :
    membersOfJson p true m members = .ok m' := by
  induction members generalizing m with
  | nil =>
    rw [List.filter_nil, membersOfJson] at h
    rwa [membersOfJson]
  | cons x rest ih =>
    obtain ⟨key, j⟩ := x
    by_cases hkey : key = typeKey
    · rw [List.filter_cons_of_neg (by simpa using hkey)] at h
      rw [membersOfJson, if_pos ⟨rfl, hkey⟩]
      exact ih h
    · rw [List.filter_cons_of_pos (by simpa using hkey)] at h
      obtain ⟨f, hf, value?, hvalue, h⟩ := (membersOfJson_cons (by simp)).1 h
      refine (membersOfJson_cons (by simp [hkey])).2 ⟨f, hf, value?, hvalue, ?_⟩
      cases value? with
      | none => exact ih h
      | some v =>
        obtain ⟨mid, hput, h⟩ := h
        exact ⟨mid, hput, ih h⟩

end

end Message

end ServiceCall
