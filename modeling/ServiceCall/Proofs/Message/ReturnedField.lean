import ServiceCall.Proofs.Message.Json
import ServiceCall.Proofs.Message.Length
import ServiceCall.Proofs.Message.Members
import ServiceCall.Proofs.Message.ScalarJson
import ServiceCall.Proofs.Schema.Declared
import ServiceCall.Proofs.Schema.Standard
import ServiceCall.Proofs.WellKnown.Returned
/-!
# What fields hold is read back from JSON

What a field holds is read back from its JSON form as a value that has the same form again
(`Field.Returns`), if the messages in it are (`Message.ComesBack`). Scalars, enum values and
messages come first (`Value.Returns`), then lists, maps and the null that stands for a whole list;
`Field.exists_returns` has every field.
-/

namespace ServiceCall

open Wire (Raw RawRecord)

/-- A message is written as a JSON value, up to the signs of zeros, where messages of any type may
hold one another so often. -/
def Message.WrittenAs (p : Pool) (depth : Nat) (m : Message) (j : Json) : Prop :=
  ∃ j', Message.writeJson p (Message.payloadMembers p depth) m = .ok j' ∧ j.Alike j'

/-- A value is written as a JSON value, up to the signs of zeros. -/
def Value.WrittenAs (p : Pool) (depth : Nat) (k mapped : Kind) (v : Value) (j : Json) : Prop :=
  ∃ j', Message.valueToJson p (Message.payloadMembers p depth) k mapped v = .ok j' ∧ j.Alike j'

/-- The messages in a value are shorter on the wire. -/
def Value.Below (p : Pool) (depth : Nat) (v : Value) : Prop :=
  ∀ x, v.Encloses x → (x.encode p).length < depth

/-- The bytes that raw values take behind the key of a field, at most. -/
def Wire.Raw.room (raws : List Raw) : Nat := (raws.map fun r => r.write.length + 10).sum

/-- In the messages in a value no single value stands for a whole list. -/
def Value.Listed (p : Pool) (v : Value) : Prop := ∀ x, v.Encloses x → x.Listed p

/-- A message is read from the JSON form of another one of its type, and has that form too, also
when it was written to the wire and read back. -/
structure Message.Returns (p : Pool) (m : Message) (j : Json) (m' : Message) : Prop where
  read : Message.valueOfJson p (.one (.message m.type)) j = .ok (.record m')
  fits : m'.Fits p
  type : m'.type = m.type
  nesting : m'.nesting ≤ m.nesting
  length : (m'.encode p).length + 20 ≤ j.weight
  written : ∀ depth, (m'.encode p).length < depth → m'.WrittenAs p depth j
  reread : m.Listed p → ∀ depth, (m'.encode p).length < depth → (m'.reread p).WrittenAs p depth j

/-- Whatever JSON value a message is written as, a message is read back from it. -/
def Message.ComesBack (p : Pool) (payload : Message.PayloadWriter) (m : Message) : Prop :=
  ∀ j, Message.writeJson p payload m = .ok j → j.weight < 2 ^ 64 → ∃ m', m.Returns p j m'

/-- A single value is read from the JSON form of another one of its kind, and has that form too. -/
structure Value.Returns (p : Pool) (k : Kind) (v : Value) (j : Json) (v' : Value) : Prop where
  read : Message.valueOfJson p (.one k) j = .ok v'
  fits : v'.Fits p (.one k)
  nesting : v'.nesting ≤ v.nesting
  room : ∀ f : Field, f.kind = k → Raw.room (Message.rawValues p f v') ≤ j.weight
  leaf : k.Holds v' → Message.scalarToJson p k v' = j
  written : ∀ depth, v'.Below p depth → ∀ mapped, v'.WrittenAs p depth k mapped j
  reread : v.Listed p → ∀ depth, v'.Below p depth → ∀ mapped,
    (v'.reread p).WrittenAs p depth k mapped j

variable {p : Pool} {payload : Message.PayloadWriter} {f : Field} {k mapped : Kind} {v w : Value}
  {m m' : Message} {j : Json}

namespace Wire.Raw

theorem room_singleton (r : Raw) : room [r] = r.write.length + 10 := by simp [room]

theorem room_append (raws more : List Raw) : room (raws ++ more) = room raws + room more := by
  simp [room]

theorem room_cons (r : Raw) (raws : List Raw) :
    room (r :: raws) = r.write.length + 10 + room raws := by
  simp [room]

theorem length_writeFields_le {number : Nat} (h : number < 2 ^ 29) (raws : List Raw) :
    (writeFields (raws.map fun r => (number, r))).length ≤ room raws := by
  induction raws with
  | nil => exact Nat.le_refl _
  | cons r rest ih =>
    have := length_writeFields_cons_le h r (rest.map fun r => (number, r))
    rw [List.map_cons, room_cons]
    omega

theorem length_writeItems_le (raws : List Raw) : (writeItems raws).length ≤ room raws := by
  induction raws with
  | nil => exact Nat.le_refl _
  | cons r rest ih =>
    rw [writeItems, List.length_append, room_cons]
    omega

end Wire.Raw

/-- What a field takes with a value in it. -/
theorem Field.length_le (hnumber : f.number < 2 ^ 29) (v : Value) :
    f.length p v ≤ Raw.room (Message.rawValues p f v) := by
  rw [length, Message.present]
  split_ifs
  · exact Raw.length_writeFields_le hnumber _
  · exact Nat.zero_le _

/-! ## Scalars and enum values -/

theorem Kind.nesting_of_holds (h : k.Holds v) : v.nesting = 0 := by
  cases v with
  | record m => exact absurd h Kind.not_holds_record
  | list items => exact absurd h Kind.not_holds_list
  | map entries => exact absurd h Kind.not_holds_map
  | _ => rfl

namespace Message

theorem valueOfJson_scalar (s : Scalar) (j : Json) :
    valueOfJson p (.one (.scalar s)) j = s.ofJson j := by
  cases j <;> rw [valueOfJson] <;> first | rfl | nofun

theorem valueOfJson_enumeration (name : String) (j : Json) :
    valueOfJson p (.one (.enumeration name)) j = enumOfJson p name j := by
  cases j <;> rw [valueOfJson] <;> first | rfl | nofun

theorem valueOfJson_group (name : String) (j : Json) :
    valueOfJson p (.one (.group name)) j = valueOfJson p (.one (.message name)) j := by
  cases j <;> rw [valueOfJson, valueOfJson] <;> first | rfl | nofun

theorem valueToJson_record (k mapped : Kind) (m : Message) :
    valueToJson p payload k mapped (.record m) = writeJson p payload m := by
  rw [writeJson, valueToJson, valueToJson]

/-- The number of an enum value is read back from its JSON form; that of null is not told. -/
theorem exists_enumOfJson (hp : p.Loaded) (name : String) {i : Int}
    (hi : IntegerRange.int32.mem i = true) :
    ∃ i', enumOfJson p name (enumToJson p name i) = .ok (.integer i') ∧
      IntegerRange.int32.mem i' = true ∧ enumToJson p name i' = enumToJson p name i := by
  by_cases hnull : name = WellKnown.nullName
  · exact ⟨0, by rw [enumToJson, if_pos hnull, enumOfJson, if_pos hnull], rfl,
      by rw [enumToJson, if_pos hnull, enumToJson, if_pos hnull]⟩
  rw [enumToJson, if_neg hnull]
  cases hvalue : (p.referredEnum? name).bind (·.valueOf? i) with
  | none =>
    refine ⟨i, ?_, hi, by rw [enumToJson, if_neg hnull, hvalue]⟩
    have hbounds := IntegerRange.mem_iff.1 hi
    simp only [enumOfJson, if_neg hnull, IntegerRange.ofJson]
    rw [if_neg (by omega), if_neg (by omega)]
    rfl
  | some value =>
    obtain ⟨e, he, hv⟩ := Option.bind_eq_some_iff.1 hvalue
    obtain ⟨w, hw, hnumber⟩ := (hp.distinct_of_referredEnum? he).number_of_valueNamed? hv
    refine ⟨i, ?_, hi, by rw [enumToJson, if_neg hnull, hvalue]⟩
    simp only [enumOfJson, if_neg hnull, he, Option.bind_some, hw, hnumber]

end Message

/-- A scalar or an enum value has the same form when it is read back. -/
theorem Kind.exists_ofJson (hp : p.Loaded) (h : k.Holds v) :
    ∃ v', Message.valueOfJson p (.one k) (Message.scalarToJson p k v) = .ok v' ∧ k.Holds v' ∧
      Message.scalarToJson p k v' = Message.scalarToJson p k v := by
  cases k with
  | scalar s =>
    obtain ⟨v', hread, hholds, hjson, -⟩ := Scalar.exists_readsBack h
    exact ⟨v', by rw [Message.valueOfJson_scalar]; exact hread, hholds, hjson⟩
  | enumeration name =>
    cases v with
    | integer i =>
      obtain ⟨i', hread, hi', hjson⟩ := Message.exists_enumOfJson hp name h
      exact ⟨.integer i', by rw [Message.valueOfJson_enumeration]; exact hread, hi', hjson⟩
    | _ => exact h.elim
  | message name | group name => cases v <;> exact h.elim

open Wire in
/-- A scalar or an enum value takes fewer bytes than its JSON form weighs. -/
theorem Kind.length_rawScalar_le (h : k.Holds v)
    (hweight : (Message.scalarToJson p k v).weight < 2 ^ 64) :
    (Message.rawScalar k v).write.length + 10 ≤ (Message.scalarToJson p k v).weight := by
  cases k with
  | scalar s =>
    have := Scalar.length_toRaw_le h hweight
    exact Nat.le_trans (Nat.add_le_add_left (by decide) _) this
  | enumeration name =>
    cases v with
    | integer i =>
      have := length_writeVarint_le (ofSigned_lt 64 i)
      have := (Message.scalarToJson p (.enumeration name) (.integer i)).le_weight
      rw [Message.rawScalar, Raw.write]
      omega
    | _ => exact h.elim
  | message name | group name => cases v <;> exact h.elim

namespace Value

/-- Scalars and enum values are read back. -/
theorem exists_returns_of_holds (hp : p.Loaded) (h : k.Holds v)
    (hj : Message.valueToJson p payload k mapped v = .ok j) (hweight : j.weight < 2 ^ 64) :
    ∃ v', Returns p k v j v' := by
  obtain rfl := Except.ok.inj ((Message.valueToJson_of_holds h).symm.trans hj)
  obtain ⟨v', hread, hholds, hjson⟩ := Kind.exists_ofJson hp h
  have hwritten (depth : Nat) (mapped : Kind) :
      v'.WrittenAs p depth k mapped (Message.scalarToJson p k v) :=
    ⟨_, Message.valueToJson_of_holds hholds, hjson ▸ .refl _⟩
  refine ⟨v', hread, .leaf hholds, by rw [Kind.nesting_of_holds hholds]; exact Nat.zero_le _,
    fun f hf => ?_, fun _ => hjson, fun depth _ => hwritten depth, fun _ depth _ mapped => ?_⟩
  · subst hf
    rw [Message.rawValues_of_holds hholds, Raw.room_singleton, ← hjson]
    exact Kind.length_rawScalar_le hholds (hjson ▸ hweight)
  · rw [Message.reread_of_holds hholds]
    exact hwritten depth mapped

open Wire in
/-- A message is read back as a value if it is on its own. -/
theorem exists_returns_of_record (hk : k = .message m.type ∨ k = .group m.type)
    (hm : m.Returns p j m') (hweight : j.weight < 2 ^ 64) :
    Returns p k (.record m) j (.record m') := by
  have hlength := hm.length
  have hread : Message.valueOfJson p (.one k) j = .ok (.record m') := by
    obtain rfl | rfl := hk
    · exact hm.read
    · rw [Message.valueOfJson_group, hm.read]
  refine ⟨hread, ?_, Nat.succ_le_succ hm.nesting, fun f _ => ?_,
    fun h => absurd h Kind.not_holds_record, fun depth hbelow mapped => ?_,
    fun hlisted depth hbelow mapped => ?_⟩
  · obtain rfl | rfl := hk
    · exact hm.type ▸ .message hm.fits
    · exact hm.type ▸ .group hm.fits
  · rw [Message.rawValues, Raw.room_singleton]
    have hdelimited := length_writeDelimited_le (b := m'.encode p) (by omega)
    cases f.kind with
    | group name =>
      rw [Raw.write]
      exact Nat.le_trans (Nat.add_le_add_left (by decide : 10 ≤ 20) _) hlength
    | _ =>
      rw [Raw.write]
      refine Nat.le_trans (Nat.add_le_add_right hdelimited 10) hlength
  · rw [WrittenAs, Message.valueToJson_record]
    exact hm.written depth (hbelow m' (.record m'))
  · rw [reread, WrittenAs, Message.valueToJson_record]
    exact hm.reread (hlisted m (.record m)) depth (hbelow m' (.record m'))

/-- A single value is read back if the message in it is. -/
theorem exists_returns (hp : p.Loaded) (hv : v.Fits p (.one k))
    (hj : Message.valueToJson p payload k mapped v = .ok j) (hweight : j.weight < 2 ^ 64)
    (ih : ∀ m, v.Encloses m → m.ComesBack p payload) : ∃ v', Returns p k v j v' := by
  cases hv with
  | leaf h => exact exists_returns_of_holds hp h hj hweight
  | @message m hm =>
    rw [Message.valueToJson_record] at hj
    obtain ⟨m', hm'⟩ := ih m (.record m) j hj hweight
    exact ⟨_, exists_returns_of_record (.inl rfl) hm' hweight⟩
  | @group m hm =>
    rw [Message.valueToJson_record] at hj
    obtain ⟨m', hm'⟩ := ih m (.record m) j hj hweight
    exact ⟨_, exists_returns_of_record (.inr rfl) hm' hweight⟩

end Value

/-- What a field holds is read from the JSON form of what one of a message of its type holds, and
has that form too. -/
structure Field.Returns (p : Pool) (f : Field) (v : Value) (j : Json) (v' : Value) : Prop where
  read : Message.fieldOfJson p f j = .ok (some v')
  fits : v'.Fits p (p.shape f)
  isDefault : f.isRepeated = true → f.isDefault p v' = f.isDefault p v
  nesting : v'.nesting ≤ v.nesting
  length : f.length p v' ≤ j.weight
  default : f.isDefault p v' = true → ∀ depth,
    (p.fieldDefault f).WrittenAs p depth f.kind (Message.mapValueKind p f) j
  written : ∀ depth, v'.Below p depth →
    v'.WrittenAs p depth f.kind (Message.mapValueKind p f) j
  reread : f.Listed p v → ∀ depth, v'.Below p depth →
    (f.reread p v').WrittenAs p depth f.kind (Message.mapValueKind p f) j

/-! ## Null -/

theorem Scalar.ofJson_null (s : Scalar) (v : Value) : s.ofJson .null ≠ .ok v := by
  cases s <;> nofun

namespace Message

/-- Null makes of a single field what it stands for as a value. -/
theorem nullValue_of_valueOfJson (hgroup : ∀ name, f.kind = .group name → name ∉ WellKnown.names)
    (hshape : p.shape f = .one f.kind) (h : valueOfJson p (.one f.kind) .null = .ok v) :
    p.nullValue f = .ok (some v) := by
  unfold Pool.nullValue
  rw [hshape]
  dsimp only
  -- Of the types with a form of their own only that of any value takes null.
  have hmessage (name : String) (h : leafOfJson p (.one (.message name)) .null = .ok v) :
      name = WellKnown.valueName ∧
        ∃ m, ofRaw p name (Json.toRaw .null) = .ok m ∧ v = .record m := by
    rw [leafOfJson] at h
    cases hname : WellKnown.ofName? name with
    | none =>
      rw [hname] at h
      cases h
    | some w =>
      rw [hname] at h
      obtain ⟨r, hr, h⟩ := Except.bind_eq_ok.1 h
      obtain ⟨m, hm, hv⟩ := Except.bind_eq_ok.1 h
      have hvalue : w = .value ∧ r = Json.toRaw .null := by
        cases w with
        | value => exact ⟨rfl, (Except.ok.inj hr).symm⟩
        | wrapper s =>
          obtain ⟨u, hu, -⟩ := Except.bind_eq_ok.1 hr
          exact absurd hu (s.ofJson_null u)
        | _ => cases hr
      obtain ⟨rfl, rfl⟩ := hvalue
      exact ⟨WellKnown.type_of_ofName? hname, m, hm, (Except.pure_eq_ok.1 hv).symm⟩
  rw [valueOfJson] at h
  case x_1 => nofun
  case x_2 => nofun
  cases hkind : f.kind with
  | scalar s =>
    rw [hkind] at h
    exact absurd h (s.ofJson_null v)
  | enumeration name =>
    rw [hkind, leafOfJson, enumOfJson] at h
    dsimp only
    split_ifs at h with hname
    rw [if_pos hname, ← Except.ok.inj h]
  | message name =>
    obtain ⟨hname, m, hm, rfl⟩ := hmessage name (hkind ▸ h)
    dsimp only
    rw [if_pos hname, hm]
    rfl
  | group name =>
    obtain ⟨rfl, -⟩ := hmessage name (by rw [hkind] at h; exact h)
    exact absurd (by decide) (hgroup _ hkind)

/-- What a single field holds is read as a value is. -/
theorem fieldOfJson_single (hgroup : ∀ name, f.kind = .group name → name ∉ WellKnown.names)
    (hshape : p.shape f = .one f.kind) (h : valueOfJson p (.one f.kind) j = .ok v) :
    fieldOfJson p f j = .ok (some v) := by
  cases j with
  | null => exact nullValue_of_valueOfJson hgroup hshape h
  | _ =>
    rw [fieldOfJson, hshape, h]
    · rfl
    · intros; contradiction

end Message

theorem Value.Fits.holds_or_record (h : v.Fits p (.one k)) : k.Holds v ∨ ∃ m, v = .record m := by
  cases h with
  | leaf h => exact .inl h
  | message | group => exact .inr ⟨_, rfl⟩

theorem Value.alike_of_sameScalar (h : v.sameScalar w = true) :
    (Message.scalarToJson p k v).Alike (Message.scalarToJson p k w) := by
  obtain rfl | hzeros := Value.eq_or_zeros_of_sameScalar h
  · exact .refl _
  cases k with
  | scalar s => exact Scalar.alike_of_zeros hzeros
  | _ => cases v <;> cases w <;> first | exact hzeros.elim | exact .refl _

namespace Field

theorem holds_fieldDefault (hp : p.Loaded) (hf : f.WellFormed) (hsingle : f.isRepeated = false)
    (hv : f.kind.Holds v) : f.kind.Holds (p.fieldDefault f) := by
  rw [Pool.fieldDefault_of_single hsingle]
  cases hdefault : f.declaredDefault with
  | some w => exact hf.default w hdefault
  | none =>
    rw [Option.getD_none]
    cases hkind : f.kind with
    | scalar s => exact s.holds_fallback
    | enumeration name => exact Pool.holds_kindDefault hp name
    | message name | group name =>
      rw [hkind] at hv
      cases v <;> exact hv.elim

/-- Where a single value counts as unset, the default has the same form. -/
theorem writtenAs_default {v' : Value} (hp : p.Loaded) (hf : f.WellFormed)
    (hsingle : f.isRepeated = false) (h : v.Returns p f.kind j v')
    (hdefault : f.isDefault p v' = true) (depth : Nat) (mapped : Kind) :
    (p.fieldDefault f).WrittenAs p depth f.kind mapped j := by
  have hholds : f.kind.Holds v' := by
    obtain hholds | ⟨m, rfl⟩ := h.fits.holds_or_record
    · exact hholds
    · cases hdefault
  refine ⟨_, Message.valueToJson_of_holds (holds_fieldDefault hp hf hsingle hholds), ?_⟩
  rw [← h.leaf hholds]
  rw [isDefault_of_holds hholds] at hdefault
  exact Value.alike_of_sameScalar hdefault

/-- A single value is read back in its field. -/
theorem returns_of_single {v' : Value} (hp : p.Loaded) (hf : f.WellFormed)
    (hgroup : ∀ name, f.kind = .group name → name ∉ WellKnown.names)
    (hsingle : f.isRepeated = false) (h : v.Returns p f.kind j v') : f.Returns p v j v' := by
  have hshape : p.shape f = .one f.kind := Pool.shape_of_single hsingle
  refine ⟨Message.fieldOfJson_single hgroup hshape h.read, hshape ▸ h.fits,
    fun hrepeated => absurd (hrepeated.symm.trans hsingle) (by decide), h.nesting,
    Nat.le_trans (length_le hf.number_lt v') (h.room f rfl),
    fun hdefault depth => writtenAs_default hp hf hsingle h hdefault depth _,
    fun depth hbelow => h.written depth hbelow _,
    fun hlisted depth hbelow => ?_⟩
  rw [Message.reread_of_one h.fits, hsingle]
  exact h.reread hlisted.inner depth hbelow _

end Field

/-! ## Lists -/

/-- The items of a list are read from the JSON forms of other ones, and have these forms too. -/
structure Value.ReturnsItems (p : Pool) (k : Kind) (items : List Value) (js : List Json)
    (items' : List Value) : Prop where
  read : Message.itemsOfJson p k js = .ok items'
  fits : ∀ v ∈ items', v.Fits p (.one k)
  length_eq : items'.length = items.length
  nesting : nestingOfItems items' ≤ nestingOfItems items
  room : ∀ f : Field, f.kind = k → Raw.room (Message.rawItems p f items') ≤ Json.weightOfItems js
  written : ∀ depth, (∀ v ∈ items', v.Below p depth) →
    ∃ js', Message.itemsToJson p (Message.payloadMembers p depth) k items' = .ok js' ∧
      List.Forall₂ Json.Alike js js'
  reread : (∀ v ∈ items, v.Listed p) → ∀ depth, (∀ v ∈ items', v.Below p depth) →
    ∃ js', Message.itemsToJson p (Message.payloadMembers p depth) k (items'.map (·.reread p)) =
      .ok js' ∧ List.Forall₂ Json.Alike js js'

namespace Value

theorem returnsItems_nil (p : Pool) (k : Kind) : ReturnsItems p k [] [] [] where
  read := by rw [Message.itemsOfJson]
  fits := by simp
  length_eq := rfl
  nesting := Nat.le_refl _
  room f _ := by
    rw [Message.rawItems]
    exact Nat.zero_le _
  written depth _ := ⟨[], by rw [Message.itemsToJson], .nil⟩
  reread _ depth _ := ⟨[], by rw [List.map_nil, Message.itemsToJson], .nil⟩

theorem returnsItems_cons {v' : Value} {items items' : List Value} {js : List Json}
    (h : v.Returns p k j v') (hrest : ReturnsItems p k items js items') :
    ReturnsItems p k (v :: items) (j :: js) (v' :: items') where
  read := by
    rw [Message.itemsOfJson, h.read, hrest.read]
    rfl
  fits := List.forall_mem_cons.2 ⟨h.fits, hrest.fits⟩
  length_eq := by rw [List.length_cons, List.length_cons, hrest.length_eq]
  nesting := by
    have := h.nesting
    have := hrest.nesting
    rw [nestingOfItems, nestingOfItems]
    omega
  room f hf := by
    rw [Message.rawItems, Raw.room_append, Json.weightOfItems]
    exact Nat.add_le_add (h.room f hf) (hrest.room f hf)
  written depth hbelow := by
    obtain ⟨hfirst, hbelow⟩ := List.forall_mem_cons.1 hbelow
    obtain ⟨j', hj', halike⟩ := h.written depth hfirst k
    obtain ⟨js', hjs', hforms⟩ := hrest.written depth hbelow
    exact ⟨j' :: js', by rw [Message.itemsToJson, hj', hjs']; rfl, .cons halike hforms⟩
  reread hlisted depth hbelow := by
    obtain ⟨hfirst, hbelow⟩ := List.forall_mem_cons.1 hbelow
    obtain ⟨hlist, hlisted⟩ := List.forall_mem_cons.1 hlisted
    obtain ⟨j', hj', halike⟩ := h.reread hlist depth hfirst k
    obtain ⟨js', hjs', hforms⟩ := hrest.reread hlisted depth hbelow
    exact ⟨j' :: js', by rw [List.map_cons, Message.itemsToJson, hj', hjs']; rfl,
      .cons halike hforms⟩

/-- The items of a list are read back if the messages in them are. -/
theorem exists_returnsItems (hp : p.Loaded) {items : List Value} {js : List Json}
    (hv : ∀ v ∈ items, v.Fits p (.one k))
    (hjs : Message.itemsToJson p payload k items = .ok js)
    (hweight : Json.weightOfItems js < 2 ^ 64)
    (ih : ∀ m, (Value.list items).Encloses m → m.ComesBack p payload) :
    ∃ items', ReturnsItems p k items js items' := by
  induction items generalizing js with
  | nil =>
    rw [Message.itemsToJson] at hjs
    obtain rfl := Except.ok.inj hjs
    exact ⟨[], returnsItems_nil p k⟩
  | cons v rest hrest =>
    rw [Message.itemsToJson] at hjs
    obtain ⟨j, hj, hjs⟩ := Except.bind_eq_ok.1 hjs
    obtain ⟨more, hmore, hjs⟩ := Except.bind_eq_ok.1 hjs
    obtain rfl := Except.pure_eq_ok.1 hjs
    obtain ⟨hfirst, hv⟩ := List.forall_mem_cons.1 hv
    rw [Json.weightOfItems] at hweight
    obtain ⟨v', hv'⟩ := exists_returns hp hfirst hj (by omega)
      fun m hm => ih m (.item List.mem_cons_self hm)
    obtain ⟨items', hitems'⟩ := hrest hv hmore (by omega) fun m hm => by
      cases hm with
      | item hmem hm => exact ih m (.item (.tail _ hmem) hm)
    exact ⟨v' :: items', returnsItems_cons hv' hitems'⟩

end Value

namespace Field

open Wire in
/-- A list is read back in its field. -/
theorem returns_of_list (hf : f.WellFormed) (hrepeated : f.isRepeated = true)
    (hmap : p.mapEntry? f = none) {items items' : List Value} {js : List Json}
    (hweight : Json.weightOfItems js < 2 ^ 64) (h : Value.ReturnsItems p f.kind items js items') :
    f.Returns p (.list items) (.array js) (.list items') := by
  have hshape := Pool.shape_of_list hrepeated hmap
  have hroom := h.room f rfl
  have hwritten : ∀ depth, (Value.list items').Below p depth →
      (Value.list items').WrittenAs p depth f.kind (Message.mapValueKind p f) (.array js) := by
    intro depth hbelow
    obtain ⟨js', hjs', hforms⟩ := h.written depth fun v hv m hm => hbelow m (.item hv hm)
    exact ⟨.array js', by rw [Message.valueToJson, hjs']; rfl, .array hforms⟩
  refine ⟨?_, by rw [hshape]; exact .list h.fits, fun _ => ?_, h.nesting, ?_,
    fun hdefault depth => ?_, hwritten, fun hlisted depth hbelow => ?_⟩
  · rw [Message.fieldOfJson, hshape, Message.valueOfJson, h.read]
    · rfl
    · intros; contradiction
  · rw [isDefault, isDefault]
    cases items <;> cases items' <;> first | rfl | cases h.length_eq
  · refine Nat.le_trans (length_le hf.number_lt _) ?_
    rw [Message.rawValues, Json.weight]
    split_ifs
    · have hitems := Raw.length_writeItems_le (Message.rawItems p f items')
      have := length_writeDelimited_le
        (b := Raw.writeItems (Message.rawItems p f items')) (by omega)
      rw [Raw.room_singleton, Raw.write]
      omega
    · omega
  · obtain rfl : items' = [] := List.isEmpty_iff.1 hdefault
    rw [Pool.fieldDefault_of_list hrepeated hmap]
    exact hwritten depth fun m hm => by
      cases hm with
      | item hmem => cases hmem
  · obtain ⟨js', hjs', hforms⟩ := h.reread
      (fun v hv m hm => hlisted.inner m (.item hv hm)) depth fun v hv m hm => hbelow m (.item hv hm)
    exact ⟨.array js', by rw [reread, Message.valueToJson, hjs']; rfl, .array hforms⟩

end Field

/-! ## Maps -/

theorem Json.ascending_of_forall₂ {members members' : List (String × Json)}
    (h : Ascending members) (hforms : List.Forall₂ MemberAlike members members') :
    Ascending members' := by
  induction hforms with
  | nil => exact .nil
  | @cons x y rest rest' hxy hrest ih =>
    obtain ⟨hfirst, hascending⟩ := List.pairwise_cons.1 h
    refine List.pairwise_cons.2 ⟨fun z hz => ?_, ih hascending⟩
    obtain ⟨w, hw, hwz⟩ := hrest.exists_left hz
    have := hfirst w hw
    cases hxy
    cases hwz
    exact this

/-- An object whose members are in order compares as equal with that of members that do, one by
one. -/
theorem Json.alike_ofMembers {members members' : List (String × Json)} (h : Ascending members)
    (hforms : List.Forall₂ MemberAlike members members') :
    (Json.object members).Alike (ofMembers members') := by
  rw [ofMembers_eq, (ascending_of_forall₂ h hforms).sorted_eq]
  exact .object hforms

/-- The entries of a map are read from members, and written as members that compare as equal. -/
structure Value.ReturnsEntries (p : Pool) (f : Field) (s : Scalar) (k : Kind)
    (entries : List (Value × Value)) (members : List (String × Json))
    (entries' : List (Value × Value)) : Prop where
  read : ∀ before, (∀ a ∈ before, ∀ e ∈ entries, sameKey e.1 a.1 = false) →
    Message.entriesOfJson p s k before members = .ok (before ++ entries')
  keys : entries'.map (·.1) = entries.map (·.1)
  fits : ∀ e ∈ entries', e.2.Fits p (.one k)
  nesting : nestingOfEntries entries' ≤ nestingOfEntries entries
  room : Raw.room (Message.rawEntries p f entries') ≤ Json.weightOfMembers members
  written : ∀ depth, (∀ e ∈ entries', e.2.Below p depth) →
    ∃ members', Message.entriesToJson p (Message.payloadMembers p depth) k entries' =
      .ok members' ∧ List.Forall₂ Json.MemberAlike members members'
  reread : (∀ e ∈ entries, e.2.Listed p) → ∀ depth, (∀ e ∈ entries', e.2.Below p depth) →
    ∃ members', Message.entriesToJson p (Message.payloadMembers p depth) k
      (entries'.map (f.rereadEntry p)) = .ok members' ∧
        List.Forall₂ Json.MemberAlike members members'

namespace Value

variable {s : Scalar} {entry : MessageType} {g h : Field} {entries : List (Value × Value)}

theorem returnsEntries_nil (p : Pool) (f : Field) (s : Scalar) (k : Kind) :
    ReturnsEntries p f s k [] [] [] where
  read before _ := by rw [Message.entriesOfJson, List.append_nil]
  keys := rfl
  fits := by simp
  nesting := Nat.le_refl _
  room := by
    rw [Message.rawEntries]
    exact Nat.zero_le _
  written depth _ := ⟨[], by rw [Message.entriesToJson], .nil⟩
  reread _ depth _ := ⟨[], by rw [List.map_nil, Message.entriesToJson], .nil⟩

open Wire in
/-- The raw value of an entry takes fewer bytes than its member weighs. -/
theorem length_entry_le (hfields : entry.HasEntry g s h)
    (hg : g.WellFormed) (hh : h.WellFormed) {e : Value × Value} (hkey : s.isKey = true)
    (hholds : s.Holds e.1) (hvalue : Raw.room (Message.rawValues p h e.2) ≤ j.weight)
    (hweight : 64 + 32 * e.1.keyText.length + j.weight < 2 ^ 64) :
    (Raw.record (Message.entryFields p g h e.1 e.2)).write.length + 10 ≤
      64 + 32 * e.1.keyText.length + j.weight := by
  have hgkind : g.kind.Holds e.1 := by rw [hfields.kind]; exact hholds
  have hfirst : g.length p e.1 ≤ 4 * e.1.keyText.length + 20 := by
    refine Nat.le_trans (Field.length_le hg.number_lt _) ?_
    rw [Message.rawValues_of_holds hgkind, Raw.room_singleton, hfields.kind]
    exact Nat.add_le_add_right (Scalar.length_key_le hkey hholds (by omega)) 10
  have hsecond : h.length p e.2 ≤ j.weight := Nat.le_trans (Field.length_le hh.number_lt _) hvalue
  have hboth : (Raw.writeFields (Message.entryFields p g h e.1 e.2)).length =
      g.length p e.1 + h.length p e.2 := by
    rw [Message.entryFields, writeFields_append, List.length_append, Field.length, Field.length]
  have := length_write_record_le (r := Message.entryFields p g h e.1 e.2) (by omega)
  omega

theorem rawEntries_cons (hentry : p.mapEntry? f = some entry) (hfields : entry.HasEntry g s h)
    (e : Value × Value) (rest : List (Value × Value)) : Message.rawEntries p f (e :: rest) =
      .record (Message.entryFields p g h e.1 e.2) :: Message.rawEntries p f rest := by
  obtain ⟨hname, -⟩ := Pool.messageType_of_mapEntry? hentry
  obtain ⟨k, v⟩ := e
  rw [Message.rawEntries, hname]
  simp only [hfields.key, hfields.value, Message.entryFields]

theorem returnsEntries_cons (hp : p.Loaded) (hentry : p.mapEntry? f = some entry)
    (hfields : entry.HasEntry g s h) (hg : g.WellFormed) (hh : h.WellFormed)
    (hkey : s.isKey = true) {key v' : Value} {entries' : List (Value × Value)}
    {members : List (String × Json)} (hholds : s.Holds key)
    (hapart : ∀ e ∈ entries, sameKey key e.1 = false)
    (hweight : 64 + 32 * key.keyText.length + j.weight < 2 ^ 64)
    (hv : v.Returns p h.kind j v') (hrest : ReturnsEntries p f s h.kind entries members entries') :
    ReturnsEntries p f s h.kind ((key, v) :: entries) ((key.keyText, j) :: members)
      ((key, v') :: entries') where
  read before hbefore := by
    rw [Message.entriesOfJson, Scalar.ofKey_keyText hkey hholds]
    simp only [Bind.bind, Except.bind, hv.read]
    rw [Message.insertEntry_of_apart fun a ha => hbefore a ha _ List.mem_cons_self,
      hrest.read, List.append_assoc, List.singleton_append]
    intro a ha e he
    obtain ha | ha := List.mem_append.1 ha
    · exact hbefore a ha e (.tail _ he)
    · rw [List.mem_singleton.1 ha, sameKey_comm]
      exact hapart e he
  keys := by rw [List.map_cons, List.map_cons, hrest.keys]
  fits := List.forall_mem_cons.2 ⟨hv.fits, hrest.fits⟩
  nesting := by
    have := hv.nesting
    have := hrest.nesting
    rw [nestingOfEntries, nestingOfEntries]
    omega
  room := by
    have hfirst := length_entry_le hfields hg hh (e := (key, v')) hkey hholds (hv.room h rfl)
      hweight
    have := hrest.room
    rw [rawEntries_cons hentry hfields, Raw.room_cons, Json.weightOfMembers]
    exact Nat.add_le_add hfirst this
  written depth hbelow := by
    obtain ⟨hfirst, hbelow⟩ := List.forall_mem_cons.1 hbelow
    obtain ⟨j', hj', halike⟩ := hv.written depth hfirst h.kind
    obtain ⟨members', hmembers', hforms⟩ := hrest.written depth hbelow
    exact ⟨(key.keyText, j') :: members', by rw [Message.entriesToJson, hj', hmembers']; rfl,
      .cons (.mk halike) hforms⟩
  reread hlisted depth hbelow := by
    obtain ⟨hfirst, hbelow⟩ := List.forall_mem_cons.1 hbelow
    obtain ⟨hlist, hlisted⟩ := List.forall_mem_cons.1 hlisted
    obtain ⟨j', hj', halike⟩ : (h.rereadOne p v').WrittenAs p depth h.kind h.kind j := by
      rw [Field.rereadOne]
      split_ifs with hset
      · exact hv.reread hlist depth hfirst h.kind
      · have hdefault : h.hasPresence = false ∧ h.isDefault p v' = true := by simpa using hset
        exact Field.writtenAs_default hp hh hfields.valueSingle hv hdefault.2 depth h.kind
    obtain ⟨members', hmembers', hforms⟩ := hrest.reread hlisted depth hbelow
    refine ⟨(key.keyText, j') :: members', ?_, .cons (.mk halike) hforms⟩
    rw [List.map_cons, Message.rereadEntry_eq hentry hfields, Message.entriesToJson, hj', hmembers']
    rfl

/-- A map is written as a member for each of its entries. -/
theorem forall₂_of_entriesToJson {members : List (String × Json)}
    (h : Message.entriesToJson p payload k entries = .ok members) :
    List.Forall₂ (fun e x => e.1.keyText = x.1 ∧ Message.valueToJson p payload k k e.2 = .ok x.2)
      entries members := by
  induction entries generalizing members with
  | nil =>
    rw [Message.entriesToJson] at h
    obtain rfl := Except.ok.inj h
    exact .nil
  | cons e rest ih =>
    rw [Message.entriesToJson] at h
    obtain ⟨j, hj, h⟩ := Except.bind_eq_ok.1 h
    obtain ⟨more, hmore, h⟩ := Except.bind_eq_ok.1 h
    obtain rfl := Except.pure_eq_ok.1 h
    exact .cons ⟨rfl, hj⟩ (ih hmore)

/-- The entries of a map are read back if the messages in them are. -/
theorem exists_returnsEntries (hp : p.Loaded) (hentry : p.mapEntry? f = some entry)
    (hfields : entry.HasEntry g s h) (hg : g.WellFormed) (hh : h.WellFormed)
    {members : List (String × Json)} (hkeys : ∀ e ∈ entries, s.Holds e.1)
    (hv : ∀ e ∈ entries, e.2.Fits p (.one h.kind)) (hapart : KeysApart entries)
    (hforms : List.Forall₂ (fun e x => e.1.keyText = x.1 ∧
      Message.valueToJson p payload h.kind h.kind e.2 = .ok x.2) entries members)
    (hweight : Json.weightOfMembers members < 2 ^ 64)
    (ih : ∀ m, (Value.map entries).Encloses m → m.ComesBack p payload) :
    ∃ entries', ReturnsEntries p f s h.kind entries members entries' := by
  induction hforms with
  | nil => exact ⟨[], returnsEntries_nil p f s h.kind⟩
  | @cons e x rest more hx hmore hrest =>
    obtain ⟨key, v⟩ := e
    obtain ⟨name, j⟩ := x
    obtain ⟨rfl, hj⟩ := hx
    obtain ⟨hkey, hkeys⟩ := List.forall_mem_cons.1 hkeys
    obtain ⟨hfirst, hv⟩ := List.forall_mem_cons.1 hv
    obtain ⟨hkeyApart, hapart⟩ := List.pairwise_cons.1 hapart
    rw [Json.weightOfMembers] at hweight
    dsimp only at hj hweight
    obtain ⟨v', hv'⟩ := exists_returns hp hfirst hj (by omega)
      fun m hm => ih m (.entry List.mem_cons_self hm)
    obtain ⟨entries', hentries'⟩ := hrest hkeys hv hapart (by omega) fun m hm => by
      cases hm with
      | entry hmem hm => exact ih m (.entry (.tail _ hmem) hm)
    exact ⟨(key, v') :: entries', returnsEntries_cons hp hentry hfields hg hh hfields.isKey hkey
      hkeyApart (by omega) hv' hentries'⟩

theorem nestingOfEntries_of_perm {ordered : List (Value × Value)} (h : entries.Perm ordered) :
    nestingOfEntries entries = nestingOfEntries ordered := by
  induction h with
  | nil => rfl
  | cons e _ ih => rw [nestingOfEntries, nestingOfEntries, ih]
  | swap a b rest =>
    simp only [nestingOfEntries]
    exact Nat.max_left_comm ..
  | trans _ _ ih ih' => exact ih.trans ih'

theorem KeysApart.of_perm {ordered : List (Value × Value)} (h : KeysApart entries)
    (hperm : entries.Perm ordered) : KeysApart ordered :=
  (hperm.pairwise_iff fun hab => (sameKey_comm _ _).trans hab).1 h

theorem KeysApart.of_keys {entries' : List (Value × Value)} (h : KeysApart entries)
    (hkeys : entries'.map (·.1) = entries.map (·.1)) : KeysApart entries' :=
  List.pairwise_map.1 (hkeys ▸ List.pairwise_map.2 h :
    (entries'.map (·.1)).Pairwise fun a b => sameKey a b = false)

theorem sameKey_self {key : Value} (hkey : s.isKey = true) (hholds : s.Holds key) :
    sameKey key key = true := by
  cases s <;> cases key <;> first | exact hholds.elim | exact beq_self_eq_true _ | cases hkey

/-- The texts of different keys differ. -/
theorem nodup_keyText (hkey : s.isKey = true) (hkeys : ∀ e ∈ entries, s.Holds e.1)
    (hapart : KeysApart entries) : (entries.map (·.1.keyText)).Nodup := by
  refine List.pairwise_map.2 (hapart.imp_of_mem fun ha hb hab htext => ?_)
  have hread := Scalar.ofKey_keyText hkey (hkeys _ ha)
  rw [htext, Scalar.ofKey_keyText hkey (hkeys _ hb)] at hread
  rw [Except.ok.inj hread, sameKey_self hkey (hkeys _ ha)] at hab
  cases hab

end Value

namespace Field

variable {s : Scalar} {entry : MessageType} {g h : Field} {entries : List (Value × Value)}

/-- A map is read back in its field, with its entries in the order of the members. -/
theorem returns_of_map (hf : f.WellFormed) (hentry : p.mapEntry? f = some entry)
    (hfields : entry.HasEntry g s h) {ordered entries' : List (Value × Value)}
    {members : List (String × Json)} (hkeys : ∀ e ∈ entries, s.Holds e.1)
    (hapart : Value.KeysApart entries) (hperm : entries.Perm ordered)
    (hascending : Json.Ascending members)
    (hr : Value.ReturnsEntries p f s h.kind ordered members entries') :
    f.Returns p (.map entries) (.object members) (.map entries') := by
  have hshape := Pool.shape_of_map hentry hfields
  have hmapped : Message.mapValueKind p f = h.kind := by rw [Message.mapValueKind, hshape]
  have hkept : ∀ e ∈ entries', s.Holds e.1 := fun e he => by
    obtain ⟨a, ha, hae⟩ := List.mem_map.1 (hr.keys ▸ List.mem_map_of_mem he)
    exact hae ▸ hkeys a (hperm.mem_iff.2 ha)
  have hwritten : ∀ depth, (Value.map entries').Below p depth →
      (Value.map entries').WrittenAs p depth f.kind (Message.mapValueKind p f)
        (.object members) := by
    intro depth hbelow
    obtain ⟨members', hmembers', hforms⟩ := hr.written depth fun e he m hm =>
      hbelow m (.entry he hm)
    exact ⟨_, by rw [hmapped, Message.valueToJson, hmembers']; rfl,
      Json.alike_ofMembers hascending hforms⟩
  refine ⟨?_, hshape ▸ .map hfields.isKey hkept ?_ hr.fits, fun _ => ?_, ?_, ?_,
    fun hdefault depth => ?_, hwritten, fun hlisted depth hbelow => ?_⟩
  · rw [Message.fieldOfJson, hshape, Message.valueOfJson, hr.read [] (by simp)]
    · rfl
    · intros; contradiction
  · exact (hapart.of_perm hperm).of_keys hr.keys
  · have hlength := congrArg List.length hr.keys
    rw [List.length_map, List.length_map, ← hperm.length_eq] at hlength
    exact isEmpty_eq hlength
  · rw [Value.nesting, Value.nesting, Value.nestingOfEntries_of_perm hperm]
    exact hr.nesting
  · refine Nat.le_trans (length_le hf.number_lt _) ?_
    rw [Message.rawValues, Json.weight]
    exact Nat.le_trans hr.room (Nat.le_add_left _ _)
  · obtain rfl : entries' = [] := List.isEmpty_iff.1 hdefault
    rw [Pool.fieldDefault_of_map hentry]
    exact hwritten depth fun m hm => by
      cases hm with
      | entry hmem => cases hmem
  · obtain ⟨members', hmembers', hforms⟩ := hr.reread
      (fun e he m hm => hlisted.inner m (.entry (hperm.mem_iff.2 he) hm)) depth
      fun e he m hm => hbelow m (.entry he hm)
    exact ⟨_, by rw [reread, hmapped, Message.valueToJson, hmembers']; rfl,
      Json.alike_ofMembers hascending hforms⟩

/-- A map is read back if the messages in it are. -/
theorem exists_returns_of_map (hp : p.Loaded) (hf : f.WellFormed)
    (hentry : p.mapEntry? f = some entry) (hfields : entry.HasEntry g s h)
    (hkeys : ∀ e ∈ entries, s.Holds e.1) (hv : ∀ e ∈ entries, e.2.Fits p (.one h.kind))
    (hapart : Value.KeysApart entries)
    (hj : Message.valueToJson p payload f.kind (Message.mapValueKind p f) (.map entries) = .ok j)
    (hweight : j.weight < 2 ^ 64)
    (ih : ∀ m, (Value.map entries).Encloses m → m.ComesBack p payload) :
    ∃ v', f.Returns p (.map entries) j v' := by
  have hmapped : Message.mapValueKind p f = h.kind := by
    rw [Message.mapValueKind, Pool.shape_of_map hentry hfields]
  obtain ⟨hname, -⟩ := Pool.messageType_of_mapEntry? hentry
  have hpart {number : Nat} {x : Field} (hx : entry.field? number = some x) : x.WellFormed :=
    hp.wellFormed_of_field? (Pool.field?_of_messageType (hname.symm ▸ hx :
      (p.messageType f.kind.name).field? number = some x))
  rw [hmapped, Message.valueToJson] at hj
  obtain ⟨members, hmembers, rfl⟩ := Except.map_eq_ok.1 hj
  have hforms := Value.forall₂_of_entriesToJson hmembers
  have hnames : entries.map (·.1.keyText) = members.map (·.1) := by
    rw [← List.forall₂_eq_eq_eq, List.forall₂_map_left_iff, List.forall₂_map_right_iff]
    exact hforms.imp fun _ _ hx => hx.1
  have hnodup : (members.map (·.1)).Nodup :=
    hnames ▸ Value.nodup_keyText hfields.isKey hkeys hapart
  -- The members stand in the order of their keys, and the entries are put into that order too.
  obtain ⟨sorted, hsorted, hperm⟩ := Json.exists_ofMembers hnodup
  have hascending : Json.Ascending sorted := by
    rw [Json.ofMembers_eq] at hsorted
    exact Json.object.inj hsorted ▸ Json.ascending_sorted members
  obtain ⟨ordered, hordered, hback⟩ := List.perm_comp_forall₂ hperm hforms.flip
  rw [hsorted] at hweight ⊢
  rw [Json.weight] at hweight
  have hmem {e : Value × Value} (he : e ∈ ordered) : e ∈ entries := hback.mem_iff.1 he
  obtain ⟨entries', hentries'⟩ := Value.exists_returnsEntries hp hentry hfields
    (hpart hfields.key) (hpart hfields.value) (fun e he => hkeys e (hmem he))
    (fun e he => hv e (hmem he)) (hapart.of_perm hback.symm) hordered.flip (by omega)
    fun m hm => ih m (by
      cases hm with
      | entry he hm => exact .entry (hmem he) hm)
  exact ⟨_, returns_of_map hf hentry hfields hkeys hapart hback.symm hascending hentries'⟩

/-! ## Null for a list -/

open Wire in
/-- Null that stands for a whole list is read back. -/
theorem returns_of_null (hp : p.Compiled) (hf : f.WellFormed) (hrepeated : f.isRepeated = true)
    (hmap : p.mapEntry? f = none)
    (hknows : f.kind = .message WellKnown.valueName → ∀ n ∈ WellKnown.structNames, p.Knows n)
    (hnull : v.IsNull p f.kind) (hv : v.Fits p (.one f.kind))
    (hj : Message.valueToJson p payload f.kind (Message.mapValueKind p f) v = .ok j) :
    f.Returns p v j v := by
  have hshape := Pool.shape_of_list hrepeated hmap
  -- Neither null is a list, and both are written as null, whatever messages of any type hold.
  obtain ⟨hread, hwrite, hroom, hmany, hdefault⟩ : p.nullValue f = .ok (some v) ∧
      (∀ payload, Message.valueToJson p payload f.kind (Message.mapValueKind p f) v = .ok .null) ∧
      Raw.room (Message.rawValues p f v) ≤ 64 ∧ ¬v.IsMany ∧ f.isDefault p v = false := by
    obtain ⟨hkind, m, hm, rfl⟩ | ⟨hkind, rfl⟩ := hnull
    · obtain ⟨htype, hraw, hjson⟩ := WellKnown.toJson_of_ofRaw_null hp (hknows hkind) hm
      refine ⟨?_, fun payload => ?_, ?_, fun h => h, rfl⟩
      · rw [Pool.nullValue, hshape, hkind]
        dsimp only
        rw [if_pos rfl, hm]
        rfl
      · rw [Message.valueToJson, htype]
        exact hjson
      · have hfields := Json.length_toRaw_le .null (by decide)
        rw [Json.weight] at hfields
        have hrecord := length_write_record_le (r := Json.toRaw .null) (by omega)
        rw [Message.rawValues, hkind, hraw, Raw.room_singleton]
        dsimp only
        omega
    · refine ⟨?_, fun payload => ?_, ?_, fun h => h, ?_⟩
      · rw [Pool.nullValue, hshape, hkind]
        dsimp only
        rw [if_pos rfl]
      · rw [Message.valueToJson, hkind]
        rfl
      · have hzero := length_writeVarint_le (ofSigned_lt 64 0)
        rw [Message.rawValues, hkind, Raw.room_singleton, Message.rawScalar, Raw.write]
        omega
      · change Value.sameScalar (.integer 0) (p.fieldDefault f) = false
        rw [Pool.fieldDefault_of_list hrepeated hmap]
        rfl
  obtain rfl := Except.ok.inj ((hwrite payload).symm.trans hj)
  exact ⟨hread, hshape ▸ .null hnull hv, fun _ => rfl, Nat.le_refl _,
    Nat.le_trans (length_le hf.number_lt v) hroom,
    fun h => absurd (h.symm.trans hdefault) (by decide),
    fun depth _ => ⟨_, hwrite _, .refl _⟩, fun hlisted => absurd (hlisted.own hrepeated) hmany⟩

/-! ## Fields -/

/-- What a field holds is read back if the messages in it are. -/
theorem exists_returns (hp : p.Compiled) (hs : p.Standard) {type : String}
    (hf : p.field? type f.number = some f) (hv : v.Fits p (p.shape f))
    (hknown : ∀ x, v.Encloses x → (p.referredMessage? x.type).isSome = true)
    (hj : Message.valueToJson p payload f.kind (Message.mapValueKind p f) v = .ok j)
    (hweight : j.weight < 2 ^ 64) (ih : ∀ m, v.Encloses m → m.ComesBack p payload) :
    ∃ v', f.Returns p v j v' := by
  have hwell := hp.loaded.wellFormed_of_field? hf
  cases hrepeated : f.isRepeated with
  | false =>
    rw [Pool.shape_of_single hrepeated] at hv
    obtain ⟨v', hv'⟩ := Value.exists_returns hp.loaded hv hj hweight ih
    exact ⟨v', returns_of_single hp.loaded hwell
      (fun name => hs.groups f (Pool.mem_fields_of_field? hf) name) hrepeated hv'⟩
  | true =>
    cases hentry : p.mapEntry? f with
    | some entry =>
      obtain ⟨⟨g, s, h, hfields⟩, -⟩ := hp.isEntry hentry
      rw [Pool.shape_of_map hentry hfields] at hv
      cases hv with
      | map _ hkeys hapart hvalues =>
        exact exists_returns_of_map hp.loaded hwell hentry hfields hkeys hvalues hapart hj
          hweight ih
    | none =>
      rw [Pool.shape_of_list hrepeated hentry] at hv
      cases hv with
      | @list _ items hitems =>
        rw [Message.valueToJson] at hj
        obtain ⟨js, hjs, rfl⟩ := Except.map_eq_ok.1 hj
        rw [Json.weight] at hweight
        obtain ⟨items', hitems'⟩ :=
          Value.exists_returnsItems hp.loaded hitems hjs (by omega) ih
        exact ⟨_, returns_of_list hwell hrepeated hentry (by omega) hitems'⟩
      | null hnull hone =>
        refine ⟨v, returns_of_null hp hwell hrepeated hentry (fun hkind => ?_) hnull hone hj⟩
        rw [hkind] at hone
        obtain ⟨m, rfl, -, htype⟩ := Message.exists_record hone
        have hfamily := hs.knows m.type (htype ▸ by decide) (hknown m (.record m))
        rwa [WellKnown.family, if_pos (htype ▸ by decide)] at hfamily

end Field

end ServiceCall
