import ServiceCall.Invoker
import ServiceCall.Proofs.Json.Members
import ServiceCall.Proofs.Message.Put
import ServiceCall.Proofs.Wire.Record
/-!
# Positional arguments

Arguments are put under the names of the parameters, and these names are then looked up as
keys of JSON. So an argument reaches its parameter only if no key on the way means something
else: no other field has the name as its JSON name, and the input is no type with a form of
its own that takes the object in another way (`Straight`). Then every argument is what its
parameter holds (`Agrees`), whatever the arguments are; where one name is another field's JSON
name there are arguments that go astray.
-/

namespace ServiceCall

/-- A proxy that also keeps a list of its calls. -/
def Proxy.recorded {World : Type} (q : Proxy World) : Proxy (World × List (Method × Message)) where
  call method m w :=
    let (result, world) := q.call method m w.1
    (result, world, w.2 ++ [(method, m)])

/-- A proxy that answers with what it is sent. -/
def Proxy.echo : Proxy Unit := ⟨fun _ m w => (.ok m, w)⟩

namespace Invoker

variable {World : Type}

/-- The invoker whose proxy keeps a list of its calls. -/
def recorded (i : Invoker World) : Invoker (World × List (Method × Message)) :=
  ⟨i.pool, i.method, i.proxy.recorded⟩

/-- A message holds what every argument makes of its parameter, and nothing else. -/
structure Agrees (p : Pool) (parameters : List Field) (args : List Json) (m : Message) : Prop where
  holds : ∀ (k : Nat) (f : Field) (a : Json), parameters[k]? = some f → args[k]? = some a →
    Message.fieldOfJson p f a = .ok (m.get? f.number)
  unset : ∀ n, n ∉ (parameters.take args.length).map (·.number) → m.get? n = none

/-- The names of the first fields of a type reach these fields when they are taken as the keys of
an object. -/
structure Straight (p : Pool) (type : String) (count : Nat) : Prop where
  plain : WellKnown.ofName? type = none →
    ∀ f ∈ (p.messageType type).fields.take count, ∀ g ∈ (p.messageType type).fields,
      g.jsonName = f.name → g.number = f.number
  any : WellKnown.ofName? type = some .any →
    Message.typeKey ∉ ((p.messageType type).fields.take count).map (·.name)
  struct : WellKnown.ofName? type = some .struct → count = 0
  value : WellKnown.ofName? type ≠ some .value

instance (p : Pool) (type : String) (count : Nat) : Decidable (Straight p type count) :=
  decidable_of_iff
    ((WellKnown.ofName? type = none →
        ∀ f ∈ (p.messageType type).fields.take count, ∀ g ∈ (p.messageType type).fields,
          g.jsonName = f.name → g.number = f.number) ∧
      (WellKnown.ofName? type = some .any →
        Message.typeKey ∉ ((p.messageType type).fields.take count).map (·.name)) ∧
      (WellKnown.ofName? type = some .struct → count = 0) ∧
      WellKnown.ofName? type ≠ some .value)
    ⟨fun h => ⟨h.1, h.2.1, h.2.2.1, h.2.2.2⟩, fun h => ⟨h.plain, h.any, h.struct, h.value⟩⟩

/-! ## The object of the arguments -/

theorem keys_zip (fields : List Field) (args : List Json) :
    ((fields.map (·.name)).zip args).map (·.1) = (fields.take args.length).map (·.name) := by
  induction fields generalizing args with
  | nil => simp
  | cons f rest ih =>
    cases args with
    | nil => simp
    | cons a args => simp [ih]

theorem mem_zip {fields : List Field} {args : List Json} {k : Nat} {f : Field} {a : Json}
    (hf : fields[k]? = some f) (ha : args[k]? = some a) :
    (f.name, a) ∈ (fields.map (·.name)).zip args := by
  refine List.mem_of_getElem? (i := k) ?_
  rw [List.getElem?_zip_eq_some, List.getElem?_map, hf]
  exact ⟨rfl, ha⟩

theorem exists_name_of_mem_zip {fields : List Field} {args : List Json} {x : String × Json}
    (hx : x ∈ (fields.map (·.name)).zip args) : ∃ f ∈ fields.take args.length, f.name = x.1 := by
  have hkey : x.1 ∈ ((fields.map (·.name)).zip args).map (·.1) := List.mem_map_of_mem hx
  rw [keys_zip] at hkey
  exact List.mem_map.1 hkey

variable {p : Pool} {type : String}

theorem nodup_name_fields (hp : p.Loaded) (type : String) :
    ((p.messageType type).fields.map (·.name)).Nodup :=
  ((p.messageType type).fields_perm.map _).nodup_iff.2 (hp.nodup_name type)

theorem nodup_number_fields (hp : p.Loaded) (type : String) :
    ((p.messageType type).fields.map (·.number)).Nodup :=
  ((p.messageType type).fields_perm.map _).nodup_iff.2 (hp.wellFormed_messageType type).numbers

theorem nodup_keys_zip (hp : p.Loaded) (type : String) (args : List Json) :
    ((((p.messageType type).fields.map (·.name)).zip args).map (·.1)).Nodup := by
  rw [keys_zip, List.map_take]
  exact (nodup_name_fields hp type).sublist (List.take_sublist ..)

/-- The object of arguments has one member for each argument that has a parameter. -/
theorem exists_bodyOf (hp : p.Loaded) (type : String) (args : List Json) :
    ∃ members, bodyOf (p.messageType type).fields args = .object members ∧
      members.Perm (((p.messageType type).fields.map (·.name)).zip args) :=
  Json.exists_ofMembers (nodup_keys_zip hp type args)

/-! ## Inputs without a form of their own -/

/-- A field whose name is no other field's JSON name is found under its name. -/
theorem fieldOfKey?_name (hp : p.Loaded) {f : Field} (hf : f ∈ (p.messageType type).fields)
    (h : ∀ g ∈ (p.messageType type).fields, g.jsonName = f.name → g = f) :
    p.fieldOfKey? type f.name = some f := by
  unfold Pool.fieldOfKey?
  cases hjson : (p.messageType type).fields.find? (·.jsonName == f.name) with
  | some g =>
    have hg := h g (List.mem_of_find?_eq_some hjson) (by simpa using List.find?_some hjson)
    rw [hg]
    rfl
  | none =>
    cases hname : (p.messageType type).fields.find? (·.name == f.name) with
    | some g =>
      have hg := List.inj_on_of_nodup_map (nodup_name_fields hp type)
        (List.mem_of_find?_eq_some hname) hf (by simpa using List.find?_some hname)
      rw [hg]
      rfl
    | none => exact absurd (List.find?_eq_none.1 hname f hf) (by simp)

theorem apart_symm {x y : String × Json} (h : Message.Apart p type x y) :
    Message.Apart p type y x :=
  fun f g hf hg he => h g f hg hf he.symm

/-- Members under the names of different fields that are found there name different fields. -/
theorem pairwise_apart (hp : p.Loaded) {fields : List Field} {args : List Json}
    (hfields : fields.Sublist (p.messageType type).fields)
    (hfound : ∀ f ∈ fields.take args.length, p.fieldOfKey? type f.name = some f) :
    ((fields.map (·.name)).zip args).Pairwise (Message.Apart p type) := by
  induction fields generalizing args with
  | nil => exact .nil
  | cons f rest ih =>
    cases args with
    | nil => exact .nil
    | cons a args =>
      rw [List.length_cons, List.take_succ_cons] at hfound
      have hrest := (List.sublist_cons_self f rest).trans hfields
      refine List.pairwise_cons.2 ⟨fun y hy g h hg hh => ?_, ih hrest fun g hg =>
        hfound g (List.mem_cons_of_mem f hg)⟩
      obtain rfl := Option.some.inj ((hfound f List.mem_cons_self).symm.trans hg)
      obtain ⟨b, hb, hname⟩ := exists_name_of_mem_zip hy
      obtain rfl := Option.some.inj
        ((hfound b (List.mem_cons_of_mem f hb)).symm.trans (hname ▸ hh))
      have hn := (nodup_number_fields hp type).sublist (hfields.map _)
      rw [List.map_cons, List.nodup_cons] at hn
      exact fun he => hn.1 (List.mem_map.2 ⟨b, List.mem_of_mem_take hb, he.symm⟩)

/-- Where every name reaches its field, the message of the object agrees with the arguments. -/
theorem agrees_of_membersOfJson (hp : p.Loaded) {args : List Json}
    (hfound : ∀ f ∈ (p.messageType type).fields.take args.length,
      p.fieldOfKey? type f.name = some f)
    {members : List (String × Json)}
    (hmembers : members.Perm (((p.messageType type).fields.map (·.name)).zip args)) {m : Message}
    (h : Message.membersOfJson p false (.empty type) members = .ok m) :
    Agrees p (p.messageType type).fields args m := by
  have hapart : members.Pairwise (Message.Apart p type) :=
    (hmembers.pairwise_iff apart_symm).2 (pairwise_apart hp (List.Sublist.refl _) hfound)
  obtain ⟨hin, hout⟩ := Message.get?_of_membersOfJson hp h hapart
  constructor
  · intro k f a hf ha
    have hmem := hmembers.mem_iff.2 (mem_zip hf ha)
    have htake : f ∈ (p.messageType type).fields.take args.length := by
      obtain ⟨hk, rfl⟩ := List.getElem?_eq_some_iff.1 ha
      exact List.mem_of_getElem? (i := k) (by rw [List.getElem?_take_of_lt hk, hf])
    exact hin _ hmem f (hfound f htake) rfl
  · intro n hn
    refine hout n fun x hx f hf he => hn ?_
    obtain ⟨g, hg, hname⟩ := exists_name_of_mem_zip (hmembers.mem_iff.1 hx)
    obtain rfl := Option.some.inj ((hfound g hg).symm.trans (hname ▸ hf))
    exact List.mem_map.2 ⟨g, hg, he⟩

/-! ## Inputs with a form of their own -/

/-- A message without fields is read from nothing. -/
theorem ofRaw_nil (p : Pool) (type : String) : Message.ofRaw p type [] = .ok (.empty type) := by
  have hread : Wire.read p.layout type (Wire.Raw.writeFields []) = .ok [] :=
    Wire.read_writeFields (.nil ..) (by decide)
  rw [Message.ofRaw, Message.decode, hread]
  simp [Except.map, Except.mapError, Message.mergeFields]

/-- Of the types with a form of their own, three take objects, one of them only the empty one. -/
theorem rawOfJson_object {w : WellKnown} {members : List (String × Json)} {r : Wire.RawRecord}
    (h : w.rawOfJson (.object members) = .ok r) :
    w = .struct ∨ w = .value ∨ w = .empty ∧ members = [] ∧ r = [] := by
  cases w with
  | struct => exact .inl rfl
  | value => exact .inr (.inl rfl)
  | empty =>
    cases members with
    | nil =>
      cases h
      exact .inr (.inr ⟨rfl, rfl, rfl⟩)
    | cons m rest => cases h
  | wrapper s =>
    obtain ⟨v, hv, -⟩ := Except.bind_eq_ok.1 h
    cases s <;> cases hv
  | _ => cases h

/-- An object for a type with a form of its own, but that of messages of any type, is read by that
form. -/
theorem valueOfJson_object {w : WellKnown} (hw : WellKnown.ofName? type = some w)
    (hany : w ≠ .any) (members : List (String × Json)) :
    Message.valueOfJson p (.one (.message type)) (.object members) = (do
      return .record (← Message.ofRaw p type (← w.rawOfJson (.object members)))) := by
  cases w <;> first | exact absurd rfl hany | simp [Message.valueOfJson, Message.leafOfJson, hw]

theorem member?_eq_none {key : String} {members : List (String × Json)}
    (h : key ∉ members.map (·.1)) : Json.member? key members = none := by
  induction members with
  | nil => rfl
  | cons m rest ih =>
    rw [List.map_cons, List.mem_cons, not_or] at h
    rw [Json.member?, if_neg (Ne.symm h.1), ih h.2]

/-- An object that does not say its type is no message of any type. -/
theorem valueOfJson_any (hw : WellKnown.ofName? type = some .any)
    {members : List (String × Json)} (h : Message.typeKey ∉ members.map (·.1)) (v : Value) :
    Message.valueOfJson p (.one (.message type)) (.object members) ≠ .ok v := by
  intro hv
  simp only [Message.valueOfJson, hw] at hv
  obtain ⟨_, htype, -⟩ := Except.bind_eq_ok.1 hv
  simp [Message.payloadType, member?_eq_none h] at htype

/-- The empty message agrees where no argument has a parameter. -/
theorem agrees_empty {fields : List Field} {args : List Json}
    (h : (fields.map (·.name)).zip args = []) (type : String) :
    Agrees p fields args (.empty type) := by
  refine ⟨fun k f a hf ha => ?_, fun n _ => Message.get?_empty type n⟩
  have hmem := mem_zip hf ha
  rw [h] at hmem
  cases hmem

/-- Whatever is read from the object of arguments agrees with them if the names are straight. -/
theorem agrees_of_ofJson (hp : p.Loaded) {args : List Json}
    (hstraight : Straight p type args.length) {m : Message}
    (h : Message.ofJson p type (bodyOf (p.messageType type).fields args) = .ok m) :
    Agrees p (p.messageType type).fields args m := by
  obtain ⟨members, hbody, hmembers⟩ := exists_bodyOf hp type args
  rw [hbody] at h
  obtain ⟨v, hv, h⟩ := Except.bind_eq_ok.1 h
  cases hw : WellKnown.ofName? type with
  | none =>
    simp only [Message.valueOfJson, hw] at hv
    obtain ⟨m', hm', rfl⟩ := Except.fmap_eq_ok.1 hv
    cases h
    refine agrees_of_membersOfJson hp (fun f hf => ?_) hmembers hm'
    have hf' := List.mem_of_mem_take hf
    exact fieldOfKey?_name hp hf' fun g hg hjson => List.inj_on_of_nodup_map
      (nodup_number_fields hp type) hg hf' (hstraight.plain hw f hf g hg hjson)
  | some w =>
    have hkeys : (members.map (·.1)).Perm (((p.messageType type).fields.take args.length).map
        (·.name)) := by
      rw [← keys_zip]
      exact hmembers.map _
    by_cases hany : w = .any
    · subst hany
      exact absurd hv (valueOfJson_any hw (fun hmem => hstraight.any hw (hkeys.mem_iff.1 hmem)) v)
    · rw [valueOfJson_object hw hany] at hv
      obtain ⟨r, hr, hv⟩ := Except.bind_eq_ok.1 hv
      obtain ⟨m', hm', hv⟩ := Except.bind_eq_ok.1 hv
      cases hv
      cases h
      -- What is left is read from the empty object, so that nothing is set.
      have hempty : members = [] ∧ r = [] := by
        obtain rfl | rfl | ⟨-, hnil, hr⟩ := rawOfJson_object hr
        · cases hr
          have hargs := List.length_eq_zero_iff.1 (hstraight.struct hw)
          rw [hargs, List.zip_nil_right, List.perm_nil] at hmembers
          rw [hmembers]
          exact ⟨rfl, rfl⟩
        · exact absurd hw hstraight.value
        · exact ⟨hnil, hr⟩
      obtain ⟨rfl, rfl⟩ := hempty
      rw [ofRaw_nil] at hm'
      cases hm'
      exact agrees_empty (List.nil_perm.1 hmembers) type

/-! ## Arguments that go astray -/

/-- A member that is null leaves the message as it is, where null is no value of its field. -/
def Skipped (p : Pool) (type : String) (x : String × Json) : Prop :=
  x.2 = .null ∧ ∃ f, p.fieldOfKey? type x.1 = some f ∧ p.nullValue f = .ok none

theorem membersOfJson_skipped {skipped rest : List (String × Json)} {m m' : Message}
    (h : ∀ x ∈ skipped, Skipped p m.type x) :
    Message.membersOfJson p false m (skipped ++ rest) = .ok m' ↔
      Message.membersOfJson p false m rest = .ok m' := by
  induction skipped with
  | nil => rfl
  | cons x skipped ih =>
    obtain ⟨key, j⟩ := x
    obtain ⟨rfl, f, hf, hnull⟩ := h _ List.mem_cons_self
    rw [List.cons_append, Message.membersOfJson_cons (by simp)]
    have hrest := ih fun y hy => h y (.tail _ hy)
    constructor
    · rintro ⟨g, hg, value?, hvalue, hm⟩
      obtain rfl := Option.some.inj (hf.symm.trans hg)
      obtain rfl := Except.ok.inj (hnull.symm.trans hvalue)
      exact hrest.1 hm
    · intro hm
      exact ⟨f, hf, none, hnull, hrest.2 hm⟩

/-- A key that is a JSON name finds the field that has it. -/
theorem fieldOfKey?_jsonName (hp : p.Loaded) {g : Field} (hg : g ∈ (p.messageType type).fields) :
    p.fieldOfKey? type g.jsonName = some g := by
  unfold Pool.fieldOfKey?
  cases hjson : (p.messageType type).fields.find? (·.jsonName == g.jsonName) with
  | some h =>
    have hnodup : ((p.messageType type).fields.map (·.jsonName)).Nodup :=
      ((p.messageType type).fields_perm.map _).nodup_iff.2 (hp.wellFormed_messageType type).jsonNames
    have heq := List.inj_on_of_nodup_map hnodup (List.mem_of_find?_eq_some hjson) hg
      (by simpa using List.find?_some hjson)
    rw [heq]
    rfl
  | none => exact absurd (List.find?_eq_none.1 hjson g hg) (by simp)

/-- Every name finds some field. -/
theorem exists_fieldOfKey?_name (hp : p.Loaded) {f : Field}
    (hf : f ∈ (p.messageType type).fields) :
    ∃ g ∈ (p.messageType type).fields, p.fieldOfKey? type f.name = some g := by
  by_cases h : ∀ g ∈ (p.messageType type).fields, g.jsonName = f.name → g = f
  · exact ⟨f, hf, fieldOfKey?_name hp hf h⟩
  · simp only [not_forall] at h
    obtain ⟨g, hg, hjson, -⟩ := h
    exact ⟨g, hg, hjson ▸ fieldOfKey?_jsonName hp hg⟩

theorem putOnce_empty (p : Pool) (type : String) (f : Field) (v : Value) :
    p.putOnce (.empty type) f v = .ok ((Message.empty type).put p f v) := by
  refine Message.putOnce_eq_ok.2 ⟨?_, rfl⟩
  unfold Pool.oneofTaken?
  split
  · rfl
  · simp [Message.has]

theorem get?_put_empty {f : Field} {n : Nat} (hn : n ≠ f.number) (v : Value) :
    ((Message.empty type).put p f v).get? n = none := by
  unfold Message.put
  split
  · rw [Message.get?_set_of_ne _ hn, Message.get?_clear, Message.get?_empty, ite_self]
  · rw [Message.get?_set_of_ne _ hn, Message.get?_empty]

/-- With null for all parameters before an argument, the members beside that of the argument are
skipped. -/
theorem skipped_of_zip (hp : p.Loaded)
    (hnull : ∀ f ∈ (p.messageType type).fields, p.nullValue f = .ok none) {k : Nat} {f : Field}
    (hf : (p.messageType type).fields[k]? = some f) {a : Json} {x : String × Json}
    (hx : x ∈ ((p.messageType type).fields.map (·.name)).zip (List.replicate k Json.null ++ [a]))
    (hne : x.1 ≠ f.name) : Skipped p type x := by
  obtain ⟨j, hj⟩ := List.getElem?_of_mem hx
  rw [List.getElem?_zip_eq_some, List.getElem?_map, Option.map_eq_some_iff] at hj
  obtain ⟨⟨h, hh, hname⟩, hj⟩ := hj
  constructor
  · obtain hlt | rfl | hgt := Nat.lt_trichotomy j k
    · rw [List.getElem?_append_left (by simpa using hlt), List.getElem?_replicate,
        if_pos hlt] at hj
      exact (Option.some.inj hj).symm
    · obtain rfl := Option.some.inj (hf.symm.trans hh)
      exact absurd hname.symm hne
    · rw [List.getElem?_eq_none (by simp; omega)] at hj
      cases hj
  · obtain ⟨g, hg, hkey⟩ := exists_fieldOfKey?_name hp (List.mem_of_getElem? hh)
    exact ⟨g, hname ▸ hkey, hnull g hg⟩

/-- If all other members are skipped, one member alone makes the message. -/
theorem membersOfJson_one {before after : List (String × Json)} {key : String} {a : Json}
    {g : Field} {v : Value} (hskipped : ∀ x ∈ before ++ after, Skipped p type x)
    (hg : p.fieldOfKey? type key = some g) (hv : Message.fieldOfJson p g a = .ok (some v)) :
    Message.membersOfJson p false (.empty type) (before ++ (key, a) :: after) =
      .ok ((Message.empty type).put p g v) := by
  have hnil : Message.membersOfJson p false ((Message.empty type).put p g v) [] =
      .ok ((Message.empty type).put p g v) := by
    rw [Message.membersOfJson]
  have hafter : ∀ x ∈ after, Skipped p ((Message.empty type).put p g v).type x := by
    rw [Message.type_put]
    exact fun x hx => hskipped x (List.mem_append_right _ hx)
  have hrest := (membersOfJson_skipped hafter).2 hnil
  rw [List.append_nil] at hrest
  have hbefore : ∀ x ∈ before, Skipped p (Message.empty type).type x :=
    fun x hx => hskipped x (List.mem_append_left _ hx)
  refine (membersOfJson_skipped hbefore).2 ?_
  exact (Message.membersOfJson_cons (by simp)).2
    ⟨g, hg, some v, hv, _, putOnce_empty .., hrest⟩

/-- Where the name of a parameter is the JSON name of another field, the argument goes there: with
null for the parameters before it, the message that is sent does not agree with the arguments. -/
theorem exists_not_agrees (hp : p.Loaded) (hw : WellKnown.ofName? type = none)
    (hnull : ∀ f ∈ (p.messageType type).fields, p.nullValue f = .ok none) {k : Nat} {f g : Field}
    (hf : (p.messageType type).fields[k]? = some f) (hg : g ∈ (p.messageType type).fields)
    (hjson : g.jsonName = f.name) (hne : g.number ≠ f.number) {a : Json} (ha : a ≠ .null)
    {v : Value} (hv : Message.fieldOfJson p g a = .ok (some v)) :
    ∃ m, Message.ofJson p type (bodyOf (p.messageType type).fields
        (List.replicate k Json.null ++ [a])) = .ok m ∧
      ¬Agrees p (p.messageType type).fields (List.replicate k Json.null ++ [a]) m := by
  obtain ⟨members, hbody, hmembers⟩ := exists_bodyOf hp type (List.replicate k Json.null ++ [a])
  have hlast : (List.replicate k Json.null ++ [a])[k]? = some a := by simp
  obtain ⟨before, after, rfl⟩ := List.append_of_mem (hmembers.mem_iff.2 (mem_zip hf hlast))
  have hkeys : (f.name :: (before ++ after).map (·.1)).Nodup := by
    have hnodup := (hmembers.map (·.1)).nodup_iff.2 (nodup_keys_zip hp type _)
    rw [List.map_append, List.map_cons, List.nodup_middle, ← List.map_append] at hnodup
    exact hnodup
  have hskipped : ∀ x ∈ before ++ after, Skipped p type x := by
    intro x hx
    refine skipped_of_zip hp hnull hf (hmembers.mem_iff.1 ?_) fun hname =>
      (List.nodup_cons.1 hkeys).1 (List.mem_map.2 ⟨x, hx, hname⟩)
    obtain hx | hx := List.mem_append.1 hx
    · exact List.mem_append_left _ hx
    · exact List.mem_append_right _ (.tail _ hx)
  refine ⟨(Message.empty type).put p g v, ?_, fun hagrees => ?_⟩
  · rw [hbody, Message.ofJson]
    refine Except.bind_eq_ok.2 ⟨.record ((Message.empty type).put p g v), ?_, rfl⟩
    simp only [Message.valueOfJson, hw]
    exact Except.fmap_eq_ok.2
      ⟨_, membersOfJson_one hskipped (hjson ▸ fieldOfKey?_jsonName hp hg) hv, rfl⟩
  · have hholds := hagrees.holds k f a hf hlast
    rw [get?_put_empty hne.symm] at hholds
    -- A value that is not null sets the field that it is for.
    cases a with
    | null => exact ha rfl
    | _ =>
      obtain ⟨_, -, hnone⟩ := Except.fmap_eq_ok.1 hholds
      cases hnone

/-! ## Calls -/

/-- The calls that a list of arguments makes of the proxy. -/
def calls (i : Invoker World) (args : List Json) (w : World) : List (Method × Message) :=
  (i.recorded.invoke args (w, [])).2.2

theorem invoke_tooMany {i : Invoker World} {args : List Json}
    (h : i.parameters.length < args.length) (w : World) :
    i.invoke args w = (.error (.arguments i.method.fullName
      (.tooMany i.parameters.length args.length)), w) := by
  rw [invoke, if_pos h]

theorem invoke_of_le {i : Invoker World} {args : List Json}
    (h : args.length ≤ i.parameters.length) (w : World) :
    i.invoke args w = i.invokeMessage (bodyOf i.parameters args) w := by
  rw [invoke, if_neg (Nat.not_lt.2 h)]

/-- A message is sent if the body fits, and nothing else changes by the list being kept. -/
theorem invokeMessage_recorded (i : Invoker World) (body : Json) (w : World)
    (log : List (Method × Message)) :
    i.recorded.invokeMessage body (w, log) =
      ((i.invokeMessage body w).1, (i.invokeMessage body w).2,
        match Message.ofJson i.pool i.method.input body with
        | .ok m => log ++ [(i.method, m)]
        | .error _ => log) := by
  simp only [invokeMessage, recorded]
  cases Message.ofJson i.pool i.method.input body with
  | error f => rfl
  | ok m =>
    simp only [call, Proxy.recorded]
    cases (i.proxy.call i.method m w).1 <;> rfl

/-- Arguments make at most one call, with the message that their object stands for. -/
theorem mem_calls {i : Invoker World} {args : List Json} {w : World} {c : Method × Message}
    (hlen : args.length ≤ i.parameters.length) :
    c ∈ i.calls args w ↔ c.1 = i.method ∧
      Message.ofJson i.pool i.method.input (bodyOf i.parameters args) = .ok c.2 := by
  have hbody : i.recorded.invoke args (w, []) =
      i.recorded.invokeMessage (bodyOf i.parameters args) (w, []) :=
    invoke_of_le (i := i.recorded) hlen (w, [])
  rw [calls, hbody, invokeMessage_recorded]
  cases hm : Message.ofJson i.pool i.method.input (bodyOf i.parameters args) with
  | error f => simp
  | ok m =>
    obtain ⟨method, m'⟩ := c
    simp [eq_comm]

/-- More arguments than parameters are refused without a call. Otherwise a call that is made holds
every argument as its parameter's value if the names of the parameters are straight; where one of
them is another field's JSON name there are arguments for which the call does not. -/
theorem agrees_of_mem_calls {i : Invoker World} (hp : i.pool.Loaded) (w : World) :
    (∀ args, i.signature.parameters.length < args.length →
      i.invoke args w = (.error (.arguments i.method.fullName
        (.tooMany i.signature.parameters.length args.length)), w) ∧ i.calls args w = []) ∧
    (∀ args, args.length ≤ i.signature.parameters.length →
      Straight i.pool i.method.input args.length →
      ∀ c ∈ i.calls args w, c.1 = i.method ∧ Agrees i.pool i.parameters args c.2) ∧
    (WellKnown.ofName? i.method.input = none →
      (∀ f ∈ i.parameters, i.pool.nullValue f = .ok none) →
      ∀ (k : Nat) (f g : Field) (a : Json) (v : Value), i.parameters[k]? = some f →
        g ∈ i.parameters → g.jsonName = f.name → g.number ≠ f.number → a ≠ .null →
        Message.fieldOfJson i.pool g a = .ok (some v) →
        ∃ c ∈ i.calls (List.replicate k .null ++ [a]) w,
          ¬Agrees i.pool i.parameters (List.replicate k .null ++ [a]) c.2) := by
  have hlength : i.signature.parameters.length = i.parameters.length := List.length_map ..
  rw [hlength]
  refine ⟨fun args hlt => ⟨invoke_tooMany hlt w, ?_⟩, fun args hlen hstraight c hc => ?_,
    fun hw hnull k f g a v hf hg hjson hne ha hv => ?_⟩
  · rw [calls, invoke_tooMany (i := i.recorded) hlt]
  · obtain ⟨hmethod, hm⟩ := (mem_calls hlen).1 hc
    exact ⟨hmethod, agrees_of_ofJson hp hstraight hm⟩
  · obtain ⟨m, hm, hnot⟩ := exists_not_agrees hp hw hnull hf hg hjson hne ha hv
    have hlen : (List.replicate k Json.null ++ [a]).length ≤ i.parameters.length := by
      obtain ⟨hk, -⟩ := List.getElem?_eq_some_iff.1 hf
      rw [List.length_append, List.length_replicate, List.length_singleton]
      exact hk
    exact ⟨(i.method, m), (mem_calls hlen).2 ⟨rfl, hm⟩, hnot⟩

/-- A file with a message whose names are straight, and one with a field whose name is the JSON name
of another. -/
def pairFile : Source.File where
  name := "pair.proto"
  package := "pair"
  dependencies := []
  publicDependencies := []
  weakDependencies := []
  messages := [
    Standard.message "Straight" [Standard.text "first" 1, Standard.int32 "second" 2],
    Standard.message "Crossed" [{ Standard.text "first" 1 with jsonName := some "f" },
      { Standard.text "second" 2 with jsonName := some "first" }]]
  enums := []
  services := []
  extensions := []
  edition := .proto3
  options := []

/-- The pool of the file. -/
def pairPool : Pool := .ofFiles [pairFile]

theorem loaded_pairPool : pairPool.Loaded :=
  Pool.loaded_ofFiles (by unfold EnumType.InRange; decide)

/-- A method with the same type for input and output. -/
def mirror (pool : Pool) (type : String) : Invoker Unit where
  pool
  method := ⟨"mirror", "pair.Mirrors.mirror", type, type, false, false⟩
  proxy := .echo

/-- The method with straight names. -/
def straight : Invoker Unit := mirror pairPool "pair.Straight"

/-- The method with crossed names. -/
def crossed : Invoker Unit := mirror pairPool "pair.Crossed"

/-- Two arguments for two straight names are both sent, and a third one is refused. -/
theorem agrees_straight :
    (straight.calls [.string "x", .integer 3] ()).map (·.2.encode pairPool) =
        [[10, 1, 120, 16, 3]] ∧
      (∀ c ∈ straight.calls [.string "x", .integer 3] (),
        Agrees straight.pool straight.parameters [.string "x", .integer 3] c.2) ∧
      straight.calls [.string "x", .integer 3, .null] () = [] := by
  have hlength : straight.signature.parameters.length = 2 := by decide +kernel
  have hnames : Straight straight.pool straight.method.input 2 := by decide +kernel
  obtain ⟨htooMany, hagrees, -⟩ := agrees_of_mem_calls (i := straight) loaded_pairPool ()
  refine ⟨by decide +kernel, fun c hc => ?_, ?_⟩
  · exact (hagrees [.string "x", .integer 3] (Nat.le_of_eq hlength.symm) hnames c hc).2
  · exact (htooMany [.string "x", .integer 3, .null] (by rw [hlength]; decide)).2

/-- A call that sets a field that has no argument does not agree with the arguments. -/
theorem exists_not_agrees_of_any {i : Invoker World} {args : List Json} {w : World} {n : Nat}
    (hn : n ∉ (i.parameters.take args.length).map (·.number))
    (h : (i.calls args w).any fun c => (c.2.get? n).isSome) :
    ∃ c ∈ i.calls args w, ¬Agrees i.pool i.parameters args c.2 := by
  obtain ⟨c, hc, hsome⟩ := List.any_eq_true.1 h
  refine ⟨c, hc, fun hagrees => ?_⟩
  rw [hagrees.unset n hn] at hsome
  cases hsome

/-- The argument for the first field is put into the second one, whose JSON name is the name of the
first. -/
theorem exists_not_agrees_crossed :
    crossed.pool.Loaded ∧
      ∃ c ∈ crossed.calls [.string "x"] (),
        ¬Agrees crossed.pool crossed.parameters [.string "x"] c.2 :=
  ⟨loaded_pairPool, exists_not_agrees_of_any (n := 2) (by decide +kernel) (by decide +kernel)⟩

/-- For an input that is any JSON value, no argument at all makes an object. -/
example : ∃ c ∈ (mirror (.ofFiles [Standard.struct]) WellKnown.valueName).calls [] (),
    (c.2.get? 5).isSome := by decide +kernel

end Invoker

end ServiceCall
