import ServiceCall.Proofs.Invoker.Positional
import ServiceCall.Proofs.Message.Members
/-!
# Unwrapped replies

A reply whose type has exactly one field is unwrapped by looking for the name of that field in the
JSON form of the whole reply. That gives the JSON form of the field's value for every type that is
written as an object of its fields, and exactly if the field is set or does not tell being unset
apart (`Invoker.unwraps_of_toJson`). Types with a form of their own are not written in this way:
nothing is found in the text of a string in its wrapper (`Invoker.not_unwraps_wrapped`).
-/

namespace ServiceCall

namespace Reply

/-- The JSON form of the value that a field has in a reply. -/
def fieldJson (r : Reply) (f : Field) : Except MappingFault Json :=
  Message.valueToJson r.pool
    (Message.payloadMembers r.pool ((r.message.encode r.pool).length + 1)) f.kind
    (Message.mapValueKind r.pool f) (r.message.value r.pool f)

/-- A field of a reply is set, or does not tell being unset apart. -/
def Shows (r : Reply) (f : Field) : Prop :=
  r.message.has r.pool f = true ∨ f.hasPresence = false

/-- The type of a reply is written as an object whose keys are the names of its fields and others. -/
structure Named (p : Pool) (type : String) : Prop where
  plain : WellKnown.ofName? type = none
  apart : ∀ f ∈ (p.messageType type).declared, ∀ g ∈ p.extensionsOf type,
    Pool.extensionKey g ≠ f.name

end Reply

namespace Signature

theorem onlyField?_eq_some_iff {t : MessageType} {f : Field} :
    onlyField? t = some f ↔ t.declared = [f] := by
  have hperm := t.fields_perm
  constructor
  · intro h
    unfold onlyField? at h
    split at h
    next g hg =>
      obtain rfl := Option.some.inj h
      exact List.perm_singleton.1 (hg ▸ hperm).symm
    next => cases h
  · intro h
    rw [h] at hperm
    rw [onlyField?, List.perm_singleton.1 hperm]

theorem fullName_messageType (p : Pool) (type : String) : (p.messageType type).fullName = type := by
  rw [Pool.messageType, Pool.referredMessage?]
  cases h : p.messages.find? (·.fullName == type) with
  | none => rfl
  | some t => simpa using List.find?_some h

/-- What a method returns is the type of the only field of its output, or else the output. -/
theorem returns_ofMethod (p : Pool) (m : Method) :
    (∀ f, (p.messageType m.output).declared = [f] → (ofMethod p m).returns = typeText p f) ∧
      ((∀ f, (p.messageType m.output).declared ≠ [f]) → (ofMethod p m).returns = m.output) := by
  constructor
  · intro f hf
    rw [ofMethod, returnsText, onlyField?_eq_some_iff.2 hf]
  · intro h
    rw [ofMethod, returnsText]
    cases honly : onlyField? (p.messageType m.output) with
    | none => exact fullName_messageType p m.output
    | some f => exact absurd (onlyField?_eq_some_iff.1 honly) (h f)

end Signature

/-! ## Types with a form of their own -/

theorem Scalar.get?_toJson (s : Scalar) (v : Value) (key : String) :
    (s.toJson v).get? key = none := by
  have hfloat (x : Double) : (Floating.toJson x).get? key = none := by
    unfold Floating.toJson
    split_ifs <;> rfl
  cases v with
  | integer i =>
    rw [Scalar.toJson]
    split_ifs <;> rfl
  | single x => exact hfloat _
  | double x => exact hfloat _
  | _ => rfl

theorem WellKnown.get?_wrappedJson (s : Scalar) (r : Wire.RawRecord) (key : String) :
    (wrappedJson s r).get? key = none := by
  unfold wrappedJson
  split
  · split_ifs <;> rfl
  · split_ifs <;> rfl
  · exact Scalar.get?_toJson s _ key

/-- Of the types with a form of their own only those that hold data can be objects with members. -/
theorem WellKnown.eq_of_get?_toJson {p : Pool} {w : WellKnown} {m : Message} {j v : Json}
    {key : String} (hj : w.toJson p m = .ok j) (hv : j.get? key = some v) :
    w = .struct ∨ w = .value := by
  cases w with
  | struct => exact .inl rfl
  | value => exact .inr rfl
  | timestamp | duration | fieldMask =>
    obtain ⟨r, -, h⟩ := Except.bind_eq_ok.1 hj
    split at h
    · rw [← Except.pure_eq_ok.1 h] at hv
      cases hv
    · cases h
  | listValue =>
    obtain ⟨r, -, h⟩ := Except.bind_eq_ok.1 hj
    rw [heldJson, Held.toJson?] at h
    cases hitems : Held.itemsToJson? (Held.putItems [] r) with
    | none => simp [hitems] at h
    | some items =>
      obtain rfl : Json.array items = j := by simpa [hitems] using h
      cases hv
  | wrapper s =>
    obtain ⟨r, -, h⟩ := Except.bind_eq_ok.1 hj
    rw [← Except.ok.inj h, get?_wrappedJson] at hv
    cases hv
  | empty | any =>
    rw [← Except.ok.inj hj] at hv
    cases hv

namespace Invoker

variable {World : Type} {i : Invoker World} {m : Message} {j : Json}

/-- The only field of a type that is written as an object of its fields is found under its name,
with the JSON form of its value, exactly if it is set or does not tell being unset apart. -/
theorem value?_of_named {r : Reply} (hp : r.pool.Loaded)
    (hascending : r.message.fields.Pairwise fun a b => a.1 < b.1) (hj : r.toJson = .ok j)
    (hnamed : Reply.Named r.pool r.message.type) {f : Field}
    (hf : (r.pool.messageType r.message.type).declared = [f]) :
    (r.Shows f → ∃ v, r.fieldJson f = .ok v ∧ r.value? = some v) ∧
      (¬r.Shows f → r.value? = none) := by
  have hmem : f ∈ (r.pool.messageType r.message.type).declared := hf ▸ List.mem_singleton_self f
  obtain ⟨ms, hms, hobject⟩ : ∃ ms, Message.toMembers r.pool
      (Message.payloadMembers r.pool ((r.message.encode r.pool).length + 1)) r.message = .ok ms ∧
      Json.ofMembers ms = j := by
    rw [Reply.toJson, Message.toJson, Message.writeJson, Message.valueToJson, hnamed.plain] at hj
    exact Except.fmap_eq_ok.1 hj
  have hvalue (v : Json) : r.value? = some v ↔ r.Shows f ∧ r.fieldJson f = .ok v := by
    have hiff (v : Json) := Message.mem_toMembers_iff hp hascending hms hmem
      (hnamed.apart f hmem) (j := v)
    rw [Reply.value?, Signature.onlyField?_eq_some_iff.2 hf, hj]
    simp only [← hobject]
    rw [Json.get?_ofMembers_of_unique, hiff]
    · rfl
    · intro v w hv hw
      exact Except.ok.inj (((hiff v).1 hv).2.symm.trans ((hiff w).1 hw).2)
  constructor
  · intro hshown
    obtain ⟨v, hv⟩ := Message.exists_valueToJson_of_toMembers hp hascending hms hmem hshown
    exact ⟨v, hv, (hvalue v).2 ⟨hshown, hv⟩⟩
  · intro hhidden
    cases h : r.value? with
    | none => rfl
    | some v => exact absurd ((hvalue v).1 h).1 hhidden

/-- For every method and every reply of its output type that has a JSON form. What is unwrapped is
the value of the only field of the type, which is the one whose type the signature names, if that
type is written as an object of its fields; of the types with a form of their own nothing is
unwrapped but data that is held under the name of the field. A type that has not exactly one field
is what the signature names, and is not unwrapped. -/
theorem unwraps_of_toJson (hp : i.pool.Loaded) (htype : m.type = i.method.output)
    (hascending : m.fields.Pairwise fun a b => a.1 < b.1)
    (hj : (Reply.mk i.pool m).toJson = .ok j) :
    (∀ f, (i.pool.messageType i.method.output).declared = [f] →
      i.signature.returns = Signature.typeText i.pool f ∧
      (Reply.Named i.pool i.method.output →
        (Reply.Shows ⟨i.pool, m⟩ f → ∃ v, Reply.fieldJson ⟨i.pool, m⟩ f = .ok v ∧
          Reply.value? ⟨i.pool, m⟩ = some v) ∧
        (¬Reply.Shows ⟨i.pool, m⟩ f → Reply.value? ⟨i.pool, m⟩ = none))) ∧
    ((∀ f, (i.pool.messageType i.method.output).declared ≠ [f]) →
      i.signature.returns = i.method.output ∧ Reply.value? ⟨i.pool, m⟩ = none) ∧
    (∀ w, WellKnown.ofName? i.method.output = some w →
      w ≠ .any → w ≠ .struct → w ≠ .value → Reply.value? ⟨i.pool, m⟩ = none) := by
  obtain ⟨hone, hother⟩ := Signature.returns_ofMethod i.pool i.method
  rw [← htype] at hone hother ⊢
  refine ⟨fun f hf => ⟨hone f hf, fun hnamed => value?_of_named hp hascending hj hnamed hf⟩,
    fun h => ⟨hother h, ?_⟩, fun w hw hany hstruct hvalue => ?_⟩
  · cases honly : Signature.onlyField? (i.pool.messageType m.type) with
    | none => rw [Reply.value?, honly]
    | some f => exact absurd (Signature.onlyField?_eq_some_iff.1 honly) (h f)
  · have hplain : w.toJson i.pool m = .ok j := by
      rw [Reply.toJson, Message.toJson, Message.writeJson, Message.valueToJson, hw] at hj
      cases w with
      | any => exact absurd rfl hany
      | _ => exact hj
    cases h : Reply.value? ⟨i.pool, m⟩ with
    | none => rfl
    | some v =>
      rw [Reply.value?] at h
      split at h
      next f k hf hk =>
        obtain rfl := Except.ok.inj (hj.symm.trans hk)
        obtain h | h := WellKnown.eq_of_get?_toJson hplain h
        · exact absurd h hstruct
        · exact absurd h hvalue
      next => cases h

/-- A file with a message that holds a text. -/
def textFile : Source.File where
  name := "letter.proto"
  package := "letter"
  dependencies := []
  publicDependencies := []
  weakDependencies := []
  messages := [Standard.message "Text" [Standard.text "text" 1]]
  enums := []
  services := []
  extensions := []
  edition := .proto3
  options := []

/-- A file with the wrapper of a text. -/
def wrapperFile : Source.File :=
  Standard.file "wrappers" [] [Standard.message "StringValue" [Standard.text "value" 1]] []

/-- The pool of both files. -/
def textPool : Pool := .ofFiles [wrapperFile, textFile]

/-- The method whose output holds a text. -/
def texts : Invoker Unit := mirror textPool "letter.Text"

/-- The method whose output is a text in its wrapper. -/
def wrapped : Invoker Unit := mirror textPool "google.protobuf.StringValue"

/-- A reply that holds a text in its first field. -/
def textReply (i : Invoker Unit) : Reply := ⟨i.pool, .mk i.method.output [(1, .text "x")] []⟩

theorem loaded_mirror {pool : Pool} (hp : pool.Loaded) (type : String) :
    (mirror pool type).pool.Loaded := hp

theorem loaded_textPool : textPool.Loaded :=
  Pool.loaded_ofFiles (by unfold EnumType.InRange; decide)

theorem loaded_texts : texts.pool.Loaded := loaded_mirror loaded_textPool "letter.Text"

theorem loaded_wrapped : wrapped.pool.Loaded :=
  loaded_mirror loaded_textPool "google.protobuf.StringValue"

theorem named_texts : Reply.Named texts.pool texts.method.output where
  plain := by decide +kernel
  apart f _ g hg := by
    have hnone : texts.pool.extensionsOf texts.method.output = [] :=
      List.isEmpty_iff.1 (by decide +kernel)
    rw [hnone] at hg
    cases hg

/-- The text of a message with one field is unwrapped. -/
theorem unwraps_texts : ∃ f v, (texts.pool.messageType texts.method.output).declared = [f] ∧
    (textReply texts).fieldJson f = .ok v ∧ (textReply texts).value? = some v := by
  obtain ⟨j, hj⟩ : ∃ j, (textReply texts).toJson = .ok j :=
    Except.exists_of_isOk (by decide +kernel)
  obtain ⟨f, hf⟩ : ∃ f, (texts.pool.messageType texts.method.output).declared = [f] :=
    List.length_eq_one_iff.1 (by decide +kernel)
  have hset : ∀ f ∈ (texts.pool.messageType texts.method.output).declared,
      (textReply texts).message.has (textReply texts).pool f = true :=
    List.all_eq_true.1 (by decide +kernel)
  have hmem : f ∈ (texts.pool.messageType texts.method.output).declared := by
    rw [hf]
    exact List.mem_singleton_self f
  obtain ⟨hone, -⟩ := unwraps_of_toJson (i := texts) (m := (textReply texts).message) loaded_texts
    rfl (List.pairwise_singleton ..) hj
  obtain ⟨-, hvalue⟩ := hone f hf
  obtain ⟨v, hv, hvalue⟩ := (hvalue named_texts).1 (.inl (hset f hmem))
  exact ⟨f, v, hf, hv, hvalue⟩

/-- The same text in its wrapper is not unwrapped, although the wrapper has one field too, which is
set and whose type is what the signature names. -/
theorem not_unwraps_wrapped :
    wrapped.pool.Loaded ∧ ∃ f j v,
      (wrapped.pool.messageType wrapped.method.output).declared = [f] ∧
        wrapped.signature.returns = "string" ∧ (textReply wrapped).toJson = .ok j ∧
        (textReply wrapped).Shows f ∧ (textReply wrapped).fieldJson f = .ok v ∧
        (textReply wrapped).value? = none := by
  obtain ⟨j, hj⟩ : ∃ j, (textReply wrapped).toJson = .ok j :=
    Except.exists_of_isOk (by decide +kernel)
  obtain ⟨f, hf⟩ : ∃ f, (wrapped.pool.messageType wrapped.method.output).declared = [f] :=
    List.length_eq_one_iff.1 (by decide +kernel)
  have hall : ∀ f ∈ (wrapped.pool.messageType wrapped.method.output).declared,
      ((textReply wrapped).message.has (textReply wrapped).pool f &&
        ((textReply wrapped).fieldJson f).isOk) = true :=
    List.all_eq_true.1 (by decide +kernel)
  have hmem : f ∈ (wrapped.pool.messageType wrapped.method.output).declared := by
    rw [hf]
    exact List.mem_singleton_self f
  obtain ⟨hset, hok⟩ := Bool.and_eq_true_iff.1 (hall f hmem)
  obtain ⟨v, hv⟩ := Except.exists_of_isOk hok
  exact ⟨loaded_wrapped, f, j, v, hf,
    by decide +kernel, hj, .inl hset, hv, Option.isNone_iff_eq_none.1 (by decide +kernel)⟩

end Invoker

end ServiceCall
