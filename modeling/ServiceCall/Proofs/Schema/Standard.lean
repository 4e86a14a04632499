import ServiceCall.Proofs.Schema.Compiled
import ServiceCall.Schema.Standard
/-!
# The standard types in a pool

A pool may hold a message of its own under the name of a well-known type. It knows a well-known
type if it declares what the standard files declare (`Pool.Knows`), and it is standard if it knows
every well-known type that it has a message for, with those that are declared in the same file
(`Pool.Standard`). Then the form of each field is told by its number (`Pool.Knows.form_field?`).
-/

namespace ServiceCall

/-- What a field may hold, whatever it is called. -/
structure FieldForm where
  number : Nat
  kind : Kind
  isRepeated : Bool
  hasPresence : Bool
  isPacked : Bool
  oneofIndex : Option Nat
  hasDefault : Bool
  deriving DecidableEq, Repr

def Field.form (f : Field) : FieldForm where
  number := f.number
  kind := f.kind
  isRepeated := f.isRepeated
  hasPresence := f.hasPresence
  isPacked := f.isPacked
  oneofIndex := f.oneofIndex
  hasDefault := f.declaredDefault.isSome

/-- The forms of the fields of a type. -/
def MessageType.forms (t : MessageType) : List FieldForm := t.declared.map Field.form

namespace FieldForm

/-- A field with one value that counts as unset if it is the default. -/
def single (number : Nat) (kind : Kind) : FieldForm where
  number
  kind
  isRepeated := false
  hasPresence := false
  isPacked := false
  oneofIndex := none
  hasDefault := false

/-- A field with many values that are not written as one run. -/
def many (number : Nat) (kind : Kind) : FieldForm :=
  { single number kind with isRepeated := true }

/-- A field that tells being unset apart. -/
def present (number : Nat) (kind : Kind) : FieldForm :=
  { single number kind with hasPresence := true }

/-- A field of the first oneof. -/
def choice (number : Nat) (kind : Kind) : FieldForm :=
  { present number kind with oneofIndex := some 0 }

end FieldForm

namespace WellKnown

open FieldForm (single many present choice)

/-- The fields of a well-known type. -/
def forms : WellKnown → List FieldForm
  | any => [single 1 (.scalar .string), single 2 (.scalar .bytes)]
  | timestamp | duration => [single 1 (.scalar .int64), single 2 (.scalar .int32)]
  | fieldMask => [many 1 (.scalar .string)]
  | struct => [many 1 (.message entryName)]
  | value => [choice 1 (.enumeration nullName), choice 2 (.scalar .double),
      choice 3 (.scalar .string), choice 4 (.scalar .bool), choice 5 (.message structName),
      choice 6 (.message listName)]
  | listValue => [many 1 (.message valueName)]
  | empty => []
  | wrapper s => [single 1 (.scalar s)]

/-- The fields of an entry of an object. -/
def entryForms : List FieldForm := [single 1 (.scalar .string), present 2 (.message valueName)]

/-- The fields of the types that well-known types are made of. -/
def formsOf (name : String) : List FieldForm :=
  match ofName? name with
  | some w => w.forms
  | none => if name = entryName then entryForms else []

/-- The messages that hold JSON values; one file declares them all. -/
def structNames : List String := [structName, valueName, listName, entryName]

/-- A type with those that it is made of. -/
def family (name : String) : List String := if name ∈ structNames then structNames else [name]

/-- All types that well-known types are made of. -/
def names : List String := entryName :: table.map (·.1)

theorem mem_names_of_ofName? {name : String} {w : WellKnown} (h : ofName? name = some w) :
    name ∈ names := by
  obtain ⟨before, after, htable, -⟩ := List.lookup_eq_some_iff.1 h
  refine List.mem_cons_of_mem _ (List.mem_map.2 ⟨(name, w), ?_, rfl⟩)
  exact htable ▸ List.mem_append_right before List.mem_cons_self

theorem mem_family (name : String) : name ∈ family name := by
  unfold family
  split_ifs with h
  · exact h
  · exact List.mem_singleton_self name

end WellKnown

namespace Pool

/-- A pool declares the fields of a well-known type and nothing else. -/
structure Knows (p : Pool) (name : String) : Prop where
  forms : (p.messageType name).forms = WellKnown.formsOf name
  isMapEntry : (p.messageType name).isMapEntry = decide (name = WellKnown.entryName)
  extensions : p.extensionsOf name = []

/-- What a pool has under the names of well-known types is what these are made of, and no group is of
such a type. -/
structure Standard (p : Pool) : Prop where
  knows : ∀ name ∈ WellKnown.names, (p.referredMessage? name).isSome = true →
    ∀ n ∈ WellKnown.family name, p.Knows n
  groups : ∀ f ∈ p.fields, ∀ name, f.kind = .group name → name ∉ WellKnown.names

/-- A pool knows a type, as can be seen in its definitions. -/
def knows (p : Pool) (name : String) : Bool :=
  decide ((p.messageType name).forms = WellKnown.formsOf name) &&
    (p.messageType name).isMapEntry == decide (name = WellKnown.entryName) &&
    (p.extensionsOf name).isEmpty

/-- A pool is standard, as can be seen in its definitions. -/
def isStandard (p : Pool) : Bool :=
  WellKnown.names.all (fun name => (p.referredMessage? name).isNone ||
    (WellKnown.family name).all p.knows) &&
  p.fields.all fun f =>
    match f.kind with
    | .group name => !WellKnown.names.contains name
    | _ => true

variable {p : Pool} {name : String}

theorem knows_of_knows (h : p.knows name = true) : p.Knows name := by
  simp only [knows, Bool.and_eq_true, decide_eq_true_eq, beq_iff_eq, List.isEmpty_iff] at h
  exact ⟨h.1.1, h.1.2, h.2⟩

theorem standard_of_isStandard (h : p.isStandard = true) : p.Standard := by
  obtain ⟨hknows, hgroups⟩ := Bool.and_eq_true_iff.1 h
  rw [List.all_eq_true] at hknows hgroups
  refine ⟨fun name hname hsome n hn => ?_, fun f hf name hkind hname => ?_⟩
  · have h := hknows name hname
    rw [← Option.not_isSome, hsome, Bool.not_true, Bool.false_or, List.all_eq_true] at h
    exact knows_of_knows (h n hn)
  · have h := hgroups f hf
    rw [hkind] at h
    simp [hname] at h

namespace Knows

/-- The form of a field is told by its number. -/
theorem form_field? (h : p.Knows name) (number : Nat) :
    (p.field? name number).map Field.form =
      (WellKnown.formsOf name).find? (·.number == number) := by
  have hown : p.field? name number = (p.messageType name).declared.find? (·.number == number) := by
    rw [field?, h.extensions, MessageType.field?, List.find?_nil, Option.orElse_eq_orElse,
      Option.orElse_eq_or, Option.or_none]
  rw [← h.forms, MessageType.forms, List.find?_map, hown]
  rfl

/-- A field of a form stands under its number. -/
theorem exists_field (h : p.Knows name) {form : FieldForm}
    (hform : (WellKnown.formsOf name).find? (·.number == form.number) = some form) :
    ∃ f, p.field? name form.number = some f ∧ f.form = form := by
  rw [← h.form_field?] at hform
  exact Option.map_eq_some_iff.1 hform

end Knows

end Pool

end ServiceCall
