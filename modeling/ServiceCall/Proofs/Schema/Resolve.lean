import ServiceCall.Proofs.Message.Scalar
import ServiceCall.Proofs.Schema.Names
import ServiceCall.Schema.Resolve
/-!
# What resolving makes of declarations

A file that is resolved gives a message type for every message it declares, at any depth and
in the same order: with the fields of the declaration under the same names and numbers and in
the same order (`MessageType.Declares`), all of them well-formed (`Field.WellFormed`) and told
apart by their numbers and by their JSON names (`MessageType.WellFormed`).
-/

namespace ServiceCall

/-- What holds of every field and extension that was resolved. -/
structure Field.WellFormed (f : Field) : Prop where
  number_pos : 1 ≤ f.number
  number_lt : f.number < 2 ^ 29
  packed : f.isPacked = true → f.isRepeated = true ∧ f.kind.isPackable = true
  oneof : f.oneofIndex.isSome = true → f.hasPresence = true
  default : ∀ v ∈ f.declaredDefault, f.kind.Holds v
  presence : ∀ name, f.kind = .message name ∨ f.kind = .group name → f.isRepeated = false →
    f.hasPresence = true

/-- A field is that of a declaration. -/
structure Field.Declares (s : Source.Field) (f : Field) : Prop where
  name : f.name = s.name
  number : (f.number : Int) = s.number

/-- What holds of every message type that was resolved. -/
structure MessageType.WellFormed (t : MessageType) : Prop where
  fields : ∀ f ∈ t.declared, f.WellFormed
  oneofs : ∀ f ∈ t.declared, ∀ i ∈ f.oneofIndex, i < t.oneofs.length
  numbers : (t.declared.map (·.number)).Nodup
  jsonNames : (t.declared.map (·.jsonName)).Nodup

/-- A message type is that of a declaration. -/
structure MessageType.Declares (d : Names.Declared) (t : MessageType) : Prop where
  fullName : t.fullName = d.1
  fields : List.Forall₂ Field.Declares d.2.fields t.declared

/-- The numbers of enum values are those of their type on the wire. -/
def EnumType.InRange (e : EnumType) : Prop :=
  ∀ v ∈ e.values, IntegerRange.int32.mem v.number = true

/-- What holds of every extension that was resolved. -/
structure Extension.WellFormed (x : Extension) : Prop where
  field : x.field.WellFormed
  oneof : x.field.oneofIndex = none
  presence : x.field.isRepeated = false → x.field.hasPresence = true

namespace Resolve

theorem check_eq_ok {condition : Bool} {e : SchemaError} :
    check condition e = .ok () ↔ condition = true := by
  cases condition <;> simp [check]

variable {c : Context}

/-! ## Fields -/

theorem isFieldNumber_of_number {n : Numbers} {s : Source.Field} (h : number n s = .ok ()) :
    isFieldNumber s.number = true := by
  obtain ⟨⟨⟩, hcheck, -⟩ := Except.bind_eq_ok.1 h
  exact check_eq_ok.1 hcheck

theorem holds_of_declaredDefault (hc : ∀ e ∈ c.enums, e.InRange) {k : Kind} {s : Source.Field}
    {fallback : Option Value} (h : declaredDefault c k s = .ok fallback) :
    ∀ v ∈ fallback, k.Holds v := by
  unfold declaredDefault at h
  split at h
  · cases h
    exact fun v hv => nomatch hv
  · split at h
    next v hv =>
      cases h
      rintro w ⟨⟩
      cases k with
      | scalar k => exact Scalar.holds_default hv
      | enumeration name =>
        obtain ⟨e, he, hv⟩ := Option.bind_eq_some_iff.1 hv
        obtain ⟨value, hvalue, hv⟩ := Option.bind_eq_some_iff.1 hv
        cases hv
        exact hc e (List.mem_of_find?_eq_some he) value (List.mem_of_find?_eq_some hvalue)
      | message name | group name => cases hv
    next => cases h

/-- What is completed from a declaration whose number is one of a field is well-formed. -/
theorem wellFormed_complete {fullName jsonName : String} {k : Kind} {fallback : Option Value}
    {presence : Bool} {s : Source.Field} {oneofIndex : Option Nat}
    (hnumber : isFieldNumber s.number = true) (hdefault : ∀ v ∈ fallback, k.Holds v)
    (honeof : oneofIndex.isSome = true → presence = true)
    (hpresence : ∀ name, k = .message name ∨ k = .group name → s.label ≠ .repeated →
      presence = true) :
    Field.WellFormed { complete c fullName jsonName k fallback presence s with oneofIndex } := by
  simp only [isFieldNumber, Bool.and_eq_true, decide_eq_true_eq] at hnumber
  refine ⟨?_, ?_, ?_, honeof, hdefault, fun name hk hs => hpresence name hk (by
    simpa only [complete, decide_eq_false_iff_not] using hs)⟩
  · simp only [complete]
    omega
  · simp only [complete]
    omega
  · simp only [complete, isPacked, Bool.and_eq_true]
    exact fun h => h.1

theorem declares_complete {fullName jsonName : String} {k : Kind} {fallback : Option Value}
    {presence : Bool} {s : Source.Field} {oneofIndex : Option Nat}
    (hnumber : isFieldNumber s.number = true) :
    Field.Declares s { complete c fullName jsonName k fallback presence s with oneofIndex } := by
  simp only [isFieldNumber, Bool.and_eq_true, decide_eq_true_eq] at hnumber
  refine ⟨rfl, ?_⟩
  simp only [complete]
  omega

/-- What holds of a field that is resolved after others. -/
structure FieldOf (m : Source.MessageType) (earlier : List Field) (s : Source.Field) (f : Field) :
    Prop where
  declares : f.Declares s
  wellFormed : f.WellFormed
  oneof : ∀ i ∈ f.oneofIndex, i < m.oneofs.length
  number : f.number ∉ earlier.map (·.number)
  jsonName : f.jsonName ∉ earlier.map (·.jsonName)

theorem not_mem_of_check {α : Type} [BEq α] [LawfulBEq α] {earlier : List Field} {key : Field → α}
    {a : α} {e : SchemaError} (h : check (!earlier.any fun g => key g == a) e = .ok ()) :
    a ∉ earlier.map key := by
  rw [check_eq_ok, Bool.not_eq_true', List.any_eq_false] at h
  rintro hmem
  obtain ⟨g, hg, hga⟩ := List.mem_map.1 hmem
  exact h g hg (beq_iff_eq.2 hga)

theorem fieldOf_of_field (hc : ∀ e ∈ c.enums, e.InRange) {m : Source.MessageType} {full : String}
    {path : List Nat} {earlier : List Field} {s : Source.Field} {f : Field}
    (h : field c m full path earlier s = .ok f) : FieldOf m earlier s f := by
  obtain ⟨⟨⟩, hnumber, h⟩ := Except.bind_eq_ok.1 h
  replace hnumber := isFieldNumber_of_number hnumber
  obtain ⟨k, -, h⟩ := Except.bind_eq_ok.1 h
  obtain ⟨fallback, hdefault, h⟩ := Except.bind_eq_ok.1 h
  replace hdefault := holds_of_declaredDefault hc hdefault
  -- The place of a oneof is checked only if there is one.
  have hindex : ∀ i ∈ s.oneofIndex, 0 ≤ i ∧ i < m.oneofs.length := by
    intro i hi
    simp only [show s.oneofIndex = some i from hi] at h
    obtain ⟨⟨⟩, hcheck, -⟩ := Except.bind_eq_ok.1 h
    simpa using check_eq_ok.1 hcheck
  have honeof : ∀ i ∈ s.oneofIndex.map Int.toNat, i < m.oneofs.length := by
    intro i hi
    obtain ⟨j, hj, rfl⟩ := Option.map_eq_some_iff.1 hi
    have := hindex j hj
    omega
  have hinOneof : (s.oneofIndex.map Int.toNat).isSome = true →
      hasPresence c.edition k s = true := by
    rw [Option.isSome_map]
    intro hs
    simp [hasPresence, hs]
  have hrecord : ∀ name, k = .message name ∨ k = .group name → s.label ≠ .repeated →
      hasPresence c.edition k s = true := by
    rintro name (rfl | rfl) hs <;> simp [hasPresence, hs]
  split at h <;>
  · obtain ⟨⟨⟩, -, h⟩ := Except.bind_eq_ok.1 h
    obtain ⟨⟨⟩, hfree, h⟩ := Except.bind_eq_ok.1 h
    obtain ⟨⟨⟩, hfreeJson, h⟩ := Except.bind_eq_ok.1 h
    obtain rfl := Except.ok.inj h
    exact ⟨declares_complete hnumber, wellFormed_complete hnumber hdefault hinOneof hrecord,
      honeof,
      not_mem_of_check hfree, not_mem_of_check hfreeJson⟩

/-- Fields that are resolved in their order. -/
theorem declares_of_fields (hc : ∀ e ∈ c.enums, e.InRange) {m : Source.MessageType} {full : String}
    {path : List Nat} {index : Nat} {earlier : List Field} {ss : List Source.Field}
    {fs : List Field} (h : fields c m full path index earlier ss = .ok fs)
    (hn : (earlier.map (·.number)).Nodup) (hj : (earlier.map (·.jsonName)).Nodup) :
    ∃ new, fs = earlier ++ new ∧ List.Forall₂ Field.Declares ss new ∧
      (∀ f ∈ new, f.WellFormed ∧ ∀ i ∈ f.oneofIndex, i < m.oneofs.length) ∧
      (fs.map (·.number)).Nodup ∧ (fs.map (·.jsonName)).Nodup := by
  induction ss generalizing index earlier with
  | nil =>
    obtain rfl := Except.ok.inj h
    exact ⟨[], by simp, .nil, by simp, hn, hj⟩
  | cons s ss ih =>
    obtain ⟨f, hf, h⟩ := Except.bind_eq_ok.1 h
    have hspec := fieldOf_of_field hc hf
    have hn' : ((earlier ++ [f]).map (·.number)).Nodup := by
      rw [List.map_append, List.map_singleton, ← List.concat_eq_append]
      exact List.Nodup.concat hspec.number hn
    have hj' : ((earlier ++ [f]).map (·.jsonName)).Nodup := by
      rw [List.map_append, List.map_singleton, ← List.concat_eq_append]
      exact List.Nodup.concat hspec.jsonName hj
    obtain ⟨new, rfl, hall, hwf, hnumbers, hjson⟩ := ih h hn' hj'
    refine ⟨f :: new, by simp, .cons hspec.declares hall, ?_, hnumbers, hjson⟩
    exact List.forall_mem_cons.2 ⟨⟨hspec.wellFormed, hspec.oneof⟩, hwf⟩

/-! ## Extensions -/

theorem wellFormed_of_extension (hc : ∀ e ∈ c.enums, e.InRange) {numbers : String → Numbers}
    {scope : String} {path : List Nat} {s : Source.Field} {x : Extension}
    (h : extension c numbers scope path s = .ok x) : x.WellFormed := by
  obtain ⟨extendee, -, h⟩ := Except.bind_eq_ok.1 h
  obtain ⟨⟨⟩, hnumber, h⟩ := Except.bind_eq_ok.1 h
  obtain ⟨k, -, h⟩ := Except.bind_eq_ok.1 h
  obtain ⟨fallback, hdefault, h⟩ := Except.bind_eq_ok.1 h
  obtain rfl := Except.ok.inj h
  exact ⟨wellFormed_complete (isFieldNumber_of_number hnumber)
    (holds_of_declaredDefault hc hdefault) (by simp) (fun _ _ hs => decide_eq_true hs), rfl,
    fun hs => by simpa [complete] using hs⟩

theorem wellFormed_of_extensions (hc : ∀ e ∈ c.enums, e.InRange) {numbers : String → Numbers}
    {scope : String} {path : List Nat} {tag index : Nat} {ss : List Source.Field}
    {xs : List Extension} (h : extensions c numbers scope path tag index ss = .ok xs) :
    ∀ x ∈ xs, x.WellFormed := by
  induction ss generalizing index xs with
  | nil =>
    obtain rfl := Except.ok.inj h
    exact fun x hx => nomatch hx
  | cons s ss ih =>
    obtain ⟨x, hx, h⟩ := Except.bind_eq_ok.1 h
    obtain ⟨rest, hrest, h⟩ := Except.bind_eq_ok.1 h
    obtain rfl := Except.ok.inj h
    exact List.forall_mem_cons.2 ⟨wellFormed_of_extension hc hx, ih hrest⟩

/-! ## Messages -/

/-- Message types are those of declarations, in their order, and well-formed. -/
abbrev Resolved (ds : List Names.Declared) (ts : List MessageType) : Prop :=
  List.Forall₂ (fun d t => MessageType.Declares d t ∧ t.WellFormed) ds ts

mutual

theorem resolved_of_message (hc : ∀ e ∈ c.enums, e.InRange) {numbers : String → Numbers}
    {scope : String} {path : List Nat} {ts : List MessageType} {xs : List Extension} :
    (m : Source.MessageType) → message c numbers scope path m = .ok (ts, xs) →
      Resolved (Names.messagesOf scope m) ts ∧ ∀ x ∈ xs, x.WellFormed
  | ⟨name, declared, oneofs, messages, enums, exts, ranges, reserved, mapEntry⟩, h => by
    rw [message] at h
    obtain ⟨own, hown, h⟩ := Except.bind_eq_ok.1 h
    obtain ⟨⟨nested, nestedExts⟩, hnested, h⟩ := Except.bind_eq_ok.1 h
    obtain ⟨⟨⟩, -, h⟩ := Except.bind_eq_ok.1 h
    obtain ⟨ownExts, hexts, h⟩ := Except.bind_eq_ok.1 h
    obtain ⟨rfl, rfl⟩ := Prod.mk.inj (Except.ok.inj h)
    obtain ⟨new, rfl, hall, hwf, hnumbers, hjson⟩ := declares_of_fields hc hown .nil .nil
    obtain ⟨hrest, hnestedExts⟩ := resolved_of_messageList hc messages hnested
    rw [Names.messagesOf]
    refine ⟨.cons ⟨⟨rfl, hall⟩, ⟨fun f hf => (hwf f hf).1, fun f hf => (hwf f hf).2, hnumbers, hjson⟩⟩
      hrest, fun x hx => ?_⟩
    obtain hx | hx := List.mem_append.1 hx
    · exact hnestedExts x hx
    · exact wellFormed_of_extensions hc hexts x hx

theorem resolved_of_messageList (hc : ∀ e ∈ c.enums, e.InRange) {numbers : String → Numbers}
    {scope : String} {path : List Nat} {index : Nat} {ts : List MessageType}
    {xs : List Extension} :
    (ms : List Source.MessageType) → messageList c numbers scope path index ms = .ok (ts, xs) →
      Resolved (Names.messagesOfList scope ms) ts ∧ ∀ x ∈ xs, x.WellFormed
  | [], h => by
    obtain ⟨rfl, rfl⟩ := Prod.mk.inj (Except.ok.inj h)
    exact ⟨.nil, fun x hx => nomatch hx⟩
  | m :: rest, h => by
    rw [messageList] at h
    obtain ⟨⟨ts, xs⟩, hfirst, h⟩ := Except.bind_eq_ok.1 h
    obtain ⟨⟨ts', xs'⟩, hrest, h⟩ := Except.bind_eq_ok.1 h
    obtain ⟨rfl, rfl⟩ := Prod.mk.inj (Except.ok.inj h)
    obtain ⟨hts, hxs⟩ := resolved_of_message hc m hfirst
    obtain ⟨hts', hxs'⟩ := resolved_of_messageList hc rest hrest
    refine ⟨List.rel_append hts hts', fun x hx => ?_⟩
    obtain hx | hx := List.mem_append.1 hx
    · exact hxs x hx
    · exact hxs' x hx

end

/-! ## References -/

section Lookup

variable {s : Lookup.Scope} {wanted : DefinitionKind → Bool} {d : Definition}

theorem found_of_exact {name : String} (h : Lookup.exact s wanted name = .ok d) :
    d ∈ s.names ∧ wanted d.kind = true := by
  unfold Lookup.exact at h
  split at h
  · cases h
  next e he =>
    split_ifs at h with hvisible hwanted
    cases h
    exact ⟨List.mem_of_find?_eq_some he, hwanted⟩

theorem found_of_simple {name : String} {failure : Lookup.Failure} {scopes : List String}
    (h : Lookup.simple s wanted name failure scopes = .ok d) :
    d ∈ s.names ∧ wanted d.kind = true := by
  induction scopes generalizing failure with
  | nil => cases h
  | cons scope rest ih =>
    rw [Lookup.simple] at h
    split at h
    next he =>
      cases h
      exact found_of_exact he
    next => exact ih h

theorem found_of_dotted {first name : String} {scopes : List String}
    (h : Lookup.dotted s wanted first name scopes = .ok d) :
    d ∈ s.names ∧ wanted d.kind = true := by
  induction scopes with
  | nil => cases h
  | cons scope rest ih =>
    rw [Lookup.dotted] at h
    split_ifs at h
    · split at h
      · cases h
      · exact found_of_exact h
    · exact ih h

/-- A reference leads to a definition of the table that is of a wanted kind. -/
theorem found_of_resolve {scope name : String} (h : Lookup.resolve s wanted scope name = .ok d) :
    d ∈ s.names ∧ wanted d.kind = true := by
  unfold Lookup.resolve at h
  split at h
  · exact found_of_exact h
  · split at h
    · exact found_of_dotted h
    · exact found_of_simple h

theorem found_of_message {scope name full : String} (h : Lookup.message s scope name = .ok full) :
    ∃ d ∈ s.names, d.kind = .message ∧ d.name = full := by
  unfold Lookup.message at h
  split at h
  next d hd =>
    cases h
    obtain ⟨hmem, hkind⟩ := found_of_resolve hd
    exact ⟨d, hmem, beq_iff_eq.1 hkind, rfl⟩
  next => cases h

end Lookup

/-- The input of a method of a service that is resolved is a message of the table of names. -/
theorem input_of_service {package : String} {s : Source.Service} {resolved : Service}
    (h : service c package s = .ok resolved) :
    ∀ m ∈ resolved.methods, ∃ d ∈ c.scope.names, d.kind = .message ∧ d.name = m.input := by
  obtain ⟨methods, hmethods, h⟩ := Except.bind_eq_ok.1 h
  obtain rfl := Except.ok.inj h
  intro m hm
  obtain ⟨declared, -, hdeclared⟩ := (List.mapM_eq_ok.1 hmethods).exists_left hm
  obtain ⟨input, hinput, h⟩ := Except.bind_eq_ok.1 hdeclared
  obtain ⟨output, -, h⟩ := Except.bind_eq_ok.1 h
  obtain rfl := Except.ok.inj h
  exact found_of_message hinput

/-! ## Files -/

theorem resolved_of_file {files : List PoolFile} {names : List Definition} {enums : List EnumType}
    {numbers : String → Numbers} {f : Source.File} {a : Additions}
    (hc : ∀ e ∈ enums, e.InRange) (h : file files names enums numbers f = .ok a) :
    Resolved (Names.declaredIn f) a.messages ∧ (∀ x ∈ a.extensions, x.WellFormed) ∧
      ∀ s ∈ a.services, ∀ m ∈ s.methods, ∃ d ∈ names, d.kind = .message ∧ d.name = m.input := by
  obtain ⟨⟨⟩, -, h⟩ := Except.bind_eq_ok.1 h
  obtain ⟨⟨messages, exts⟩, hmessages, h⟩ := Except.bind_eq_ok.1 h
  obtain ⟨⟨⟩, -, h⟩ := Except.bind_eq_ok.1 h
  obtain ⟨services, hservices, h⟩ := Except.bind_eq_ok.1 h
  obtain ⟨topExts, htop, h⟩ := Except.bind_eq_ok.1 h
  obtain rfl := Except.ok.inj h
  obtain ⟨hts, hxs⟩ := resolved_of_messageList hc f.messages hmessages
  refine ⟨hts, fun x hx => ?_, fun s hs => ?_⟩
  · obtain hx | hx := List.mem_append.1 hx
    · exact hxs x hx
    · exact wellFormed_of_extensions hc htop x hx
  · obtain ⟨declared, -, hdeclared⟩ := (List.mapM_eq_ok.1 hservices).exists_left hs
    exact input_of_service hdeclared

end Resolve

end ServiceCall
