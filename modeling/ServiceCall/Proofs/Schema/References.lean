import ServiceCall.Proofs.Schema.Declared
import ServiceCall.Proofs.Text.Lines
/-!
# Where references lead

The messages and enums in the table of names are those that the files declare, at any depth
(`Names.typesFrom_files`), and a field that names a type at all names one in this table. So no kind of a
field leads out of what was declared: in a loaded pool it is a scalar or a declared type
(`Pool.LoadedFrom.among_of_declared`). Where the files call things by identifiers, full names are made of
letters, digits, underscores and dots (`Source.plain_of_mem_typeNames`).
-/

namespace ServiceCall

/-! ## The types in the table -/

/-- A definition is one that a field may name. -/
def Definition.isType (d : Definition) : Bool := d.kind == .message || d.kind == .enumeration

namespace Names

/-- The types among the definitions that a step adds have some of the names. -/
def TypesFrom (step : Step) (names : List String) : Prop :=
  ∀ table table', step table = .ok table' →
    ∀ d ∈ table', d.isType = true → d ∈ table ∨ d.name ∈ names

namespace TypesFrom

variable {step first second : Step} {names names' : List String}

theorem nothing : TypesFrom (fun table => .ok table) [] := by
  rintro table table' ⟨⟩ d hd -
  exact .inl hd

theorem weaken (h : TypesFrom step names) (hsub : names ⊆ names') : TypesFrom step names' :=
  fun table table' hstep d hd htype => (h table table' hstep d hd htype).imp_right (@hsub d.name)

theorem andThen (h : TypesFrom first names) (h' : TypesFrom second names') :
    TypesFrom (fun table => first table >>= second) (names ++ names') := by
  intro table table' hstep d hd htype
  obtain ⟨mid, hfirst, hsecond⟩ := Except.bind_eq_ok.1 hstep
  obtain hmid | hname := h' mid table' hsecond d hd htype
  · exact (h table mid hfirst d hmid htype).imp_right (List.mem_append_left _)
  · exact .inr (List.mem_append_right _ hname)

theorem each {α : Type} {items : List α} {step : α → Step} {names : α → List String}
    (h : ∀ x ∈ items, TypesFrom (step x) (names x)) :
    TypesFrom (each items step) (items.flatMap names) := by
  induction items with
  | nil => exact nothing
  | cons x items ih =>
    have hcons : Names.each (x :: items) step = fun table => step x table >>= Names.each items step :=
      funext fun table => List.foldlM_cons
    rw [hcons, List.flatMap_cons]
    exact (h x List.mem_cons_self).andThen (ih fun y hy => h y (List.mem_cons_of_mem x hy))

theorem each_none {α : Type} {items : List α} {step : α → Step} (h : ∀ x, TypesFrom (step x) []) :
    TypesFrom (Names.each items step) [] :=
  (each fun x _ => h x).weaken (by simp)

end TypesFrom

theorem typesFrom_add (file : String) (kind : DefinitionKind) (name : String) :
    TypesFrom (add file kind name) [name] := by
  intro table table' hadd d hd _
  obtain ⟨-, rfl⟩ | ⟨-, rfl⟩ := eq_of_add hadd
  · exact .inl hd
  · refine (List.mem_append.1 hd).imp_right fun hd => ?_
    rw [List.mem_singleton.1 hd]
    exact List.mem_singleton_self name

/-- What is no type adds none. -/
theorem typesFrom_other (file : String) {kind : DefinitionKind} (name : String)
    (hkind : (Definition.mk name kind file).isType = false) : TypesFrom (add file kind name) [] := by
  intro table table' hadd d hd htype
  obtain ⟨-, rfl⟩ | ⟨-, rfl⟩ := eq_of_add hadd
  · exact .inl hd
  · refine .inl ((List.mem_append.1 hd).resolve_right fun hd => ?_)
    rw [List.mem_singleton.1 hd, hkind] at htype
    cases htype

theorem typesFrom_enumeration (edition : Source.Edition) (file scope : String)
    (e : Source.Enumeration) :
    TypesFrom (enumeration edition file scope e) [nameWithin scope e.name] := by
  have hvalues : TypesFrom (each e.values fun v => add file .enumValue (nameWithin scope v.name)) [] :=
    .each_none fun v => typesFrom_other file _ rfl
  have hboth := (typesFrom_add file .enumeration (nameWithin scope e.name)).andThen hvalues
  intro table table' h
  obtain ⟨mid, hadd, h⟩ := Except.bind_eq_ok.1 h
  refine hboth table table' (Except.bind_eq_ok.2 ⟨mid, hadd, ?_⟩)
  cases hv : e.values with
  | nil => simp [hv] at h
  | cons v rest =>
    simp only [hv] at h
    split at h
    · cases h
    · exact h

theorem typesFrom_enumTypes (edition : Source.Edition) (file scope : String)
    (enums : List Source.Enumeration) : TypesFrom (each enums (enumeration edition file scope))
      ((enumTypes scope enums).map (·.fullName)) := by
  rw [enumTypes, List.map_map, List.map_eq_flatMap]
  exact .each fun e _ => typesFrom_enumeration edition file scope e

mutual

theorem typesFrom_message (edition : Source.Edition) (file scope : String) :
    (m : Source.MessageType) → TypesFrom (message edition file scope m)
      ((messagesOf scope m).map (·.1) ++ (enumsOf scope m).map (·.fullName))
  | ⟨name, fields, oneofs, messages, enums, extensions, ranges, reserved, mapEntry⟩ => by
    let full := nameWithin scope name
    have hexts : TypesFrom (each extensions fun x => add file .extension (nameWithin full x.name)) [] :=
      .each_none fun x => typesFrom_other file _ rfl
    have hnested := (typesFrom_messageList edition file full messages).andThen
      ((typesFrom_enumTypes edition file full enums).andThen hexts)
    have hfields : TypesFrom (each fields fun f => add file .field (nameWithin full f.name)) [] :=
      .each_none fun f => typesFrom_other file _ rfl
    have honeofs : TypesFrom (each oneofs fun o => add file .oneof (nameWithin full o)) [] :=
      .each_none fun o => typesFrom_other file _ rfl
    have hall := (typesFrom_add file .message full).andThen
      (honeofs.andThen (hfields.andThen hnested))
    intro table table' h
    simp only [message] at h
    obtain ⟨own, hown, h⟩ := Except.bind_eq_ok.1 h
    refine hall.weaken ?_ table table' (Except.bind_eq_ok.2 ⟨own, hown, ?_⟩)
    · intro n hn
      rw [messagesOf, enumsOf]
      simpa [full, or_assoc, or_comm, or_left_comm] using hn
    · -- The check for names that differ only in case adds nothing.
      split at h
      · split at h
        · cases h
        · exact h
      · exact h

theorem typesFrom_messageList (edition : Source.Edition) (file scope : String) :
    (ms : List Source.MessageType) → TypesFrom (messageList edition file scope ms)
      ((messagesOfList scope ms).map (·.1) ++ (enumsOfList scope ms).map (·.fullName))
  | [] => .nothing
  | m :: rest => by
    refine ((typesFrom_message edition file scope m).andThen
      (typesFrom_messageList edition file scope rest)).weaken fun n hn => ?_
    rw [messagesOfList, enumsOfList, List.map_append, List.map_append]
    simpa only [List.mem_append, or_assoc, or_left_comm] using hn

end

theorem typesFrom_service (file scope : String) (s : Source.Service) :
    TypesFrom (service file scope s) [] :=
  (typesFrom_other file _ rfl).andThen (.each_none fun _ => typesFrom_other file _ rfl)

end Names

/-- The full names of the messages and enums that a file declares, at any depth. -/
def Source.File.typeNames (f : File) : List String :=
  (Names.declaredIn f).map (·.1) ++ f.enumTypes.map (·.fullName)

namespace Names

theorem typesFrom_file (f : Source.File) : TypesFrom (file f) f.typeNames := by
  have hpackages : TypesFrom (each (packages f.package) (add f.name .package)) [] :=
    .each_none fun name => typesFrom_other f.name name rfl
  have hservices : TypesFrom (each f.services (service f.name f.package)) [] :=
    .each_none fun s => typesFrom_service f.name f.package s
  have hexts : TypesFrom (each f.extensions fun x =>
      add f.name .extension (nameWithin f.package x.name)) [] :=
    .each_none fun x => typesFrom_other f.name _ rfl
  have h := hpackages.andThen
    ((typesFrom_messageList f.edition f.name f.package f.messages).andThen
      ((typesFrom_enumTypes f.edition f.name f.package f.enums).andThen (hservices.andThen hexts)))
  refine h.weaken fun n hn => ?_
  simpa [Source.File.typeNames, declaredIn, Source.File.enumTypes, or_assoc, or_comm, or_left_comm]
    using hn

theorem typesFrom_files (seen : List String) (fs : List Source.File) :
    TypesFrom (files seen fs) (fs.flatMap Source.File.typeNames) := by
  induction fs generalizing seen with
  | nil => exact .nothing
  | cons f rest ih =>
    intro table table' h
    rw [files] at h
    split at h
    · cases h
    · exact (typesFrom_file f).andThen (ih (f.name :: seen)) table table' h

end Names

/-! ## The kinds of fields -/

/-- A kind is that of a scalar, or it names one of some types. -/
def Kind.Among (names : List String) (k : Kind) : Prop := (∃ s, k = .scalar s) ∨ k.name ∈ names

theorem Kind.Among.mono {names names' : List String} {k : Kind} (h : k.Among names)
    (hsub : names ⊆ names') : k.Among names' :=
  h.imp_right (@hsub k.name)

namespace Resolve

variable {c : Context} {names : List String}

theorem among_of_kind (hc : ∀ d ∈ c.scope.names, d.isType = true → d.name ∈ names)
    {fullName : String} {path : List Nat} {s : Source.Field} {k : Kind}
    (h : kind c fullName path s = .ok k) : k.Among names := by
  unfold kind at h
  split at h
  · split at h
    · cases h
    · exact .inl ⟨_, (Except.ok.inj h).symm⟩
  · obtain ⟨d, hd, h⟩ := Except.bind_eq_ok.1 h
    have hname : d.name ∈ names := by
      unfold Lookup.type at hd
      split at hd
      next e he =>
        obtain rfl := Except.ok.inj hd
        obtain ⟨hmem, htype⟩ := found_of_resolve he
        exact hc e hmem htype
      next => cases hd
    refine .inr ?_
    split at h
    · obtain rfl := Except.ok.inj h
      exact hname
    · split at h <;>
      · obtain rfl := Except.ok.inj h
        exact hname

theorem among_of_field (hc : ∀ d ∈ c.scope.names, d.isType = true → d.name ∈ names)
    {m : Source.MessageType} {full : String} {path : List Nat} {earlier : List Field}
    {s : Source.Field} {f : Field} (h : field c m full path earlier s = .ok f) :
    f.kind.Among names := by
  obtain ⟨⟨⟩, -, h⟩ := Except.bind_eq_ok.1 h
  obtain ⟨k, hk, h⟩ := Except.bind_eq_ok.1 h
  obtain ⟨fallback, -, h⟩ := Except.bind_eq_ok.1 h
  split at h <;>
  · obtain ⟨⟨⟩, -, h⟩ := Except.bind_eq_ok.1 h
    obtain ⟨⟨⟩, -, h⟩ := Except.bind_eq_ok.1 h
    obtain ⟨⟨⟩, -, h⟩ := Except.bind_eq_ok.1 h
    obtain rfl := Except.ok.inj h
    exact among_of_kind hc hk

theorem among_of_fields (hc : ∀ d ∈ c.scope.names, d.isType = true → d.name ∈ names)
    {m : Source.MessageType} {full : String} {path : List Nat} {index : Nat} {earlier : List Field}
    {ss : List Source.Field} {fs : List Field} (h : fields c m full path index earlier ss = .ok fs)
    (hearlier : ∀ f ∈ earlier, f.kind.Among names) : ∀ f ∈ fs, f.kind.Among names := by
  induction ss generalizing index earlier with
  | nil =>
    obtain rfl := Except.ok.inj h
    exact hearlier
  | cons s ss ih =>
    obtain ⟨f, hf, h⟩ := Except.bind_eq_ok.1 h
    refine ih h (List.forall_mem_append.2 ⟨hearlier, List.forall_mem_singleton.2 ?_⟩)
    exact among_of_field hc hf

mutual

theorem among_of_message (hc : ∀ d ∈ c.scope.names, d.isType = true → d.name ∈ names)
    {numbers : String → Numbers} {scope : String} {path : List Nat} {ts : List MessageType}
    {xs : List Extension} :
    (m : Source.MessageType) → message c numbers scope path m = .ok (ts, xs) →
      ∀ t ∈ ts, ∀ f ∈ t.declared, f.kind.Among names
  | ⟨name, declared, oneofs, messages, enums, exts, ranges, reserved, mapEntry⟩, h => by
    rw [message] at h
    obtain ⟨own, hown, h⟩ := Except.bind_eq_ok.1 h
    obtain ⟨⟨nested, nestedExts⟩, hnested, h⟩ := Except.bind_eq_ok.1 h
    obtain ⟨⟨⟩, -, h⟩ := Except.bind_eq_ok.1 h
    obtain ⟨ownExts, -, h⟩ := Except.bind_eq_ok.1 h
    obtain ⟨rfl, -⟩ := Prod.mk.inj (Except.ok.inj h)
    exact List.forall_mem_cons.2 ⟨among_of_fields hc hown (by simp),
      among_of_messageList hc messages hnested⟩

theorem among_of_messageList (hc : ∀ d ∈ c.scope.names, d.isType = true → d.name ∈ names)
    {numbers : String → Numbers} {scope : String} {path : List Nat} {index : Nat}
    {ts : List MessageType} {xs : List Extension} :
    (ms : List Source.MessageType) → messageList c numbers scope path index ms = .ok (ts, xs) →
      ∀ t ∈ ts, ∀ f ∈ t.declared, f.kind.Among names
  | [], h => by
    obtain ⟨rfl, -⟩ := Prod.mk.inj (Except.ok.inj h)
    exact fun t ht => nomatch ht
  | m :: rest, h => by
    rw [messageList] at h
    obtain ⟨⟨ts, xs⟩, hfirst, h⟩ := Except.bind_eq_ok.1 h
    obtain ⟨⟨ts', xs'⟩, hrest, h⟩ := Except.bind_eq_ok.1 h
    obtain ⟨rfl, -⟩ := Prod.mk.inj (Except.ok.inj h)
    exact List.forall_mem_append.2 ⟨among_of_message hc m hfirst,
      among_of_messageList hc rest hrest⟩

end

theorem among_of_file {files : List PoolFile} {table : List Definition} {enums : List EnumType}
    {numbers : String → Numbers} {f : Source.File} {a : Additions}
    (hc : ∀ d ∈ table, d.isType = true → d.name ∈ names)
    (h : file files table enums numbers f = .ok a) :
    ∀ t ∈ a.messages, ∀ g ∈ t.declared, g.kind.Among names := by
  obtain ⟨⟨⟩, -, h⟩ := Except.bind_eq_ok.1 h
  obtain ⟨⟨messages, exts⟩, hmessages, h⟩ := Except.bind_eq_ok.1 h
  obtain ⟨⟨⟩, -, h⟩ := Except.bind_eq_ok.1 h
  obtain ⟨services, -, h⟩ := Except.bind_eq_ok.1 h
  obtain ⟨topExts, -, h⟩ := Except.bind_eq_ok.1 h
  obtain rfl := Except.ok.inj h
  exact among_of_messageList hc f.messages hmessages

end Resolve

namespace Pool

/-- The full names of the messages and enums that files declare. -/
def typeNames (files : List Source.File) : List String := files.flatMap Source.File.typeNames

/-- What types a pool knows and its fields name. -/
structure TypeOrigin (p : Pool) (files : List Source.File) : Prop where
  names : ∀ d ∈ p.names, d.isType = true → d.name ∈ typeNames files
  kinds : ∀ t ∈ p.messages, ∀ f ∈ t.declared, f.kind.Among (typeNames files)

theorem TypeOrigin.add {p q : Pool} {files set : List Source.File} (h : p.TypeOrigin files)
    (hq : p.add set = .ok q) : q.TypeOrigin (files ++ p.fresh set) := by
  obtain ⟨names, hnames, hq⟩ := Except.bind_eq_ok.1 hq
  obtain ⟨additions, hadditions, hq⟩ := Except.bind_eq_ok.1 hq
  obtain ⟨⟨⟩, -, hq⟩ := Except.bind_eq_ok.1 hq
  obtain rfl := Except.ok.inj hq
  have htypes : typeNames (files ++ p.fresh set) = typeNames files ++ typeNames (p.fresh set) :=
    List.flatMap_append
  have hknown : ∀ d ∈ names, d.isType = true → d.name ∈ typeNames (files ++ p.fresh set) := by
    intro d hd htype
    rw [htypes, List.mem_append]
    exact (Names.typesFrom_files _ _ _ _ hnames d hd htype).imp_left (h.names d · htype)
  refine ⟨hknown, List.forall_mem_append.2 ⟨fun t ht f hf => ?_, fun t ht => ?_⟩⟩
  · exact (h.kinds t ht f hf).mono (htypes ▸ List.subset_append_left _ _)
  · obtain ⟨a, ha, ht⟩ := List.mem_flatMap.1 ht
    obtain ⟨f, -, hfa⟩ := (List.mapM_eq_ok.1 hadditions).exists_left ha
    exact Resolve.among_of_file hknown hfa t ht

variable {p : Pool} {files : List Source.File}

theorem LoadedFrom.typeOrigin (h : p.LoadedFrom files) : p.TypeOrigin files := by
  induction h with
  | empty => exact ⟨by simp [Pool.empty], by simp [Pool.empty]⟩
  | add _ _ hq ih => exact ih.add hq

/-- The kinds of the fields of a message are scalars or types that the files declare. -/
theorem LoadedFrom.among_of_declared (h : p.LoadedFrom files) {type : String} {f : Field}
    (hf : f ∈ (p.messageType type).declared) : f.kind.Among (typeNames files) := by
  obtain ht | ht := p.messageType_mem_or_empty type
  · exact h.typeOrigin.kinds _ ht f hf
  · rw [ht] at hf
    cases hf

end Pool

/-! ## Identifiers -/

/-- A letter or an underscore, and then letters, digits and underscores. -/
def isIdentifier : List Char → Bool
  | [] => false
  | c :: rest => (c.isAlpha || c == '_') && rest.all fun c => c.isAlphanum || c == '_'

/-- A character of identifiers with dots between them. -/
def isNameChar (c : Char) : Bool := c.isAlphanum || c == '_' || c == '.'

/-- A text is made of nothing but identifiers and dots. -/
def Plain (s : String) : Prop := ∀ c ∈ s.toList, isNameChar c = true

instance (s : String) : Decidable (Plain s) :=
  decidable_of_iff (s.toList.all isNameChar = true) List.all_eq_true

theorem isNameChar_of_isIdentifier {s : List Char} (h : isIdentifier s = true) :
    ∀ c ∈ s, isNameChar c = true := by
  cases s with
  | nil => cases h
  | cons c rest =>
    simp only [isIdentifier, Bool.and_eq_true, List.all_eq_true] at h
    refine List.forall_mem_cons.2 ⟨?_, fun d hd => ?_⟩
    · have hc := h.1
      simp only [Char.isAlphanum, isNameChar, Bool.or_eq_true] at hc ⊢
      tauto
    · rw [isNameChar, h.2 d hd, Bool.true_or]

theorem plain_nameWithin {scope name : String} (hscope : Plain scope) (hname : Plain name) :
    Plain (nameWithin scope name) := by
  unfold nameWithin
  split
  · exact hname
  · intro c hc
    simp only [String.toList_append, List.mem_append] at hc
    obtain (hc | hc) | hc := hc
    · exact hscope c hc
    · obtain rfl : c = '.' := by simpa using hc
      rfl
    · exact hname c hc

namespace Source

/-- A file calls things by identifiers: its package by some with dots between them, its messages with
their fields and its enums, at any depth, and the methods of its services. -/
structure File.Spelled (f : File) : Prop where
  package : f.package = "" ∨ ∀ part ∈ f.package.toList.splitOn '.', isIdentifier part = true
  messages : ∀ d ∈ Names.declaredIn f, isIdentifier d.2.name.toList = true
  fields : ∀ d ∈ Names.declaredIn f, ∀ s ∈ d.2.fields, isIdentifier s.name.toList = true
  enums : ∀ e ∈ f.enumTypes, isIdentifier e.name.toList = true
  methods : ∀ s ∈ f.services, ∀ m ∈ s.methods, isIdentifier m.name.toList = true

theorem File.Spelled.plain_package {f : File} (h : f.Spelled) : Plain f.package := by
  obtain hnone | hparts := h.package
  · rw [hnone]
    exact fun c hc => absurd hc (by simp)
  · intro c hc
    rw [← f.package.toList.intercalate_splitOn '.'] at hc
    exact List.forall_mem_intercalate (P := fun c => isNameChar c = true)
      (List.forall_mem_singleton.2 rfl)
      (fun part hpart => isNameChar_of_isIdentifier (hparts part hpart)) c hc

end Source

namespace Names

theorem plain_enumTypes {scope : String} (hscope : Plain scope) {enums : List Source.Enumeration}
    (h : ∀ e ∈ enumTypes scope enums, isIdentifier e.name.toList = true) :
    ∀ e ∈ enumTypes scope enums, Plain e.fullName := by
  rw [enumTypes, List.forall_mem_map] at h ⊢
  exact fun e he => plain_nameWithin hscope (isNameChar_of_isIdentifier (h e he))

mutual

/-- The full names of types are plain if what they are put together from is. -/
theorem plain_messagesOf {scope : String} (hscope : Plain scope) :
    (m : Source.MessageType) →
      (∀ d ∈ messagesOf scope m, isIdentifier d.2.name.toList = true) →
      (∀ e ∈ enumsOf scope m, isIdentifier e.name.toList = true) →
      (∀ d ∈ messagesOf scope m, Plain d.1) ∧ ∀ e ∈ enumsOf scope m, Plain e.fullName
  | ⟨name, fields, oneofs, messages, enums, extensions, ranges, reserved, mapEntry⟩, hm, he => by
    rw [messagesOf, List.forall_mem_cons] at hm
    rw [enumsOf, List.forall_mem_append] at he
    have hfull : Plain (nameWithin scope name) :=
      plain_nameWithin hscope (isNameChar_of_isIdentifier hm.1)
    obtain ⟨hnested, hnestedEnums⟩ := plain_messagesOfList hfull messages hm.2 he.2
    rw [messagesOf, enumsOf]
    exact ⟨List.forall_mem_cons.2 ⟨hfull, hnested⟩,
      List.forall_mem_append.2 ⟨plain_enumTypes hfull he.1, hnestedEnums⟩⟩

theorem plain_messagesOfList {scope : String} (hscope : Plain scope) :
    (ms : List Source.MessageType) →
      (∀ d ∈ messagesOfList scope ms, isIdentifier d.2.name.toList = true) →
      (∀ e ∈ enumsOfList scope ms, isIdentifier e.name.toList = true) →
      (∀ d ∈ messagesOfList scope ms, Plain d.1) ∧ ∀ e ∈ enumsOfList scope ms, Plain e.fullName
  | [], _, _ => ⟨fun d hd => absurd hd (by simp [messagesOfList]),
      fun e he => absurd he (by simp [enumsOfList])⟩
  | m :: rest, hm, he => by
    rw [messagesOfList, List.forall_mem_append] at hm
    rw [enumsOfList, List.forall_mem_append] at he
    obtain ⟨hfirst, hfirstEnums⟩ := plain_messagesOf hscope m hm.1 he.1
    obtain ⟨hrest, hrestEnums⟩ := plain_messagesOfList hscope rest hm.2 he.2
    rw [messagesOfList, enumsOfList]
    exact ⟨List.forall_mem_append.2 ⟨hfirst, hrest⟩, List.forall_mem_append.2 ⟨hfirstEnums, hrestEnums⟩⟩

end

end Names

/-- The full names of all types of a file that calls things by identifiers are plain. -/
theorem Source.File.Spelled.plain_typeNames {f : Source.File} (h : f.Spelled) :
    ∀ name ∈ f.typeNames, Plain name := by
  have henums := List.forall_mem_append.1 h.enums
  obtain ⟨hmessages, hnested⟩ :=
    Names.plain_messagesOfList h.plain_package f.messages h.messages henums.2
  refine List.forall_mem_append.2 ⟨List.forall_mem_map.2 hmessages, List.forall_mem_map.2 ?_⟩
  exact List.forall_mem_append.2 ⟨Names.plain_enumTypes h.plain_package henums.1, hnested⟩

theorem Scalar.plain_name (s : Scalar) : Plain s.name := by cases s <;> decide

/-- What a kind is called is plain if the types are called so. -/
theorem Kind.Among.plain_name {names : List String} {k : Kind} (h : k.Among names)
    (hnames : ∀ name ∈ names, Plain name) : Plain k.name := by
  obtain ⟨s, rfl⟩ | hmem := h
  · exact s.plain_name
  · exact hnames _ hmem

end ServiceCall
