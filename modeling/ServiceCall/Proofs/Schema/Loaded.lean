import Mathlib.Data.List.Nodup
import ServiceCall.Proofs.Schema.Resolve
import ServiceCall.Schema.Pool
import ServiceCall.Schema.Standard
/-!
# Loaded pools and the order of fields

The fields of a message stand in the order of their numbers, and the messages of a loaded pool are
those that its files declare, in the order of the declarations.
-/

namespace ServiceCall.MessageType

/-! ## Fields in ascending order

`MessageType.fields` are the declared fields, put into the ascending order of their numbers
(`fields_perm`, `pairwise_fields`). They stand in the order of their declaration exactly if
the numbers ascend in that order (`fields_eq_declared_iff`).
-/

theorem insertField_perm (f : Field) (fs : List Field) : (insertField f fs).Perm (f :: fs) := by
  induction fs with
  | nil => rfl
  | cons g rest ih =>
    rw [insertField]
    split
    · rfl
    · exact (ih.cons g).trans (List.Perm.swap f g rest)

theorem foldr_insertField_perm (fs : List Field) : (fs.foldr insertField []).Perm fs := by
  induction fs with
  | nil => rfl
  | cons f rest ih => exact (insertField_perm f _).trans (ih.cons f)

theorem fields_perm (t : MessageType) : t.fields.Perm t.declared := foldr_insertField_perm t.declared

theorem mem_fields {t : MessageType} {f : Field} : f ∈ t.fields ↔ f ∈ t.declared :=
  t.fields_perm.mem_iff

/-- A field of a new number is put between the smaller and the greater ones. -/
theorem pairwise_insertField {f : Field} {fs : List Field}
    (h : fs.Pairwise fun a b => a.number < b.number) (hf : f.number ∉ fs.map (·.number)) :
    (insertField f fs).Pairwise fun a b => a.number < b.number := by
  induction fs with
  | nil => exact List.pairwise_singleton ..
  | cons g rest ih =>
    obtain ⟨hg, hrest⟩ := List.pairwise_cons.1 h
    rw [List.map_cons, List.mem_cons, not_or] at hf
    rw [insertField]
    split
    next hlt =>
      refine List.pairwise_cons.2 ⟨fun a ha => ?_, h⟩
      obtain rfl | ha := List.mem_cons.1 ha
      · exact hlt
      · exact Nat.lt_trans hlt (hg a ha)
    next hge =>
      refine List.pairwise_cons.2 ⟨fun a ha => ?_, ih hrest hf.2⟩
      obtain rfl | ha := List.mem_cons.1 ((insertField_perm f rest).mem_iff.1 ha)
      · omega
      · exact hg a ha

theorem pairwise_fields {t : MessageType} (h : (t.declared.map (·.number)).Nodup) :
    t.fields.Pairwise fun a b => a.number < b.number := by
  unfold fields
  generalize t.declared = fs at h
  induction fs with
  | nil => exact .nil
  | cons f rest ih =>
    obtain ⟨hf, hrest⟩ := List.nodup_cons.1 h
    refine pairwise_insertField (ih hrest) fun hmem => hf ?_
    exact ((foldr_insertField_perm rest).map _).mem_iff.1 hmem

/-- The ascending order is that of the declaration if the declared numbers ascend. -/
theorem fields_eq_declared_iff {t : MessageType} (h : (t.declared.map (·.number)).Nodup) :
    t.fields = t.declared ↔ t.declared.Pairwise fun a b => a.number < b.number := by
  constructor
  · intro he
    exact he ▸ pairwise_fields h
  · intro hd
    refine List.Perm.eq_of_pairwise (fun a b _ _ hab hba => ?_) (pairwise_fields h) hd t.fields_perm
    omega

end ServiceCall.MessageType

namespace ServiceCall

/-! ## Loaded pools

A pool is loaded if it comes about from the pool without definitions, or from that of the
standard files, by adding file sets. Its messages are those that the files declare, in the
order of the declarations (`Pool.Origin`), whatever the files are: this is an invariant of
`Pool.add`, by induction over the sets that were added.
-/

/-! ## Numbers of enum values -/

namespace Source

theorem integer_mem_int32 (r : Wire.RawRecord) (number : Nat) :
    IntegerRange.int32.mem (integer r number) = true := by
  unfold integer
  cases h : integer? r number with
  | none => rfl
  | some i =>
    have hi := List.mem_of_getLast? h
    obtain ⟨v, -, hv⟩ := List.mem_filterMap.1 hi
    cases v with
    | varint n =>
      cases hv
      exact IntegerRange.mem_int32.2 (Wire.toSigned_bounds (by decide) n)
    | _ => cases hv

/-- The enums that a file declares, at any depth. -/
def File.enumTypes (f : File) : List EnumType :=
  Names.enumTypes f.package f.enums ++ Names.enumsOfList f.package f.messages

theorem inRange_enumTypes (scope : String) (rs : List Wire.RawRecord) :
    ∀ e ∈ Names.enumTypes scope (rs.map Enumeration.ofRecord), e.InRange := by
  intro e he v hv
  rw [Names.enumTypes, List.map_map] at he
  obtain ⟨r, -, rfl⟩ := List.mem_map.1 he
  obtain ⟨value, -, rfl⟩ := List.mem_map.1 hv
  exact integer_mem_int32 value 2

theorem inRange_enumsOfList (depth : Nat) (scope : String) (rs : List Wire.RawRecord) :
    ∀ e ∈ Names.enumsOfList scope (rs.map (MessageType.ofRecord depth)), e.InRange := by
  induction depth generalizing scope rs with
  | zero =>
    induction rs with
    | nil => exact fun e he => nomatch he
    | cons r rs ih => exact ih
  | succ depth ihDepth =>
    induction rs with
    | nil => exact fun e he => nomatch he
    | cons r rs ih =>
      intro e he
      obtain he | he := List.mem_append.1 he
      · obtain he | he := List.mem_append.1 he
        · exact inRange_enumTypes _ _ e he
        · exact ihDepth _ _ e he
      · exact ih e he

theorem FileSet.inRange_of_read {bytes : Bytes} {set : List File}
    (h : FileSet.read bytes = .ok set) : ∀ f ∈ set, ∀ e ∈ f.enumTypes, e.InRange := by
  obtain ⟨r, -, rfl⟩ := Except.map_eq_ok.1 h
  intro f hf e he
  obtain ⟨file, -, rfl⟩ := List.mem_map.1 hf
  obtain he | he := List.mem_append.1 he
  · exact inRange_enumTypes _ _ e he
  · exact inRange_enumsOfList _ _ _ e he

end Source

theorem Standard.inRange : ∀ f ∈ Standard.files, ∀ e ∈ f.enumTypes, e.InRange := by
  unfold EnumType.InRange
  decide

namespace Pool

/-- The files of a set that a pool does not have yet. -/
def fresh (p : Pool) (set : List Source.File) : List Source.File :=
  set.filter fun f => !p.files.any (·.name == f.name)

/-- A pool has come about by adding the files, whose enum values have numbers of their type. -/
inductive LoadedFrom : Pool → List Source.File → Prop where
  | empty : LoadedFrom Pool.empty []
  | add {p q : Pool} {files set : List Source.File} (hp : LoadedFrom p files)
      (hset : ∀ f ∈ set, ∀ e ∈ f.enumTypes, e.InRange) (h : p.add set = .ok q) :
      LoadedFrom q (files ++ p.fresh set)

/-- A pool has come about by adding files. -/
def Loaded (p : Pool) : Prop := ∃ files, p.LoadedFrom files

theorem Loaded.add {p q : Pool} {set : List Source.File} (hp : p.Loaded)
    (hset : ∀ f ∈ set, ∀ e ∈ f.enumTypes, e.InRange) (h : p.add set = .ok q) : q.Loaded := by
  obtain ⟨files, hp⟩ := hp
  exact ⟨_, hp.add hset h⟩

/-- What is added from bytes adds files. -/
theorem LoadedFrom.addSet {p q : Pool} {files : List Source.File} {bytes : Bytes}
    (hp : p.LoadedFrom files) (h : p.addSet bytes = .ok q) : ∃ added, q.LoadedFrom (files ++ added) := by
  unfold Pool.addSet at h
  split at h
  next set hset => exact ⟨_, hp.add (Source.FileSet.inRange_of_read hset) h⟩
  next => cases h

theorem loaded_ofFiles {set : List Source.File} (hset : ∀ f ∈ set, ∀ e ∈ f.enumTypes, e.InRange) :
    (ofFiles set).Loaded := by
  have hempty : Pool.empty.Loaded := ⟨[], .empty⟩
  unfold ofFiles
  cases hq : empty.add set with
  | ok q => exact hempty.add hset hq
  | error e => exact hempty

theorem loaded_standard : Pool.standard.Loaded := loaded_ofFiles Standard.inRange

theorem loadedFrom_ofFiles {set : List Source.File}
    (hset : ∀ f ∈ set, ∀ e ∈ f.enumTypes, e.InRange) (h : (empty.add set).toOption.isSome) :
    (ofFiles set).LoadedFrom set := by
  unfold ofFiles
  cases hq : empty.add set with
  | error e =>
    rw [hq] at h
    cases h
  | ok q =>
    have hfresh : empty.fresh set = set := List.filter_eq_self.2 fun _ _ => rfl
    have hload := LoadedFrom.empty.add hset hq
    rwa [hfresh] at hload

/-- The messages that files declare, at any depth, with their full names. -/
def declared (files : List Source.File) : List Names.Declared := files.flatMap Names.declaredIn

/-- Where the definitions of a pool come from. -/
structure Origin (p : Pool) (files : List Source.File) : Prop where
  messages : Resolve.Resolved (declared files) p.messages
  extensions : ∀ x ∈ p.extensions, x.WellFormed
  enums : ∀ e ∈ p.enums, e.InRange
  inputs : ∀ s ∈ p.services, ∀ m ∈ s.methods, m.input ∈ (declared files).map (·.1)
  names : ((declared files).flatMap Names.ownNames).Sublist (Names.nameList p.names)
  distinct : (Names.nameList p.names).Nodup
  kinds : ∀ d ∈ p.names, d.kind = .message → d.name ∈ (declared files).map (·.1)

theorem origin_empty : Origin Pool.empty [] := by
  constructor <;> simp [declared, Pool.empty, Names.nameList]

theorem Origin.add {p q : Pool} {files set : List Source.File} (h : p.Origin files)
    (hset : ∀ f ∈ set, ∀ e ∈ f.enumTypes, e.InRange) (hq : p.add set = .ok q) :
    q.Origin (files ++ p.fresh set) := by
  obtain ⟨names, hnames, hq⟩ := Except.bind_eq_ok.1 hq
  obtain ⟨additions, hadditions, hq⟩ := Except.bind_eq_ok.1 hq
  obtain ⟨⟨⟩, -, hq⟩ := Except.bind_eq_ok.1 hq
  obtain rfl := Except.ok.inj hq
  have henums : ∀ e ∈ p.enums ++ (p.fresh set).flatMap Source.File.enumTypes, e.InRange := by
    intro e he
    obtain he | he := List.mem_append.1 he
    · exact h.enums e he
    · obtain ⟨f, hf, he⟩ := List.mem_flatMap.1 he
      exact hset f (List.mem_of_mem_filter hf) e he
  obtain ⟨new, rfl, hsub, hkinds, hdistinct⟩ := Names.adds_files _ _ _ _ hnames h.distinct
  have hdeclared : declared (files ++ p.fresh set) = declared files ++ declared (p.fresh set) :=
    List.flatMap_append
  have hkinds' : ∀ d ∈ p.names ++ new, d.kind = .message →
      d.name ∈ (declared (files ++ p.fresh set)).map (·.1) := by
    intro d hd hk
    rw [hdeclared, List.map_append]
    obtain hd | hd := List.mem_append.1 hd
    · exact List.mem_append_left _ (h.kinds d hd hk)
    · exact List.mem_append_right _ (hkinds d hd hk)
  have hfiles := (List.mapM_eq_ok.1 hadditions).imp fun f a => Resolve.resolved_of_file henums
  constructor
  · rw [hdeclared]
    exact List.rel_append h.messages (List.rel_flatMap hfiles fun f a hfa => hfa.1)
  · intro x hx
    obtain hx | hx := List.mem_append.1 hx
    · exact h.extensions x hx
    · obtain ⟨a, ha, hx⟩ := List.mem_flatMap.1 hx
      obtain ⟨f, -, hfa⟩ := hfiles.exists_left ha
      exact hfa.2.1 x hx
  · exact henums
  · intro s hs m hm
    obtain hs | hs := List.mem_append.1 hs
    · rw [hdeclared, List.map_append]
      exact List.mem_append_left _ (h.inputs s hs m hm)
    · obtain ⟨a, ha, hs⟩ := List.mem_flatMap.1 hs
      obtain ⟨f, -, hfa⟩ := hfiles.exists_left ha
      obtain ⟨d, hd, hk, hname⟩ := hfa.2.2 s hs m hm
      exact hname ▸ hkinds' d hd hk
  · rw [hdeclared, List.flatMap_append, Names.nameList, List.map_append]
    exact h.names.append hsub
  · exact hdistinct
  · exact hkinds'

/-- Every loaded pool has its definitions from the files that were added. -/
theorem LoadedFrom.origin {p : Pool} {files : List Source.File} (h : p.LoadedFrom files) :
    p.Origin files := by
  induction h with
  | empty => exact origin_empty
  | add _ hset hq ih => exact ih.add hset hq

/-! ## What holds of loaded pools -/

variable {p : Pool} {files : List Source.File}

theorem LoadedFrom.nodup_fullName (h : p.LoadedFrom files) :
    ((declared files).map (·.1)).Nodup := by
  have hown : ((declared files).map (·.1)).Sublist ((declared files).flatMap Names.ownNames) := by
    induction declared files with
    | nil => exact .slnil
    | cons d ds ih => exact (ih.trans (List.sublist_append_right ..)).cons_cons d.1
  exact (h.origin.distinct.sublist h.origin.names).sublist hown

theorem find?_resolved {ds : List Names.Declared} {ts : List MessageType}
    (h : Resolve.Resolved ds ts) (hn : (ds.map (·.1)).Nodup) {d : Names.Declared} (hd : d ∈ ds) :
    ∃ t, ts.find? (·.fullName == d.1) = some t ∧ MessageType.Declares d t := by
  induction h with
  | nil => cases hd
  | @cons e t ds ts het _ ih =>
    rw [List.map_cons, List.nodup_cons] at hn
    obtain rfl | hd := List.mem_cons.1 hd
    · exact ⟨t, List.find?_cons_of_pos (by simp [het.1.fullName]), het.1⟩
    · have hne : t.fullName ≠ d.1 := by
        rw [het.1.fullName]
        rintro he
        exact hn.1 (List.mem_map.2 ⟨d, hd, he.symm⟩)
      rw [List.find?_cons_of_neg (by simpa using hne)]
      exact ih hn.2 hd

/-- The message type under the full name of a declared message is that of the declaration. -/
theorem LoadedFrom.declares_messageType (h : p.LoadedFrom files) {d : Names.Declared}
    (hd : d ∈ declared files) : MessageType.Declares d (p.messageType d.1) := by
  obtain ⟨t, ht, hdt⟩ := find?_resolved h.origin.messages h.nodup_fullName hd
  rwa [messageType, referredMessage?, ht]

theorem messageType_mem_or_empty (p : Pool) (type : String) :
    p.messageType type ∈ p.messages ∨ p.messageType type = ⟨type, type, [], [], false, [], []⟩ := by
  unfold messageType
  cases h : p.referredMessage? type with
  | none => exact .inr rfl
  | some t => exact .inl (List.mem_of_find?_eq_some h)

theorem Loaded.wellFormed_messageType (h : p.Loaded) (type : String) :
    (p.messageType type).WellFormed := by
  obtain ⟨files, h⟩ := h
  obtain ht | ht := p.messageType_mem_or_empty type
  · obtain ⟨d, -, hdt⟩ := h.origin.messages.exists_left ht
    exact hdt.2
  · rw [ht]
    exact ⟨by simp, by simp, .nil, .nil⟩

theorem map_name_of_declares {d : Names.Declared} {t : MessageType}
    (h : MessageType.Declares d t) : t.declared.map (·.name) = d.2.fields.map (·.name) := by
  have hnames := List.forall₂_map_left_iff.2 (List.forall₂_map_right_iff.2
    (h.fields.imp fun s f hf => hf.name.symm))
  rw [List.forall₂_eq_eq_eq] at hnames
  exact hnames.symm

theorem sublist_ownNames {ds : List Names.Declared} {d : Names.Declared} (hd : d ∈ ds) :
    (Names.ownNames d).Sublist (ds.flatMap Names.ownNames) := by
  rw [List.flatMap_def]
  exact List.sublist_flatten_of_mem (List.mem_map_of_mem hd)

/-- No two fields of a message have the same name. -/
theorem Loaded.nodup_name (h : p.Loaded) (type : String) :
    ((p.messageType type).declared.map (·.name)).Nodup := by
  obtain ⟨files, h⟩ := h
  obtain ht | ht := p.messageType_mem_or_empty type
  · obtain ⟨d, hd, hdt⟩ := h.origin.messages.exists_left ht
    have hown : (Names.ownNames d).Nodup :=
      (h.origin.distinct.sublist h.origin.names).sublist (sublist_ownNames hd)
    rw [map_name_of_declares hdt.1]
    refine List.Nodup.of_map (nameWithin d.1) ?_
    rw [List.map_map]
    exact (List.nodup_cons.1 hown).2
  · rw [ht]
    exact .nil

/-- A field of a number, of the type itself or an extension, is well-formed. -/
theorem Loaded.wellFormed_of_field? (h : p.Loaded) {type : String} {number : Nat} {f : Field}
    (hf : p.field? type number = some f) : f.WellFormed := by
  rw [field?, Option.orElse_eq_orElse, Option.orElse_eq_or, Option.or_eq_some_iff] at hf
  obtain hf | ⟨-, hf⟩ := hf
  · exact (h.wellFormed_messageType type).fields f (List.mem_of_find?_eq_some hf)
  · obtain ⟨files, h⟩ := h
    obtain ⟨x, hx, rfl⟩ := List.mem_map.1 (List.mem_of_find?_eq_some hf)
    exact (h.origin.extensions x (List.mem_of_mem_filter hx)).field

theorem number_of_field? {type : String} {number : Nat} {f : Field}
    (hf : p.field? type number = some f) : f.number = number := by
  rw [field?, Option.orElse_eq_orElse, Option.orElse_eq_or, Option.or_eq_some_iff] at hf
  obtain hf | ⟨-, hf⟩ := hf
  · simpa using List.find?_some hf
  · simpa using List.find?_some hf

end Pool

end ServiceCall
