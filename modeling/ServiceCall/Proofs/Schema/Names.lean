import Mathlib.Data.List.Nodup
import ServiceCall.Proofs.Basic.Except
import ServiceCall.Schema.Names
/-!
# No name is declared twice

The names of a file set are put into one table, and a name that is there already is refused
unless both are packages. So every step only adds to the end of the table (`Names.Adds`), and
the full names of all messages and of all their fields, which are among those that are added,
differ from one another (`Names.adds_files`).
-/

namespace ServiceCall

namespace Names

/-- A message that files declare, with its full name. -/
abbrev Declared := String × Source.MessageType

/-- The messages that a file declares. -/
def declaredIn (f : Source.File) : List Declared := messagesOfList f.package f.messages

/-- The full names of a message and of its fields. -/
def ownNames (d : Declared) : List String :=
  d.1 :: d.2.fields.map fun f => nameWithin d.1 f.name

/-- The names in a table. -/
def nameList (table : List Definition) : List String := table.map (·.name)

/-- A step adds definitions to the end of a table, those of some names among them in their
order and no messages but the given ones, and lets no name stand twice. -/
def Adds (step : Step) (names messages : List String) : Prop :=
  ∀ table table', step table = .ok table' → (nameList table).Nodup →
    ∃ new, table' = table ++ new ∧ names.Sublist (nameList new) ∧
      (∀ d ∈ new, d.kind = .message → d.name ∈ messages) ∧ (nameList table').Nodup

namespace Adds

variable {step first second : Step} {names names' messages messages' : List String}

theorem nothing : Adds (fun table => .ok table) [] [] := by
  rintro table table' ⟨⟩ h
  exact ⟨[], by simp, List.Sublist.refl _, by simp, h⟩

theorem weaken (h : Adds step names messages) (hn : names'.Sublist names)
    (hm : messages ⊆ messages') : Adds step names' messages' := by
  intro table table' hstep hnodup
  obtain ⟨new, rfl, hsub, hkind, hnodup'⟩ := h table table' hstep hnodup
  exact ⟨new, rfl, hn.trans hsub, fun d hd hk => hm (hkind d hd hk), hnodup'⟩

theorem andThen (h : Adds first names messages) (h' : Adds second names' messages') :
    Adds (fun table => first table >>= second) (names ++ names') (messages ++ messages') := by
  intro table table' hstep hn
  obtain ⟨mid, hfirst, hsecond⟩ := Except.bind_eq_ok.1 hstep
  obtain ⟨new, rfl, hsub, hkind, hn⟩ := h table mid hfirst hn
  obtain ⟨new', rfl, hsub', hkind', hn⟩ := h' _ table' hsecond hn
  refine ⟨new ++ new', List.append_assoc .., ?_, fun d hd hk => ?_, hn⟩
  · rw [nameList, List.map_append]
    exact hsub.append hsub'
  · obtain hd | hd := List.mem_append.1 hd
    · exact List.mem_append_left _ (hkind d hd hk)
    · exact List.mem_append_right _ (hkind' d hd hk)

theorem each {α : Type} {items : List α} {step : α → Step} {names messages : α → List String}
    (h : ∀ x ∈ items, Adds (step x) (names x) (messages x)) :
    Adds (each items step) (items.flatMap names) (items.flatMap messages) := by
  induction items with
  | nil => exact nothing
  | cons x items ih =>
    have hx := h x List.mem_cons_self
    have hrest := ih fun y hy => h y (List.mem_cons_of_mem x hy)
    have hcons : Names.each (x :: items) step = fun table => step x table >>= Names.each items step :=
      funext fun table => List.foldlM_cons
    rw [hcons, List.flatMap_cons, List.flatMap_cons]
    exact hx.andThen hrest

/-- Where no item adds a message, nothing has to be said of the names. -/
theorem each_none {α : Type} {items : List α} {step : α → Step}
    (h : ∀ x ∈ items, Adds (step x) [] []) : Adds (Names.each items step) [] [] := by
  have hnil : items.flatMap (fun _ => ([] : List String)) = [] :=
    List.flatMap_eq_nil_iff.2 fun _ _ => rfl
  have heach := each h
  rwa [hnil] at heach

end Adds

/-- A name is new, or it is that of a package and was one before. -/
theorem eq_of_add {file name : String} {kind : DefinitionKind} {table table' : List Definition}
    (h : add file kind name table = .ok table') :
    kind = .package ∧ table' = table ∨
      name ∉ nameList table ∧ table' = table ++ [⟨name, kind, file⟩] := by
  unfold add at h
  split at h
  next hfind =>
    cases h
    refine .inr ⟨fun hmem => ?_, rfl⟩
    obtain ⟨d, hd, hdn⟩ := List.mem_map.1 hmem
    exact List.find?_eq_none.1 hfind d hd (beq_iff_eq.2 hdn)
  next =>
    split at h
    next hk =>
      cases h
      exact .inl ⟨hk.1, rfl⟩
    next => cases h

theorem nodup_concat {table : List Definition} {d : Definition} (hn : (nameList table).Nodup)
    (hd : d.name ∉ nameList table) : (nameList (table ++ [d])).Nodup := by
  rw [nameList, List.map_append, List.map_singleton, ← List.concat_eq_append]
  exact List.Nodup.concat hd hn

theorem adds_add (file : String) (kind : DefinitionKind) (hk : kind ≠ .package) (name : String) :
    Adds (add file kind name) [name] (if kind = .message then [name] else []) := by
  intro table table' hadd hn
  obtain ⟨hp, -⟩ | ⟨hnew, rfl⟩ := eq_of_add hadd
  · exact absurd hp hk
  · refine ⟨_, rfl, List.Sublist.refl _, fun d hd hm => ?_, nodup_concat hn hnew⟩
    obtain rfl := List.mem_singleton.1 hd
    rw [if_pos hm]
    exact List.mem_singleton_self name

theorem adds_package (file name : String) : Adds (add file .package name) [] [] := by
  intro table table' hadd hn
  obtain ⟨-, rfl⟩ | ⟨hnew, rfl⟩ := eq_of_add hadd
  · exact ⟨[], by simp, List.Sublist.refl _, by simp, hn⟩
  · refine ⟨_, rfl, List.nil_sublist _, fun d hd hm => ?_, nodup_concat hn hnew⟩
    obtain rfl := List.mem_singleton.1 hd
    cases hm

/-- What is no message is added for each item of a list. -/
theorem adds_each_other {α : Type} (file : String) (kind : DefinitionKind) (hk : kind ≠ .package)
    (hm : kind ≠ .message) (items : List α) (name : α → String) :
    Adds (each items fun x => add file kind (name x)) (items.map name) [] := by
  have h := Adds.each fun x (_ : x ∈ items) => adds_add file kind hk (name x)
  rw [← List.map_eq_flatMap] at h
  exact h.weaken (List.Sublist.refl _) (by simp [hm])

theorem adds_enumeration (edition : Source.Edition) (file scope : String) (e : Source.Enumeration) :
    Adds (enumeration edition file scope e) [] [] := by
  have hboth := (adds_add file .enumeration (by decide) (nameWithin scope e.name)).andThen
    (adds_each_other file .enumValue (by decide) (by decide) e.values fun v =>
      nameWithin scope v.name)
  intro table table' h hn
  obtain ⟨mid, hadd, h⟩ := Except.bind_eq_ok.1 h
  refine hboth.weaken (List.nil_sublist _) (by simp) table table' ?_ hn
  refine Except.bind_eq_ok.2 ⟨mid, hadd, ?_⟩
  cases hv : e.values with
  | nil => simp [hv] at h
  | cons v rest =>
    simp only [hv] at h
    split at h
    · cases h
    · exact h

mutual

theorem adds_message (edition : Source.Edition) (file scope : String) :
    (m : Source.MessageType) →
      Adds (message edition file scope m) ((messagesOf scope m).flatMap ownNames)
        ((messagesOf scope m).map (·.1))
  | ⟨name, fields, oneofs, messages, enums, extensions, ranges, reserved, mapEntry⟩ => by
    let full := nameWithin scope name
    have henums := Adds.each_none fun e (_ : e ∈ enums) => adds_enumeration edition file full e
    have hexts := adds_each_other file .extension (by decide) (by decide) extensions fun x =>
      nameWithin full x.name
    have hnested := (adds_messageList edition file full messages).andThen (henums.andThen hexts)
    have hfields := adds_each_other file .field (by decide) (by decide) fields fun f =>
      nameWithin full f.name
    have honeofs := adds_each_other file .oneof (by decide) (by decide) oneofs (nameWithin full)
    have hall := (adds_add file .message (by decide) full).andThen
      (honeofs.andThen (hfields.andThen hnested))
    intro table table' h hn
    simp only [message] at h
    obtain ⟨own, hown, h⟩ := Except.bind_eq_ok.1 h
    refine hall.weaken ?_ ?_ table table' (Except.bind_eq_ok.2 ⟨own, hown, ?_⟩) hn
    · rw [messagesOf, List.flatMap_cons, ownNames, List.cons_append, List.singleton_append]
      refine List.Sublist.cons_cons _ (List.Sublist.trans ?_ (List.sublist_append_right ..))
      exact (List.Sublist.refl _).append (List.sublist_append_left ..)
    · simp [messagesOf, full]
    · -- The check for names that differ only in case adds nothing.
      split at h
      · split at h
        · cases h
        · exact h
      · exact h

theorem adds_messageList (edition : Source.Edition) (file scope : String) :
    (ms : List Source.MessageType) →
      Adds (messageList edition file scope ms) ((messagesOfList scope ms).flatMap ownNames)
        ((messagesOfList scope ms).map (·.1))
  | [] => Adds.nothing
  | m :: rest => by
    have h := (adds_message edition file scope m).andThen (adds_messageList edition file scope rest)
    rw [← List.flatMap_append, ← List.map_append] at h
    exact h

end

theorem adds_service (file scope : String) (s : Source.Service) :
    Adds (service file scope s) [] [] := by
  have hmethods := adds_each_other file .method (by decide) (by decide) s.methods fun m =>
    nameWithin (nameWithin scope s.name) m.name
  have h := (adds_add file .service (by decide) (nameWithin scope s.name)).andThen hmethods
  exact h.weaken (List.nil_sublist _) (by simp)

theorem adds_file (f : Source.File) :
    Adds (file f) ((declaredIn f).flatMap ownNames) ((declaredIn f).map (·.1)) := by
  have henums := Adds.each_none fun e (_ : e ∈ f.enums) =>
    adds_enumeration f.edition f.name f.package e
  have hservices := Adds.each_none fun s (_ : s ∈ f.services) => adds_service f.name f.package s
  have hexts := adds_each_other f.name .extension (by decide) (by decide) f.extensions fun x =>
    nameWithin f.package x.name
  have hpackages := Adds.each_none fun name (_ : name ∈ packages f.package) =>
    adds_package f.name name
  have h := hpackages.andThen
    ((adds_messageList f.edition f.name f.package f.messages).andThen
      (henums.andThen (hservices.andThen hexts)))
  exact h.weaken (List.sublist_append_left ..) (by simp [declaredIn])

/-- The files of a set add the names of all their messages and of all fields of these. -/
theorem adds_files (seen : List String) (fs : List Source.File) :
    Adds (files seen fs) ((fs.flatMap declaredIn).flatMap ownNames)
      ((fs.flatMap declaredIn).map (·.1)) := by
  induction fs generalizing seen with
  | nil => exact Adds.nothing
  | cons f rest ih =>
    intro table table' h hn
    rw [files] at h
    split at h
    · cases h
    · have hboth := (adds_file f).andThen (ih (f.name :: seen))
      rw [← List.flatMap_append, ← List.map_append] at hboth
      exact hboth table table' h hn

end Names

end ServiceCall
