import ServiceCall.Message.Json.Read
import ServiceCall.Proofs.Schema.Loaded
/-!
# The enums, services and extensions of loaded pools

What files declare besides messages has its full names in the table that lets no name stand twice.
The values of an enum take theirs in the scope around it: no two values of an enum of a loaded pool
have the same name (`Pool.Loaded.distinct_of_referredEnum?`), and a number is found again by the name
of its value (`EnumType.Distinct.number_of_valueNamed?`). The services are those that the files
declare, with their methods in the order of the declarations (`Pool.LoadedFrom.serviceOrigin`), and no
two methods of a service have the same name (`Pool.Loaded.nodup_methods`). No two extensions have the
same full name (`Pool.LoadedFrom.nodup_extensions`), so in JSON they have keys of their own
(`Pool.Loaded.nodup_extensionKey`).
-/

namespace ServiceCall

/-! ## Enums -/

/-- No two values have the same name. -/
def EnumType.Distinct (e : EnumType) : Prop := (e.values.map (·.name)).Nodup

/-- The name of the value of a number finds the number. -/
theorem EnumType.Distinct.number_of_valueNamed? {e : EnumType} (h : e.Distinct) {number : Int}
    {v : EnumValue} (hv : e.valueOf? number = some v) :
    ∃ w, e.valueNamed? v.name = some w ∧ w.number = number := by
  have hmem := List.mem_of_find?_eq_some hv
  refine ⟨v, ?_, by simpa using List.find?_some hv⟩
  cases hw : e.valueNamed? v.name with
  | none => exact absurd (List.find?_eq_none.1 hw v hmem) (by simp)
  | some w =>
    rw [List.inj_on_of_nodup_map h (List.mem_of_find?_eq_some hw) hmem
      (by simpa using List.find?_some hw)]

namespace Names

/-- A step keeps the names of a table apart, and with them those of the values of each enum. -/
def Separates (step : Step) (enums : List EnumType) : Prop :=
  ∀ table table', step table = .ok table' → (nameList table).Nodup →
    (nameList table').Nodup ∧ ∀ e ∈ enums, e.Distinct

namespace Separates

variable {step first second : Step} {enums enums' : List EnumType}

theorem of_adds {names messages : List String} (h : Adds step names messages) :
    Separates step [] := by
  intro table table' hstep hn
  obtain ⟨-, -, -, -, hn'⟩ := h table table' hstep hn
  exact ⟨hn', by simp⟩

theorem weaken (h : Separates step enums) (hsub : enums' ⊆ enums) : Separates step enums' :=
  fun table table' hstep hn =>
    (h table table' hstep hn).imp_right fun hd e he => hd e (hsub he)

theorem andThen (h : Separates first enums) (h' : Separates second enums') :
    Separates (fun table => first table >>= second) (enums ++ enums') := by
  intro table table' hstep hn
  obtain ⟨mid, hfirst, hsecond⟩ := Except.bind_eq_ok.1 hstep
  obtain ⟨hmid, henums⟩ := h table mid hfirst hn
  obtain ⟨hn', henums'⟩ := h' mid table' hsecond hmid
  exact ⟨hn', fun e he => (List.mem_append.1 he).elim (henums e) (henums' e)⟩

theorem each {α : Type} {items : List α} {step : α → Step} {enums : α → List EnumType}
    (h : ∀ x ∈ items, Separates (step x) (enums x)) :
    Separates (each items step) (items.flatMap enums) := by
  induction items with
  | nil => exact of_adds Adds.nothing
  | cons x items ih =>
    have hcons : Names.each (x :: items) step = fun table => step x table >>= Names.each items step :=
      funext fun table => List.foldlM_cons
    rw [hcons, List.flatMap_cons]
    exact (h x List.mem_cons_self).andThen (ih fun y hy => h y (.tail _ hy))

end Separates

theorem separates_enumeration (edition : Source.Edition) (file scope : String)
    (e : Source.Enumeration) : Separates (enumeration edition file scope e)
      [⟨e.name, nameWithin scope e.name, e.values⟩] := by
  intro table table' h hn
  have hnodup := (Separates.of_adds (adds_enumeration edition file scope e) table table' h hn).1
  refine ⟨hnodup, List.forall_mem_singleton.2 ?_⟩
  obtain ⟨mid, hadd, h⟩ := Except.bind_eq_ok.1 h
  obtain ⟨-, -, -, -, hmid⟩ := adds_add file .enumeration (by decide) _ table mid hadd hn
  have heach : each e.values (fun v => add file .enumValue (nameWithin scope v.name)) mid =
      .ok table' := by
    cases hv : e.values with
    | nil => simp [hv] at h
    | cons v rest =>
      simp only [hv] at h
      split at h
      · cases h
      · exact h
  obtain ⟨new, rfl, hsub, -, -⟩ := adds_each_other file .enumValue (by decide) (by decide) e.values
    (fun v => nameWithin scope v.name) mid table' heach hmid
  rw [nameList, List.map_append] at hnodup
  refine List.Nodup.of_map (nameWithin scope) ?_
  rw [List.map_map]
  exact (List.Nodup.of_append_right hnodup).sublist hsub

theorem separates_enumTypes (edition : Source.Edition) (file scope : String)
    (enums : List Source.Enumeration) :
    Separates (each enums (enumeration edition file scope)) (enumTypes scope enums) := by
  rw [enumTypes, List.map_eq_flatMap]
  exact .each fun e _ => separates_enumeration edition file scope e

mutual

theorem separates_message (edition : Source.Edition) (file scope : String) :
    (m : Source.MessageType) → Separates (message edition file scope m) (enumsOf scope m)
  | ⟨name, fields, oneofs, messages, enums, extensions, ranges, reserved, mapEntry⟩ => by
    let full := nameWithin scope name
    have hexts := Separates.of_adds (adds_each_other file .extension (by decide) (by decide)
      extensions fun x => nameWithin full x.name)
    have hnested := (separates_messageList edition file full messages).andThen
      ((separates_enumTypes edition file full enums).andThen hexts)
    have hfields := Separates.of_adds (adds_each_other file .field (by decide) (by decide) fields
      fun f => nameWithin full f.name)
    have honeofs := Separates.of_adds (adds_each_other file .oneof (by decide) (by decide) oneofs
      (nameWithin full))
    have hall := (Separates.of_adds (adds_add file .message (by decide) full)).andThen
      (honeofs.andThen (hfields.andThen hnested))
    intro table table' h hn
    simp only [message] at h
    obtain ⟨own, hown, h⟩ := Except.bind_eq_ok.1 h
    refine hall.weaken ?_ table table' (Except.bind_eq_ok.2 ⟨own, hown, ?_⟩) hn
    · intro e he
      rw [enumsOf] at he
      simpa [full, or_comm] using he
    · -- The check for names that differ only in case adds nothing.
      split at h
      · split at h
        · cases h
        · exact h
      · exact h

theorem separates_messageList (edition : Source.Edition) (file scope : String) :
    (ms : List Source.MessageType) →
      Separates (messageList edition file scope ms) (enumsOfList scope ms)
  | [] => .of_adds Adds.nothing
  | m :: rest =>
    (separates_message edition file scope m).andThen (separates_messageList edition file scope rest)

end

theorem separates_file (f : Source.File) : Separates (file f) f.enumTypes := by
  have hpackages := Separates.of_adds (Adds.each_none fun name (_ : name ∈ packages f.package) =>
    adds_package f.name name)
  have hservices := Separates.of_adds (Adds.each_none fun s (_ : s ∈ f.services) =>
    adds_service f.name f.package s)
  have hexts := Separates.of_adds (adds_each_other f.name .extension (by decide) (by decide)
    f.extensions fun x => nameWithin f.package x.name)
  have h := hpackages.andThen
    ((separates_messageList f.edition f.name f.package f.messages).andThen
      ((separates_enumTypes f.edition f.name f.package f.enums).andThen (hservices.andThen hexts)))
  refine h.weaken fun e he => ?_
  simpa [Source.File.enumTypes, or_comm] using he

theorem separates_files (seen : List String) (fs : List Source.File) :
    Separates (files seen fs) (fs.flatMap Source.File.enumTypes) := by
  induction fs generalizing seen with
  | nil => exact .of_adds Adds.nothing
  | cons f rest ih =>
    intro table table' h hn
    rw [files] at h
    split at h
    · cases h
    · exact (separates_file f).andThen (ih (f.name :: seen)) table table' h hn

end Names

namespace Pool

variable {p : Pool} {files : List Source.File}

theorem LoadedFrom.distinct_enums (h : p.LoadedFrom files) : ∀ e ∈ p.enums, e.Distinct := by
  induction h with
  | empty => exact fun e he => nomatch he
  | @add p q files set hp _ hq ih =>
    obtain ⟨names, hnames, hq⟩ := Except.bind_eq_ok.1 hq
    obtain ⟨additions, -, hq⟩ := Except.bind_eq_ok.1 hq
    obtain ⟨⟨⟩, -, hq⟩ := Except.bind_eq_ok.1 hq
    obtain rfl := Except.ok.inj hq
    have hnew := (Names.separates_files _ _ _ _ hnames hp.origin.distinct).2
    intro e he
    obtain he | he := List.mem_append.1 he
    · exact ih e he
    · exact hnew e he

/-- No two values of an enum have the same name. -/
theorem Loaded.distinct_of_referredEnum? (h : p.Loaded) {name : String} {e : EnumType}
    (he : p.referredEnum? name = some e) : e.Distinct := by
  obtain ⟨files, h⟩ := h
  exact h.distinct_enums e (List.mem_of_find?_eq_some he)

end Pool

/-! ## Services -/

namespace Names

/-- A service that files declare, with its full name. -/
abbrev DeclaredService := String × Source.Service

/-- The services that a file declares. -/
def servicesIn (f : Source.File) : List DeclaredService :=
  f.services.map fun s => (nameWithin f.package s.name, s)

/-- The full names of a service and of its methods. -/
def serviceNames (d : DeclaredService) : List String :=
  d.1 :: d.2.methods.map fun m => nameWithin d.1 m.name

theorem adds_serviceNames (file scope : String) (s : Source.Service) :
    Adds (service file scope s) (serviceNames (nameWithin scope s.name, s)) [] := by
  have hmethods := adds_each_other file .method (by decide) (by decide) s.methods fun m =>
    nameWithin (nameWithin scope s.name) m.name
  exact (adds_add file .service (by decide) (nameWithin scope s.name)).andThen hmethods

/-- A file adds the names of its services and of all methods of these. -/
theorem adds_file_services (f : Source.File) :
    Adds (file f) ((servicesIn f).flatMap serviceNames) ((declaredIn f).map (·.1)) := by
  have hpackages := Adds.each_none fun name (_ : name ∈ packages f.package) =>
    adds_package f.name name
  have hmessages := (adds_messageList f.edition f.name f.package f.messages).weaken
    (List.nil_sublist _) (List.Subset.refl _)
  have henums := Adds.each_none fun e (_ : e ∈ f.enums) =>
    adds_enumeration f.edition f.name f.package e
  have hservices := Adds.each fun s (_ : s ∈ f.services) => adds_serviceNames f.name f.package s
  have hexts := (adds_each_other f.name .extension (by decide) (by decide) f.extensions fun x =>
    nameWithin f.package x.name).weaken (List.nil_sublist _) (List.Subset.refl _)
  have h := hpackages.andThen (hmessages.andThen (henums.andThen (hservices.andThen hexts)))
  refine h.weaken ?_ ?_
  · simp [servicesIn, List.flatMap_map]
  · have hnil : f.services.flatMap (fun _ => ([] : List String)) = [] :=
      List.flatMap_eq_nil_iff.2 fun _ _ => rfl
    simp [declaredIn, hnil]

theorem adds_files_services (seen : List String) (fs : List Source.File) :
    Adds (files seen fs) ((fs.flatMap servicesIn).flatMap serviceNames)
      ((fs.flatMap declaredIn).map (·.1)) := by
  induction fs generalizing seen with
  | nil => exact Adds.nothing
  | cons f rest ih =>
    intro table table' h hn
    rw [files] at h
    split at h
    · cases h
    · have hboth := (adds_file_services f).andThen (ih (f.name :: seen))
      rw [← List.flatMap_append, ← List.map_append] at hboth
      exact hboth table table' h hn

end Names

/-- The method is that of a declaration in a service of a full name. -/
structure Method.Declares (service : String) (d : Source.Method) (m : Method) : Prop where
  name : m.name = d.name
  fullName : m.fullName = nameWithin service d.name
  clientStreaming : m.clientStreaming = d.clientStreaming
  serverStreaming : m.serverStreaming = d.serverStreaming

/-- The service is that of a declaration, with its methods in their order. -/
structure Service.Declares (d : Names.DeclaredService) (s : Service) : Prop where
  name : s.name = d.2.name
  fullName : s.fullName = d.1
  methods : List.Forall₂ (Method.Declares d.1) d.2.methods s.methods

theorem Resolve.declares_of_service {c : Context} {package : String} {d : Source.Service} {s : Service}
    (h : service c package d = .ok s) : Service.Declares (nameWithin package d.name, d) s := by
  obtain ⟨methods, hmethods, h⟩ := Except.bind_eq_ok.1 h
  obtain rfl := Except.pure_eq_ok.1 h
  refine ⟨rfl, rfl, (List.mapM_eq_ok.1 hmethods).imp fun d m hm => ?_⟩
  obtain ⟨input, -, hm⟩ := Except.bind_eq_ok.1 hm
  obtain ⟨output, -, hm⟩ := Except.bind_eq_ok.1 hm
  obtain rfl := Except.pure_eq_ok.1 hm
  exact ⟨rfl, rfl, rfl, rfl⟩

theorem Resolve.declares_of_file {files : List PoolFile} {names : List Definition}
    {enums : List EnumType} {numbers : String → Numbers} {f : Source.File} {a : Additions}
    (h : file files names enums numbers f = .ok a) :
    List.Forall₂ Service.Declares (Names.servicesIn f) a.services := by
  obtain ⟨⟨⟩, -, h⟩ := Except.bind_eq_ok.1 h
  obtain ⟨⟨messages, exts⟩, -, h⟩ := Except.bind_eq_ok.1 h
  obtain ⟨⟨⟩, -, h⟩ := Except.bind_eq_ok.1 h
  obtain ⟨services, hservices, h⟩ := Except.bind_eq_ok.1 h
  obtain ⟨topExts, -, h⟩ := Except.bind_eq_ok.1 h
  obtain rfl := Except.ok.inj h
  rw [Names.servicesIn, List.forall₂_map_left_iff]
  exact (List.mapM_eq_ok.1 hservices).imp fun d s => declares_of_service

namespace Pool

/-- The services that files declare, with their full names. -/
def declaredServices (files : List Source.File) : List Names.DeclaredService :=
  files.flatMap Names.servicesIn

/-- Where the services of a pool come from. -/
structure ServiceOrigin (p : Pool) (files : List Source.File) : Prop where
  services : List.Forall₂ Service.Declares (declaredServices files) p.services
  names : ((declaredServices files).flatMap Names.serviceNames).Sublist (Names.nameList p.names)

theorem ServiceOrigin.add {p q : Pool} {files set : List Source.File} (h : p.ServiceOrigin files)
    (hdistinct : (Names.nameList p.names).Nodup) (hq : p.add set = .ok q) :
    q.ServiceOrigin (files ++ p.fresh set) := by
  obtain ⟨names, hnames, hq⟩ := Except.bind_eq_ok.1 hq
  obtain ⟨additions, hadditions, hq⟩ := Except.bind_eq_ok.1 hq
  obtain ⟨⟨⟩, -, hq⟩ := Except.bind_eq_ok.1 hq
  obtain rfl := Except.ok.inj hq
  obtain ⟨new, rfl, hsub, -, -⟩ := Names.adds_files_services _ _ _ _ hnames hdistinct
  have hdeclared : declaredServices (files ++ p.fresh set) =
      declaredServices files ++ declaredServices (p.fresh set) := List.flatMap_append
  constructor
  · rw [hdeclared]
    exact List.rel_append h.services (List.rel_flatMap (List.mapM_eq_ok.1 hadditions)
      fun f a hfa => Resolve.declares_of_file hfa)
  · rw [hdeclared, List.flatMap_append, Names.nameList, List.map_append]
    exact h.names.append hsub

variable {p : Pool} {files : List Source.File}

/-- Every loaded pool has its services from the files that were added. -/
theorem LoadedFrom.serviceOrigin (h : p.LoadedFrom files) : p.ServiceOrigin files := by
  induction h with
  | empty => exact ⟨.nil, List.nil_sublist _⟩
  | add hp _ hq ih => exact ih.add hp.origin.distinct hq

/-- A service of a loaded pool is declared by one of its files. -/
theorem LoadedFrom.exists_declares (h : p.LoadedFrom files) {s : Service} (hs : s ∈ p.services) :
    ∃ d ∈ declaredServices files, Service.Declares d s :=
  h.serviceOrigin.services.exists_left hs

end Pool

theorem Service.Declares.map_name {d : Names.DeclaredService} {s : Service} (h : Declares d s) :
    s.methods.map (·.name) = d.2.methods.map (·.name) := by
  have hnames := List.forall₂_map_left_iff.2 (List.forall₂_map_right_iff.2
    (h.methods.imp fun d m hm => hm.name.symm))
  rw [List.forall₂_eq_eq_eq] at hnames
  exact hnames.symm

/-- No two methods of a service have the same name. -/
theorem Pool.Loaded.nodup_methods {p : Pool} (h : p.Loaded) {s : Service} (hs : s ∈ p.services) :
    (s.methods.map (·.name)).Nodup := by
  obtain ⟨files, h⟩ := h
  obtain ⟨d, hd, hds⟩ := h.exists_declares hs
  have hown : (Names.serviceNames d).Nodup := by
    refine (h.origin.distinct.sublist h.serviceOrigin.names).sublist ?_
    rw [List.flatMap_def]
    exact List.sublist_flatten_of_mem (List.mem_map_of_mem hd)
  rw [hds.map_name]
  refine List.Nodup.of_map (nameWithin d.1) ?_
  rw [List.map_map]
  exact (List.nodup_cons.1 hown).2

/-! ## Extensions -/

namespace Names

mutual

/-- The full names of the extensions that a message declares, at any depth. -/
def extensionNames (scope : String) : Source.MessageType → List String
  | ⟨name, _, _, messages, _, extensions, _, _, _⟩ =>
    extensionNamesOfList (nameWithin scope name) messages ++
      extensions.map fun x => nameWithin (nameWithin scope name) x.name

def extensionNamesOfList (scope : String) : List Source.MessageType → List String
  | [] => []
  | m :: rest => extensionNames scope m ++ extensionNamesOfList scope rest

end

/-- The full names of the extensions that a file declares. -/
def extensionNamesIn (f : Source.File) : List String :=
  extensionNamesOfList f.package f.messages ++ f.extensions.map fun x => nameWithin f.package x.name

theorem adds_extensions (file scope : String) (extensions : List Source.Field) :
    Adds (each extensions fun x => add file .extension (nameWithin scope x.name))
      (extensions.map fun x => nameWithin scope x.name) [] :=
  adds_each_other file .extension (by decide) (by decide) extensions _

mutual

theorem adds_message_extensions (edition : Source.Edition) (file scope : String) :
    (m : Source.MessageType) →
      Adds (message edition file scope m) (extensionNames scope m) ((messagesOf scope m).map (·.1))
  | ⟨name, fields, oneofs, messages, enums, extensions, ranges, reserved, mapEntry⟩ => by
    let full := nameWithin scope name
    have henums := Adds.each_none fun e (_ : e ∈ enums) => adds_enumeration edition file full e
    have hnested := (adds_messageList_extensions edition file full messages).andThen
      (henums.andThen (adds_extensions file full extensions))
    have hfields := adds_each_other file .field (by decide) (by decide) fields fun f =>
      nameWithin full f.name
    have honeofs := adds_each_other file .oneof (by decide) (by decide) oneofs (nameWithin full)
    have hall := (adds_add file .message (by decide) full).andThen
      (honeofs.andThen (hfields.andThen hnested))
    intro table table' h hn
    simp only [message] at h
    obtain ⟨own, hown, h⟩ := Except.bind_eq_ok.1 h
    refine hall.weaken ?_ ?_ table table' (Except.bind_eq_ok.2 ⟨own, hown, ?_⟩) hn
    · rw [extensionNames, List.nil_append, ← List.append_assoc, ← List.append_assoc]
      exact List.sublist_append_right ..
    · simp [messagesOf, full]
    · -- The check for names that differ only in case adds nothing.
      split at h
      · split at h
        · cases h
        · exact h
      · exact h

theorem adds_messageList_extensions (edition : Source.Edition) (file scope : String) :
    (ms : List Source.MessageType) →
      Adds (messageList edition file scope ms) (extensionNamesOfList scope ms)
        ((messagesOfList scope ms).map (·.1))
  | [] => Adds.nothing
  | m :: rest => by
    have h := (adds_message_extensions edition file scope m).andThen
      (adds_messageList_extensions edition file scope rest)
    rw [← List.map_append] at h
    exact h

end

theorem adds_file_extensions (f : Source.File) :
    Adds (file f) (extensionNamesIn f) ((declaredIn f).map (·.1)) := by
  have hpackages := Adds.each_none fun name (_ : name ∈ packages f.package) =>
    adds_package f.name name
  have henums := Adds.each_none fun e (_ : e ∈ f.enums) =>
    adds_enumeration f.edition f.name f.package e
  have hservices := Adds.each_none fun s (_ : s ∈ f.services) => adds_service f.name f.package s
  have h := hpackages.andThen
    ((adds_messageList_extensions f.edition f.name f.package f.messages).andThen
      (henums.andThen (hservices.andThen (adds_extensions f.name f.package f.extensions))))
  exact h.weaken (List.Sublist.refl _) (by simp [declaredIn])

/-- The files of a set add the names of all their extensions. -/
theorem adds_files_extensions (seen : List String) (fs : List Source.File) :
    Adds (files seen fs) (fs.flatMap extensionNamesIn) ((fs.flatMap declaredIn).map (·.1)) := by
  induction fs generalizing seen with
  | nil => exact Adds.nothing
  | cons f rest ih =>
    intro table table' h hn
    rw [files] at h
    split at h
    · cases h
    · have hboth := (adds_file_extensions f).andThen (ih (f.name :: seen))
      rw [← List.map_append] at hboth
      exact hboth table table' h hn

end Names

/-- The full name of an extension. -/
def Extension.fullName (x : Extension) : String := x.field.fullName

namespace Resolve

variable {c : Context} {numbers : String → Numbers}

theorem fullName_of_extension {scope : String} {path : List Nat} {s : Source.Field} {x : Extension}
    (h : extension c numbers scope path s = .ok x) : x.fullName = nameWithin scope s.name := by
  obtain ⟨extendee, -, h⟩ := Except.bind_eq_ok.1 h
  obtain ⟨⟨⟩, -, h⟩ := Except.bind_eq_ok.1 h
  obtain ⟨k, -, h⟩ := Except.bind_eq_ok.1 h
  obtain ⟨fallback, -, h⟩ := Except.bind_eq_ok.1 h
  obtain rfl := Except.ok.inj h
  rfl

theorem map_fullName_of_extensions {scope : String} {path : List Nat} {tag index : Nat}
    {ss : List Source.Field} {xs : List Extension}
    (h : extensions c numbers scope path tag index ss = .ok xs) :
    xs.map Extension.fullName = ss.map fun s => nameWithin scope s.name := by
  induction ss generalizing index xs with
  | nil =>
    obtain rfl := Except.ok.inj h
    rfl
  | cons s ss ih =>
    obtain ⟨x, hx, h⟩ := Except.bind_eq_ok.1 h
    obtain ⟨rest, hrest, h⟩ := Except.bind_eq_ok.1 h
    obtain rfl := Except.ok.inj h
    rw [List.map_cons, List.map_cons, fullName_of_extension hx, ih hrest]

mutual

theorem map_fullName_of_message {scope : String} {path : List Nat} {ts : List MessageType}
    {xs : List Extension} :
    (m : Source.MessageType) → message c numbers scope path m = .ok (ts, xs) →
      xs.map Extension.fullName = Names.extensionNames scope m
  | ⟨name, declared, oneofs, messages, enums, exts, ranges, reserved, mapEntry⟩, h => by
    rw [message] at h
    obtain ⟨own, -, h⟩ := Except.bind_eq_ok.1 h
    obtain ⟨⟨nested, nestedExts⟩, hnested, h⟩ := Except.bind_eq_ok.1 h
    obtain ⟨⟨⟩, -, h⟩ := Except.bind_eq_ok.1 h
    obtain ⟨ownExts, hexts, h⟩ := Except.bind_eq_ok.1 h
    obtain ⟨-, rfl⟩ := Prod.mk.inj (Except.ok.inj h)
    rw [Names.extensionNames, List.map_append, map_fullName_of_messageList messages hnested,
      map_fullName_of_extensions hexts]

theorem map_fullName_of_messageList {scope : String} {path : List Nat} {index : Nat}
    {ts : List MessageType} {xs : List Extension} :
    (ms : List Source.MessageType) → messageList c numbers scope path index ms = .ok (ts, xs) →
      xs.map Extension.fullName = Names.extensionNamesOfList scope ms
  | [], h => by
    obtain ⟨-, rfl⟩ := Prod.mk.inj (Except.ok.inj h)
    rfl
  | m :: rest, h => by
    rw [messageList] at h
    obtain ⟨⟨ts, xs⟩, hfirst, h⟩ := Except.bind_eq_ok.1 h
    obtain ⟨⟨ts', xs'⟩, hrest, h⟩ := Except.bind_eq_ok.1 h
    obtain ⟨-, rfl⟩ := Prod.mk.inj (Except.ok.inj h)
    rw [Names.extensionNamesOfList, List.map_append, map_fullName_of_message m hfirst,
      map_fullName_of_messageList rest hrest]

end

theorem map_fullName_of_file {files : List PoolFile} {names : List Definition}
    {enums : List EnumType} {f : Source.File} {a : Additions}
    (h : file files names enums numbers f = .ok a) :
    a.extensions.map Extension.fullName = Names.extensionNamesIn f := by
  obtain ⟨⟨⟩, -, h⟩ := Except.bind_eq_ok.1 h
  obtain ⟨⟨messages, exts⟩, hmessages, h⟩ := Except.bind_eq_ok.1 h
  obtain ⟨⟨⟩, -, h⟩ := Except.bind_eq_ok.1 h
  obtain ⟨services, -, h⟩ := Except.bind_eq_ok.1 h
  obtain ⟨topExts, htop, h⟩ := Except.bind_eq_ok.1 h
  obtain rfl := Except.ok.inj h
  rw [Names.extensionNamesIn, List.map_append, map_fullName_of_messageList f.messages hmessages,
    map_fullName_of_extensions htop]

end Resolve

namespace Pool

variable {p : Pool} {files : List Source.File}

theorem LoadedFrom.sublist_extensions (h : p.LoadedFrom files) :
    (p.extensions.map Extension.fullName).Sublist (Names.nameList p.names) := by
  induction h with
  | empty => exact .slnil
  | @add p q files set hp _ hq ih =>
    obtain ⟨names, hnames, hq⟩ := Except.bind_eq_ok.1 hq
    obtain ⟨additions, hadditions, hq⟩ := Except.bind_eq_ok.1 hq
    obtain ⟨⟨⟩, -, hq⟩ := Except.bind_eq_ok.1 hq
    obtain rfl := Except.ok.inj hq
    obtain ⟨new, rfl, hsub, -, -⟩ := Names.adds_files_extensions _ _ _ _ hnames hp.origin.distinct
    have hnew : (additions.flatMap (·.extensions)).map Extension.fullName =
        (p.fresh set).flatMap Names.extensionNamesIn := by
      have hfiles := (List.mapM_eq_ok.1 hadditions).imp fun f a => Resolve.map_fullName_of_file
      rw [List.map_flatMap, List.flatMap_def, List.flatMap_def, eq_comm]
      congr 1
      rw [← List.forall₂_eq_eq_eq, List.forall₂_map_left_iff, List.forall₂_map_right_iff]
      exact hfiles.imp fun _ _ h => h.symm
    rw [Names.nameList, List.map_append, List.map_append, hnew]
    exact ih.append hsub

/-- No two extensions have the same full name. -/
theorem LoadedFrom.nodup_extensions (h : p.LoadedFrom files) :
    (p.extensions.map Extension.fullName).Nodup :=
  h.origin.distinct.sublist h.sublist_extensions

/-- The extensions of a type have keys of their own. -/
theorem Loaded.nodup_extensionKey (h : p.Loaded) (type : String) :
    ((p.extensionsOf type).map extensionKey).Nodup := by
  obtain ⟨files, h⟩ := h
  have hkeys : (p.extensionsOf type).map extensionKey =
      ((p.extensions.filter (·.extendee == type)).map Extension.fullName).map
        fun name => "[" ++ name ++ "]" := by
    rw [extensionsOf, List.map_map, List.map_map]
    rfl
  rw [hkeys]
  refine List.Nodup.map (fun a b hab => ?_)
    (h.nodup_extensions.sublist (List.filter_sublist.map _))
  simpa [← String.toList_inj] using hab

end Pool

end ServiceCall
