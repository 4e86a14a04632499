import ServiceCall.Proofs.Schema.Compiled
import ServiceCall.Proofs.Schema.References
import ServiceCall.Registry.Signature
/-!
# Signatures that can be told apart

A signature is written with brackets, colons and commas that stand in no name, except that the type of a
map has a comma and a blank in it, just as they stand between parameters. A text is still read in only one
way: the type of a parameter is what stands before the next comma, unless it starts as that of a map does,
and then it ends with the angle bracket (`Signature.TypeText.unique`). So two signatures with one text have
the same name, the same parameters and the same type of what they return
(`Signature.Legible.eq_of_text`). The signatures of the methods of loaded files are of this kind as long as
the files call things by identifiers (`Signature.text_ofMethod_eq_iff`).
-/

namespace ServiceCall.Signature

open Text (append_unique)

/-! ## Types -/

/-- The texts of types: of single values, of lists and of maps. -/
inductive TypeText : String → Prop where
  | single {type : String} (h : Plain type) : TypeText type
  | list {type : String} (h : Plain type) : TypeText ("repeated " ++ type)
  | map {key value : String} (hkey : Plain key) (hvalue : Plain value) :
    TypeText ("map<" ++ key ++ ", " ++ value ++ ">")

namespace TypeText

/-- A character of the texts of types that are no maps. -/
def isBareChar (c : Char) : Bool := isNameChar c || c == ' '

/-- A type is no map, or its text is that of one. -/
theorem bare_or_map {type : String} (h : TypeText type) :
    (∀ c ∈ type.toList, isBareChar c = true) ∨ ∃ key value, Plain key ∧ Plain value ∧
      type.toList = "map".toList ++ '<' :: (key.toList ++ ',' :: ' ' :: (value.toList ++ ['>'])) := by
  cases h with
  | single h => exact .inl fun c hc => by rw [isBareChar, h c hc, Bool.true_or]
  | list h =>
    refine .inl fun c hc => ?_
    rw [String.toList_append, List.mem_append] at hc
    obtain hc | hc := hc
    · exact List.all_eq_true.1 (by decide : "repeated ".toList.all isBareChar = true) c hc
    · rw [isBareChar, h c hc, Bool.true_or]
  | @map key value hkey hvalue =>
    refine .inr ⟨key, value, hkey, hvalue, ?_⟩
    simp

/-- The text of a map does not go on as another type that is followed by a comma. -/
theorem map_ne_bare {s t u : List Char} (hs : ∀ c ∈ s, isBareChar c = true)
    (hu : ∀ c ∈ u.head?, c = ',') : s ++ u ≠ "map".toList ++ '<' :: t := by
  intro h
  obtain ⟨-, rfl⟩ := append_unique (P := isBareChar) hs (List.all_eq_true.1 (by decide))
    (fun c hc => by rw [hu c hc]; rfl) (by rintro c ⟨⟩; rfl) h
  exact absurd (hu '<' rfl) (by decide)

/-- The type of a parameter is told from what follows it, which is a comma or nothing. -/
theorem unique {s t : String} {u v : List Char} (hs : TypeText s) (ht : TypeText t)
    (hu : ∀ c ∈ u.head?, c = ',') (hv : ∀ c ∈ v.head?, c = ',')
    (h : s.toList ++ u = t.toList ++ v) : s = t ∧ u = v := by
  rw [← String.toList_inj]
  obtain hs | ⟨key, value, hkey, hvalue, hs⟩ := hs.bare_or_map <;>
  obtain ht | ⟨key', value', hkey', hvalue', ht⟩ := ht.bare_or_map
  · exact append_unique hs ht (fun c hc => by rw [hu c hc]; rfl) (fun c hc => by rw [hv c hc]; rfl) h
  · rw [ht, List.append_assoc] at h
    exact absurd h (map_ne_bare hs hu)
  · rw [hs, List.append_assoc] at h
    exact absurd h.symm (map_ne_bare ht hv)
  · rw [hs, ht] at h ⊢
    simp only [List.append_assoc, List.cons_append, List.nil_append, List.append_cancel_left_eq,
      List.cons.injEq, true_and] at h
    obtain ⟨hkeys, h⟩ := append_unique hkey hkey' (by rintro c ⟨⟩; rfl) (by rintro c ⟨⟩; rfl) h
    simp only [List.cons.injEq, true_and] at h
    obtain ⟨hvalues, h⟩ := append_unique hvalue hvalue' (by rintro c ⟨⟩; rfl) (by rintro c ⟨⟩; rfl) h
    rw [hkeys, hvalues]
    exact ⟨rfl, (List.cons.inj h).2⟩

/-- No text of a type closes the list of parameters. -/
theorem ne_of_mem {type : String} (h : TypeText type) : ∀ c ∈ type.toList, c ≠ ')' := by
  have hplain {s : String} (hs : Plain s) : ∀ c ∈ s.toList, c ≠ ')' := by
    rintro c hc rfl
    exact absurd (hs _ hc) (by decide)
  cases h with
  | single h => exact hplain h
  | list h =>
    rw [String.toList_append]
    exact List.forall_mem_append.2 ⟨by simp, hplain h⟩
  | map hkey hvalue =>
    simp only [String.toList_append, List.forall_mem_append]
    exact ⟨⟨⟨⟨by simp, hplain hkey⟩, by simp⟩, hplain hvalue⟩, by simp⟩

end TypeText

/-! ## Parameters -/

/-- Parameters are written with names and types that are made as those of fields are. -/
def Readable (ps : List (String × String)) : Prop := ∀ q ∈ ps, Plain q.1 ∧ TypeText q.2

/-- What is written behind a parameter. -/
def behind (ps : List (String × String)) : List Char :=
  if ps = [] then [] else ',' :: ' ' :: (parametersText ps).toList

theorem toList_parametersText_cons (q : String × String) (ps : List (String × String)) :
    (parametersText (q :: ps)).toList = q.1.toList ++ ':' :: ' ' :: (q.2.toList ++ behind ps) := by
  cases ps with
  | nil => simp [parametersText, behind]
  | cons r ps => simp [parametersText, behind, String.intercalate_cons_cons]

theorem head?_behind (ps : List (String × String)) : ∀ c ∈ (behind ps).head?, c = ',' := by
  unfold behind
  split
  · simp
  · rintro c ⟨⟩
    rfl

theorem Readable.ne_of_mem {ps : List (String × String)} (h : Readable ps) :
    ∀ c ∈ (parametersText ps).toList, c ≠ ')' := by
  induction ps with
  | nil => simp [parametersText]
  | cons q ps ih =>
    obtain ⟨⟨hname, htype⟩, hrest⟩ := List.forall_mem_cons.1 h
    have hbehind : ∀ c ∈ behind ps, c ≠ ')' := by
      unfold behind
      split
      · simp
      · exact List.forall_mem_cons.2 ⟨by decide, List.forall_mem_cons.2 ⟨by decide, ih hrest⟩⟩
    rw [toList_parametersText_cons, List.forall_mem_append, List.forall_mem_cons,
      List.forall_mem_cons, List.forall_mem_append]
    exact ⟨(TypeText.single hname).ne_of_mem, by decide, by decide, htype.ne_of_mem, hbehind⟩

/-- Parameters that are written in the same way are the same. -/
theorem Readable.unique {ps qs : List (String × String)} (hp : Readable ps) (hq : Readable qs)
    (h : (parametersText ps).toList = (parametersText qs).toList) : ps = qs := by
  induction ps generalizing qs with
  | nil =>
    cases qs with
    | nil => rfl
    | cons r qs => simp [parametersText] at h
  | cons q ps ih =>
    cases qs with
    | nil => simp [parametersText] at h
    | cons r qs =>
      obtain ⟨⟨hname, htype⟩, hrest⟩ := List.forall_mem_cons.1 hp
      obtain ⟨⟨hname', htype'⟩, hrest'⟩ := List.forall_mem_cons.1 hq
      rw [toList_parametersText_cons, toList_parametersText_cons] at h
      obtain ⟨hnames, h⟩ := append_unique hname hname' (by rintro c ⟨⟩; rfl) (by rintro c ⟨⟩; rfl) h
      simp only [List.cons.injEq, true_and] at h
      obtain ⟨htypes, hbehind⟩ := htype.unique htype' (head?_behind ps) (head?_behind qs) h
      have hsame : ps = qs := by
        unfold behind at hbehind
        split at hbehind <;> split at hbehind
        next hp hq => rw [hp, hq]
        next => cases hbehind
        next => cases hbehind
        next => exact ih hrest hrest' (by simpa using hbehind)
      rw [hsame, Prod.ext (String.toList_inj.1 hnames) htypes]

/-! ## Signatures -/

/-- A signature whose names and types are written as those of methods are. -/
structure Legible (s : Signature) : Prop where
  name : Plain s.name
  parameters : Readable s.parameters

theorem toList_text (s : Signature) : s.text.toList = s.name.toList ++ '(' ::
    ((parametersText s.parameters).toList ++ ')' :: (" -> ".toList ++ s.returns.toList)) := by
  simp [text]

/-- A signature can be read from its text, up to the names of its input and its output. -/
theorem Legible.eq_of_text {s t : Signature} (hs : s.Legible) (ht : t.Legible) (h : s.text = t.text) :
    s.name = t.name ∧ s.parameters = t.parameters ∧ s.returns = t.returns := by
  have h := congrArg String.toList h
  rw [toList_text, toList_text] at h
  obtain ⟨hname, h⟩ := append_unique hs.name ht.name (by rintro c ⟨⟩; rfl) (by rintro c ⟨⟩; rfl) h
  simp only [List.cons.injEq, true_and] at h
  obtain ⟨hparameters, h⟩ := append_unique (P := (· != ')')) (by simpa using hs.parameters.ne_of_mem)
    (by simpa using ht.parameters.ne_of_mem) (by rintro c ⟨⟩; rfl) (by rintro c ⟨⟩; rfl) h
  simp only [List.cons.injEq, true_and, List.append_cancel_left_eq] at h
  exact ⟨String.toList_inj.1 hname, hs.parameters.unique ht.parameters hparameters,
    String.toList_inj.1 h⟩

variable {p : Pool} {files : List Source.File}

theorem plain_of_mem_typeNames (hfiles : ∀ f ∈ files, f.Spelled) :
    ∀ name ∈ Pool.typeNames files, Plain name := by
  intro name hname
  obtain ⟨f, hf, hname⟩ := List.mem_flatMap.1 hname
  exact (hfiles f hf).plain_typeNames name hname

/-- The type of a field of a loaded message is written as a type. -/
theorem typeText_of_declared (hp : p.LoadedFrom files) (hfiles : ∀ f ∈ files, f.Spelled)
    {type : String} {f : Field} (hf : f ∈ (p.messageType type).declared) : TypeText (typeText p f) := by
  have hplain {t : String} {g : Field} (hg : g ∈ (p.messageType t).declared) :
      Plain g.kind.name :=
    (hp.among_of_declared hg).plain_name (plain_of_mem_typeNames hfiles)
  unfold typeText
  cases hentry : p.mapEntry? f with
  | none =>
    cases f.isRepeated with
    | true => exact .list (hplain hf)
    | false => exact .single (hplain hf)
  | some entry =>
    -- An entry that lacks its key or its value leaves a gap, which is plain.
    have hpart (number : Nat) : Plain (((entry.field? number).map (·.kind.name)).getD "") := by
      cases hg : entry.field? number with
      | none => exact fun c hc => absurd hc (by simp)
      | some g =>
        obtain ⟨htype, -⟩ := Pool.messageType_of_mapEntry? hentry
        exact hplain (t := f.kind.name) (htype ▸ List.mem_of_find?_eq_some hg)
    exact .map (hpart 1) (hpart 2)

/-- The signatures of the methods that files declare are legible if the files call things by
identifiers. -/
theorem legible_ofMethod (hp : p.LoadedFrom files) (hfiles : ∀ f ∈ files, f.Spelled) {s : Service}
    (hs : s ∈ p.services) {m : Method} (hm : m ∈ s.methods) : (ofMethod p m).Legible := by
  constructor
  · obtain ⟨d, hd, hservice⟩ := hp.exists_declares hs
    obtain ⟨f, hf, hd⟩ := List.mem_flatMap.1 hd
    obtain ⟨declared, hdeclared, rfl⟩ := List.mem_map.1 hd
    obtain ⟨dm, hdm, hmethod⟩ := hservice.methods.exists_left hm
    rw [ofMethod, hmethod.name]
    exact isNameChar_of_isIdentifier ((hfiles f hf).methods declared hdeclared dm hdm)
  · refine List.forall_mem_map.2 fun f hf => ⟨?_, ?_⟩
    · obtain ⟨d, hd, hname⟩ := List.mem_map.1 (hp.origin.inputs s hs m hm)
      obtain ⟨file, hfile, hd'⟩ := List.mem_flatMap.1 hd
      have hdeclares := hname ▸ hp.declares_messageType hd
      obtain ⟨df, hdf, hfield⟩ := hdeclares.fields.exists_left (MessageType.mem_fields.1 hf)
      rw [hfield.name]
      exact isNameChar_of_isIdentifier ((hfiles file hfile).fields d hd' df hdf)
    · exact typeText_of_declared hp hfiles (MessageType.mem_fields.1 hf)

/-- Two methods of loaded files that call things by identifiers are shown in the same way only if they have
the same name, the same parameters with the same types in the same order, and return the same type. -/
theorem text_ofMethod_eq_iff {q : Pool} {others : List Source.File} (hp : p.LoadedFrom files)
    (hfiles : ∀ f ∈ files, f.Spelled) (hq : q.LoadedFrom others) (hothers : ∀ f ∈ others, f.Spelled)
    {s t : Service} (hs : s ∈ p.services) (ht : t ∈ q.services) {m n : Method} (hm : m ∈ s.methods)
    (hn : n ∈ t.methods) : (ofMethod p m).text = (ofMethod q n).text ↔
      (ofMethod p m).name = (ofMethod q n).name ∧
        (ofMethod p m).parameters = (ofMethod q n).parameters ∧
        (ofMethod p m).returns = (ofMethod q n).returns := by
  constructor
  · exact (legible_ofMethod hp hfiles hs hm).eq_of_text (legible_ofMethod hq hothers ht hn)
  · rintro ⟨hname, hparameters, hreturns⟩
    rw [text, text, hname, hparameters, hreturns]

/-- A file with a service and a message that has a map and a text. -/
def shelfFile (service message : String) : Source.File where
  name := "shelf.proto"
  package := "shelf.v1"
  dependencies := []
  publicDependencies := []
  weakDependencies := []
  messages := [
    { Standard.message message [
        { Standard.many (Standard.field 11 "labels" 1) with
          typeName := ".shelf.v1." ++ message ++ ".LabelsEntry" },
        Standard.text "note" 2] with
      messages := [{ Standard.message "LabelsEntry" [Standard.text "key" 1,
        { Standard.field 11 "value" 2 with typeName := ".shelf.v1.Label" }] with mapEntry := true }] },
    Standard.message "Label" [Standard.text "text" 1]]
  enums := []
  services := [⟨service, [⟨"put", ".shelf.v1." ++ message, ".shelf.v1.Label", false, false⟩]⟩]
  extensions := []
  edition := .proto3
  options := []

/-- The method of the service. -/
def shelfMethod (service message : String) : Method :=
  ⟨"put", "shelf.v1." ++ service ++ ".put", "shelf.v1." ++ message, "shelf.v1.Label", false, false⟩

/-- Methods of services that are loaded apart, with inputs of different types, are shown in the same way
and have the same parameters. -/
theorem text_shelf :
    (ofMethod (.ofFiles [shelfFile "First" "Put"]) (shelfMethod "First" "Put")).text =
      "put(labels: map<string, shelf.v1.Label>, note: string) -> string" ∧
    (ofMethod (.ofFiles [shelfFile "First" "Put"]) (shelfMethod "First" "Put")).parameters =
      (ofMethod (.ofFiles [shelfFile "Second" "Place"]) (shelfMethod "Second" "Place")).parameters := by
  have hfirst : Pool.LoadedFrom (.ofFiles [shelfFile "First" "Put"]) [shelfFile "First" "Put"] :=
    Pool.loadedFrom_ofFiles (by unfold EnumType.InRange; decide) (by decide +kernel)
  have hsecond : Pool.LoadedFrom (.ofFiles [shelfFile "Second" "Place"]) [shelfFile "Second" "Place"] :=
    Pool.loadedFrom_ofFiles (by unfold EnumType.InRange; decide) (by decide +kernel)
  have hspelled : ∀ f ∈ [shelfFile "First" "Put"], f.Spelled := List.forall_mem_singleton.2
    ⟨.inr (by decide +kernel), by decide +kernel, by decide +kernel, by decide, by decide⟩
  have hspelled' : ∀ f ∈ [shelfFile "Second" "Place"], f.Spelled := List.forall_mem_singleton.2
    ⟨.inr (by decide +kernel), by decide +kernel, by decide +kernel, by decide, by decide⟩
  have htext : (ofMethod (.ofFiles [shelfFile "First" "Put"]) (shelfMethod "First" "Put")).text =
      (ofMethod (.ofFiles [shelfFile "Second" "Place"]) (shelfMethod "Second" "Place")).text := by
    decide +kernel
  have hservice : (⟨"First", "shelf.v1.First", [shelfMethod "First" "Put"]⟩ : Service) ∈
      (Pool.ofFiles [shelfFile "First" "Put"]).services := by
    decide +kernel
  have hservice' : (⟨"Second", "shelf.v1.Second", [shelfMethod "Second" "Place"]⟩ : Service) ∈
      (Pool.ofFiles [shelfFile "Second" "Place"]).services := by
    decide +kernel
  exact ⟨by decide +kernel, ((text_ofMethod_eq_iff hfirst hspelled hsecond hspelled' hservice hservice'
    (List.mem_singleton_self _) (List.mem_singleton_self _)).1 htext).2.1⟩

end ServiceCall.Signature
