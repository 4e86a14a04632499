import ServiceCall.Description.Basic
import ServiceCall.Proofs.Json.Record
import ServiceCall.Proofs.Text.Utf8
/-!
# The report of a generator

A text reports declarations if it is an object that lists them under their keys (`Declarations.Written`).
The order of the members does not matter, nor do blanks, escapes, members of other names and whether a
list without items is there at all. A command generator that ends well gives the declarations that its
output reports, and one that does not gives none, whatever it wrote
(`GeneratorCommand.reports_of_written`).
-/

namespace ServiceCall

open Json (Document)
open Json.Document (ofText ofObject)

/-! ## One declaration -/

namespace Declaration

/-- The members for both names. -/
def members (d : Declaration) : List (String × Document) :=
  [("name", ofText d.name), ("full_name", ofText d.fullName)]

/-- The document is an object with both names. Its members may come in any order and with members of
other names between them. -/
def Written (d : Declaration) (v : Document) : Prop :=
  ∃ ms, record.Lists d.members ms ∧ v = ofObject ms

/-- The fields that members give. -/
def Given.ofMembers (ms : List (String × Document)) : Given where
  name := Json.field Document.text "name" ms
  fullName := Json.field Document.text "full_name" ms

theorem Given.ofMembers_perm {ms ns : List (String × Document)} (h : ms.Perm ns)
    (hdistinct : (ns.map (·.1)).Nodup) : ofMembers ms = ofMembers ns := by
  rw [ofMembers, ofMembers, Json.field_perm h hdistinct, Json.field_perm h hdistinct]

theorem tracks : record.Tracks Given.ofMembers := by
  rintro ⟨k, v⟩ before hname h
  simp only [record, List.mem_cons, List.not_mem_nil, or_false] at hname
  obtain rfl | rfl := hname
  · refine Json.Record.set_of_read Document.text (fun n g => { g with name := some n })
      (fun _ => rfl) (fun n hn => ?_) h
    rw [Given.ofMembers, Given.ofMembers, Json.field_cons_self hn, Json.field_cons_ne (by simp)]
  · refine Json.Record.set_of_read Document.text (fun n g => { g with fullName := some n })
      (fun _ => rfl) (fun n hn => ?_) h
    rw [Given.ofMembers, Given.ofMembers, Json.field_cons_self hn, Json.field_cons_ne (by simp)]

theorem distinct_members (d : Declaration) : (d.members.map (·.1)).Nodup := by
  simp [members]

theorem ofMembers_members (d : Declaration) :
    Given.ofMembers d.members = ⟨some d.name, some d.fullName⟩ := by
  have hname : Json.field Document.text "name" d.members = some d.name :=
    Json.field_cons_self (Document.text_ofText _)
  have hfull : Json.field Document.text "full_name" d.members = some d.fullName :=
    (Json.field_cons_ne (by decide)).trans (Json.field_cons_self (Document.text_ofText _))
  rw [Given.ofMembers, hname, hfull]

theorem fits_members (d : Declaration) :
    ∀ m ∈ d.members, ∃ s, record.set m.1 m.2 (.ofMembers []) = .ok s := by
  simp only [members, List.forall_mem_cons]
  exact ⟨⟨_, Except.bind_eq_ok.2 ⟨_, Document.text_ofText _, rfl⟩⟩,
    ⟨_, Except.bind_eq_ok.2 ⟨_, Document.text_ofText _, rfl⟩⟩, fun _ h => absurd h List.not_mem_nil⟩

/-- A declaration is read from where it is written. -/
theorem Written.read {d : Declaration} {v : Document} (h : d.Written v) (hskip : v.skip = .ok ()) :
    ofDocument v = .ok d := by
  obtain ⟨ms, hms, rfl⟩ := h
  have hread := tracks.read_of_lists Given.ofMembers_perm hms d.distinct_members d.fits_members
    (Document.skip_ofObject.1 hskip)
  rw [d.ofMembers_members] at hread
  exact Except.bind_eq_ok.2 ⟨_, hread, rfl⟩

end Declaration

/-! ## A report -/

namespace Declarations

/-- What stands under the key of a list: an array of the declarations in their order, or nothing if there
are none. -/
inductive WrittenList : List Declaration → Option Document → Prop
  | leftOut : WrittenList [] none
  | array {ds : List Declaration} {vs : List Document} (h : List.Forall₂ Declaration.Written ds vs) :
      WrittenList ds (some (.array vs none))

/-- The members for the lists that are there. -/
def members (interfaces services : Option Document) : List (String × Document) :=
  Json.optional "interfaces" id interfaces ++ Json.optional "services" id services

/-- The text is an object with both lists. Its members may come in any order, with blanks around them and
with members of other names between them. -/
def Written (m : Declarations) (s : String) : Prop :=
  ∃ interfaces services ms, WrittenList m.interfaces interfaces ∧ WrittenList m.services services ∧
    record.Lists (members interfaces services) ms ∧ Json.Pads (ofObject ms) s.toList

/-- The fields that members give. -/
def Given.ofMembers (ms : List (String × Document)) : Given where
  interfaces := Json.field (Document.listOf Declaration.ofDocument) "interfaces" ms
  services := Json.field (Document.listOf Declaration.ofDocument) "services" ms

theorem Given.ofMembers_perm {ms ns : List (String × Document)} (h : ms.Perm ns)
    (hdistinct : (ns.map (·.1)).Nodup) : ofMembers ms = ofMembers ns := by
  rw [ofMembers, ofMembers, Json.field_perm h hdistinct, Json.field_perm h hdistinct]

theorem tracks : record.Tracks Given.ofMembers := by
  rintro ⟨k, v⟩ before hname h
  simp only [record, List.mem_cons, List.not_mem_nil, or_false] at hname
  obtain rfl | rfl := hname
  · refine Json.Record.set_of_read (Document.listOf Declaration.ofDocument)
      (fun ds g => { g with interfaces := some ds }) (fun _ => rfl) (fun ds hds => ?_) h
    rw [Given.ofMembers, Given.ofMembers, Json.field_cons_self hds, Json.field_cons_ne (by simp)]
  · refine Json.Record.set_of_read (Document.listOf Declaration.ofDocument)
      (fun ds g => { g with services := some ds }) (fun _ => rfl) (fun ds hds => ?_) h
    rw [Given.ofMembers, Given.ofMembers, Json.field_cons_self hds, Json.field_cons_ne (by simp)]

section

variable {interfaces services : Option Document} {m : Declarations} {ds : List Declaration}

theorem keys_members : ((members interfaces services).map (·.1)).Sublist record.names := by
  rw [members, List.map_append]
  exact Json.keys_optional.append Json.keys_optional

theorem distinct_members : ((members interfaces services).map (·.1)).Nodup :=
  keys_members.nodup (by decide)

/-- A list that is there is read from where it is written. -/
theorem WrittenList.read {v : Document} (h : WrittenList ds (some v)) (hskip : v.skip = .ok ()) :
    v.listOf Declaration.ofDocument = .ok ds := by
  cases h with | @array _ vs hvs => ?_
  have hboth : List.Forall₂ (fun v d => v.skip = .ok () ∧ d.Written v) vs ds :=
    (List.forall₂_and_left vs ds).2 ⟨Document.skip_array.1 hskip, hvs.flip⟩
  have hitems : vs.mapM Declaration.ofDocument = .ok ds :=
    List.mapM_eq_ok.2 (hboth.imp fun _ _ h => h.2.read h.1)
  exact Except.bind_eq_ok.2 ⟨ds, hitems, rfl⟩

theorem WrittenList.getD {v : Option Document} (h : WrittenList ds v) :
    (v.map fun _ => ds).getD [] = ds := by
  cases h <;> rfl

theorem ofMembers_members
    (hinterfaces : ∀ v, interfaces = some v → v.listOf Declaration.ofDocument = .ok m.interfaces)
    (hservices : ∀ v, services = some v → v.listOf Declaration.ofDocument = .ok m.services) :
    Given.ofMembers (members interfaces services) =
      ⟨interfaces.map fun _ => m.interfaces, services.map fun _ => m.services⟩ := by
  rw [Given.ofMembers, Json.field_eq_map (by simp [members, Json.member?_append]) hinterfaces,
    Json.field_eq_map (by simp [members, Json.member?_append]) hservices]

theorem fits_members
    (hinterfaces : ∀ v, interfaces = some v → v.listOf Declaration.ofDocument = .ok m.interfaces)
    (hservices : ∀ v, services = some v → v.listOf Declaration.ofDocument = .ok m.services) :
    ∀ x ∈ members interfaces services, ∃ s, record.set x.1 x.2 (.ofMembers []) = .ok s := by
  intro x hx
  simp only [members, List.mem_append, Json.mem_optional] at hx
  obtain ⟨v, hv, rfl⟩ | ⟨v, hv, rfl⟩ := hx
  · exact ⟨_, Except.bind_eq_ok.2 ⟨_, hinterfaces v hv, rfl⟩⟩
  · exact ⟨_, Except.bind_eq_ok.2 ⟨_, hservices v hv, rfl⟩⟩

/-- A text is read as the declarations that it reports. -/
theorem Written.parse {s : String} (h : m.Written s) : parse s = .ok m := by
  obtain ⟨interfaces, services, ms, hi, hs, hms, hpads⟩ := h
  have hskip := Document.skip_ofObject.1 (Json.skip_of_pads hpads)
  have hmember (x : String × Document) (hx : x ∈ members interfaces services) : x.2.skip = .ok () :=
    hskip x (List.mem_filter.1 (hms.mem_iff.2 hx)).1
  have hinterfaces (v : Document) (hv : interfaces = some v) :
      v.listOf Declaration.ofDocument = .ok m.interfaces :=
    (hv ▸ hi : WrittenList m.interfaces (some v)).read
      (hmember ("interfaces", v) (by simp [members, Json.mem_optional, hv]))
  have hservices (v : Document) (hv : services = some v) :
      v.listOf Declaration.ofDocument = .ok m.services :=
    (hv ▸ hs : WrittenList m.services (some v)).read
      (hmember ("services", v) (by simp [members, Json.mem_optional, hv]))
  have hread := tracks.read_of_lists Given.ofMembers_perm hms distinct_members
    (fits_members hinterfaces hservices) hskip
  rw [ofMembers_members hinterfaces hservices] at hread
  rw [Declarations.parse, Json.readText_of_pads hpads]
  exact Except.map_eq_ok.2 ⟨_, hread, by rw [Given.complete, hi.getD, hs.getD]⟩

end

/-- The bytes of a text are read as the text is. -/
theorem read_utf8 (s : String) : read (utf8 s) = parse s := by
  rw [read, utf8, Utf8.symbols_flatMap_encodeChar]
  rfl

end Declarations

/-! ## What a generator gives -/

namespace GeneratorCommand

/-- A command generator that ends well gives the declarations that its output reports, as they are. One
that ends otherwise is refused, whatever its output is. -/
theorem reports_of_written {launch : Launcher} {g : GeneratorCommand} {r : GenerateRequest}
    {d d' : Disk} {output : ProcessOutput} (wording : Json.Wording)
    (h : launch g.program (g.fullArguments r) d = (.ok output, d')) :
    (output.status = .code 0 → ∀ (m : Declarations) (s : String), m.Written s →
      output.stdout = utf8 s → g.generator launch wording r d = (.ok m, d')) ∧
    (output.status ≠ .code 0 → g.generator launch wording r d =
      (.error (.rejected output.status (trim (Utf8.lossy output.stderr))), d')) := by
  have hgenerator : g.generator launch wording r d = (report wording output, d') := by
    rw [generator, h]
  rw [hgenerator, report]
  refine ⟨fun hstatus m s hm hs => ?_, fun hstatus => ?_⟩
  · have hread : Declarations.read output.stdout = .ok m := by
      rw [hs, Declarations.read_utf8, hm.parse]
    rw [hread, hstatus]
    rfl
  · have hfails : output.status.isSuccess = false := by simpa [ExitStatus.isSuccess] using hstatus
    rw [hfails]
    rfl

end GeneratorCommand

/-- A declaration with its members in the opposite order and another one between them. -/
def Declaration.shuffled (d : Declaration) : Json :=
  .object [("full_name", .string d.fullName), ("kind", .null), ("name", .string d.name)]

/-- A report with another member in front of its only list. -/
def Declarations.shuffled (ds : List Declaration) : Json :=
  .object [("warnings", .array [.string "]"]), ("interfaces", .array (ds.map Declaration.shuffled))]

theorem Declaration.exists_shuffled (d : Declaration) :
    ∃ v, d.Written v ∧ Json.Spells v (Json.compactChars d.shuffled) :=
  ⟨ofObject [("full_name", ofText d.fullName), ("kind", .null), ("name", ofText d.name)],
    ⟨[("full_name", ofText d.fullName), ("kind", .null), ("name", ofText d.name)],
      List.reverse_perm d.members, rfl⟩,
    Json.spells_object (.cons ⟨rfl, Json.spells_quote _⟩ (.cons ⟨rfl, .null⟩
      (.cons ⟨rfl, Json.spells_quote _⟩ .nil)))⟩

theorem Declarations.written_shuffled (ds : List Declaration) :
    (⟨ds, []⟩ : Declarations).Written
      (String.ofList ('\n' :: (shuffled ds).compactChars ++ [' '])) := by
  have hitems : ∃ vs, List.Forall₂ Declaration.Written ds vs ∧
      List.Forall₂ (fun j v => Json.Spells v (Json.compactChars j)) (ds.map Declaration.shuffled) vs := by
    induction ds with
    | nil => exact ⟨[], .nil, .nil⟩
    | cons d ds ih =>
      obtain ⟨v, hv, hspells⟩ := d.exists_shuffled
      obtain ⟨vs, hvs, hspellsAll⟩ := ih
      exact ⟨v :: vs, .cons hv hvs, .cons hspells hspellsAll⟩
  obtain ⟨vs, hvs, hspells⟩ := hitems
  have hwarnings : Json.Spells (.array [ofText "]"] none) (Json.compactChars (.array [.string "]"])) :=
    Json.spells_array (.cons (Json.spells_quote _) .nil)
  refine ⟨some (.array vs none), none, [("warnings", .array [ofText "]"] none),
    ("interfaces", .array vs none)], .array hvs, .leftOut, List.Perm.refl _, ?_⟩
  rw [String.toList_ofList]
  have hline : Json.Blank ['\n'] := by decide
  have hblank : Json.Blank [' '] := by decide
  exact .mk hline (Json.spells_object (.cons ⟨rfl, hwarnings⟩
    (.cons ⟨rfl, Json.spells_array hspells⟩ .nil))) hblank

/-- What a generator declares twice under a name that has to be escaped is passed on twice, and nothing is
passed on if it ends with an error. -/
theorem GeneratorCommand.reports_shuffled :
    let ds : List Declaration := [⟨"a\"\x07", "p.A"⟩, ⟨"", "é"⟩, ⟨"a\"\x07", "p.A"⟩]
    let s := String.ofList ('\n' :: (Declarations.shuffled ds).compactChars ++ [' '])
    let launch (status : ExitStatus) : Launcher := fun _ _ d => (.ok ⟨status, utf8 s, utf8 "no\n"⟩, d)
    let run (status : ExitStatus) := generator (launch status) (fun _ => "expected value") ⟨"sh", []⟩
      ⟨"d.wsdl", "ws/descriptor.wsdl", "ws/src"⟩ ⟨[], []⟩
    (⟨ds, []⟩ : Declarations).Written s ∧ run (.code 0) = (.ok ⟨ds, []⟩, ⟨[], []⟩) ∧
      run (.code 1) = (.error (.rejected (.code 1) "no"), ⟨[], []⟩) := by
  intro ds s launch run
  have hwritten : (⟨ds, []⟩ : Declarations).Written s := Declarations.written_shuffled ds
  have hlaunch (status : ExitStatus) :
      launch status "sh" (fullArguments ⟨"sh", []⟩ ⟨"d.wsdl", "ws/descriptor.wsdl", "ws/src"⟩) ⟨[], []⟩ =
        (.ok ⟨status, utf8 s, utf8 "no\n"⟩, ⟨[], []⟩) := rfl
  have hstderr : trim (Utf8.lossy (utf8 "no\n")) = "no" := by decide +kernel
  refine ⟨hwritten, ?_, ?_⟩
  · exact (reports_of_written (g := ⟨"sh", []⟩) _ (hlaunch (.code 0))).1 (by dsimp only) ⟨ds, []⟩ s
      hwritten (by dsimp only)
  · rw [← hstderr]
    exact (reports_of_written (g := ⟨"sh", []⟩) _ (hlaunch (.code 1))).2 (by decide)

end ServiceCall
