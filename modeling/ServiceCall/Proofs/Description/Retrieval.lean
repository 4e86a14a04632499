import ServiceCall.Description.Basic
import ServiceCall.Proofs.Disk.Links
/-!
# Retrieving before generating

A description is generated from in one of three ways (`Description.Ends`). Only the call of the generator
that is made matters (`Description.generate_congr`), and it is made on a disk where the stored document is
the one at the address, even if the address names the stored document itself
(`Description.course_of_generate`).
-/

namespace ServiceCall

namespace Description

section

variable (web : Fetcher) (g : Generator) (address : String) (w : Workspace) (d : Disk)

/-- Generating ends with a result, a run of the generator and this disk. -/
inductive Ends : Except DescriptionError Declarations → Option Generated → Disk → Prop where
  | unretrieved {e : DescriptionError} (hretrieve : retrieve web address w d = .error e) :
      Ends (.error e) none d
  | ungenerated {stored after : Disk} {e : GenerateError}
      (hretrieve : retrieve web address w d = .ok stored)
      (hgenerator : g (request address w) stored = (.error e, after)) :
      Ends (.error (.ofGenerate address e)) (some ⟨request address w, stored⟩) after
  | generated {stored after : Disk} {model : Declarations}
      (hretrieve : retrieve web address w d = .ok stored)
      (hgenerator : g (request address w) stored = (.ok model, after)) :
      Ends (.ok model) (some ⟨request address w, stored⟩) after

end

theorem ends_of_generate {web : Fetcher} {g : Generator} {address : String} {w : Workspace}
    {d d' : Disk} {result : Except DescriptionError Declarations} {run : Option Generated}
    (h : generate web g address w d = (result, run, d')) : Ends web g address w d result run d' := by
  unfold generate at h
  cases hretrieve : retrieve web address w d with
  | error e =>
    rw [hretrieve] at h
    cases h
    exact .unretrieved hretrieve
  | ok stored =>
    rcases hgenerator : g (request address w) stored with ⟨e | model, after⟩
    · simp only [hretrieve, hgenerator] at h
      cases h
      exact .ungenerated hretrieve hgenerator
    · simp only [hretrieve, hgenerator] at h
      cases h
      exact .generated hretrieve hgenerator

/-- A description is turned into sources in the same way if the address is fetched in the same way and
the generator does the same where it was run. -/
theorem generate_congr {web web' : Fetcher} {g g' : Generator} {address : String}
    {w : Workspace} {d d' : Disk} {result : Except DescriptionError Declarations}
    {run : Option Generated} (hweb : web' address = web address)
    (hg : ∀ x, run = some x → g' x.request x.disk = g x.request x.disk)
    (h : generate web g address w d = (result, run, d')) :
    generate web' g' address w d = (result, run, d') := by
  have hretrieve : retrieve web' address w d = retrieve web address w d := by
    unfold retrieve fetch
    rw [hweb]
  unfold generate
  rw [hretrieve]
  cases ends_of_generate h with
  | unretrieved hretrieve => rw [hretrieve]
  | ungenerated hretrieve hgenerator =>
    have hsame := (hg _ rfl).trans hgenerator
    simp only [hretrieve, hsame]
    rfl
  | generated hretrieve hgenerator =>
    have hsame := (hg _ rfl).trans hgenerator
    simp only [hretrieve, hsame]
    rfl

/-! ## All or nothing -/

/-- What a failure of the generator is reported as. -/
inductive Reported (address : String) : GenerateError → DescriptionError → Prop where
  | rejected (status : ExitStatus) (stderr : String) :
      Reported address (.rejected status stderr) (.malformed address (.rejected status stderr))
  | other (message : String) : Reported address (.other message) (.malformed address (.other message))
  | launch (program : String) (cause : IoError) :
      Reported address (.launch program cause) (.generator address (.launch program cause))
  | invalidModel (category : Json.Category) (cause : String) :
      Reported address (.invalidModel category cause) (.generator address (.invalidModel category cause))

/-- What a generator gives is passed on. -/
inductive Passes (address : String) :
    Except GenerateError Declarations → Except DescriptionError Declarations → Prop where
  | model (model : Declarations) : Passes address (.ok model) (.ok model)
  | error {e : GenerateError} {e' : DescriptionError} (h : Reported address e e') :
      Passes address (.error e) (.error e')

theorem passes_mapError (address : String) (result : Except GenerateError Declarations) :
    Passes address result (result.mapError (DescriptionError.ofGenerate address)) := by
  cases result with
  | ok model => exact .model model
  | error e =>
    refine .error ?_
    cases e with
    | launch program cause => exact .launch program cause
    | rejected status stderr => exact .rejected status stderr
    | invalidModel category cause => exact .invalidModel category cause
    | other message => exact .other message

section

variable (web : Fetcher) (address : String) (w : Workspace) (d : Disk)

/-- How generating from a file goes, whatever the generator is. -/
inductive Course : Prop where
  /-- The file cannot be read. -/
  | unread {e : IoError} (hread : d.read (filePath address) = .error e)
      (hgenerate : ∀ g, generate web g address w d = (.error (.unreachable address e), none, d))
  /-- It cannot be stored. -/
  | unstored {document : Bytes} {e : IoError} (hread : d.read (filePath address) = .ok document)
      (hwrite : d.write w.document document = .error e)
      (hgenerate : ∀ g, generate web g address w d = (.error (.store address e), none, d))
  /-- The generator is called once it is stored. -/
  | called {document : Bytes} {stored : Disk} (hread : d.read (filePath address) = .ok document)
      (hwrite : d.write w.document document = .ok stored) (hkeeps : Disk.Keeps d stored)
      (hstored : stored.read w.document = .ok document)
      (hgenerate : ∀ g : Generator, ∃ result,
        generate web g address w d = (result, some ⟨⟨address, w.document, w.sourceDir⟩, stored⟩,
          (g ⟨address, w.document, w.sourceDir⟩ stored).2) ∧
        Passes address (g ⟨address, w.document, w.sourceDir⟩ stored).1 result)

end

/-- A generator is called exactly if the file at the address can be read and stored, once, with the
document as it was in the file. -/
theorem course_of_generate (web : Fetcher) {address : String} (haddress : isWebAddress address = false)
    (w : Workspace) (d : Disk) : Course web address w d := by
  have hfetch : fetch web address d = d.read (filePath address) := by
    rw [fetch, haddress]
    rfl
  cases hread : d.read (filePath address) with
  | error e =>
    have hretrieve : retrieve web address w d = .error (.unreachable address e) := by
      rw [retrieve, hfetch, hread]
    exact .unread hread fun g => by rw [generate, hretrieve]
  | ok document =>
    cases hwrite : d.write w.document document with
    | error e =>
      have hretrieve : retrieve web address w d = .error (.store address e) := by
        rw [retrieve, hfetch, hread]
        dsimp only
        rw [hwrite]
      exact .unstored hread hwrite fun g => by rw [generate, hretrieve]
    | ok stored =>
      have hretrieve : retrieve web address w d = .ok stored := by
        rw [retrieve, hfetch, hread]
        dsimp only
        rw [hwrite]
      obtain ⟨hkeeps, hstored⟩ := Disk.read_write hwrite
      refine .called hread hwrite hkeeps hstored fun g => ⟨_, ?_, passes_mapError address _⟩
      rw [generate, hretrieve]
      rfl

/-- A disk with a stored document, to which a link leads. -/
def linked : Disk := ⟨[], [(["ws"], .directory), (["ws", "descriptor.wsdl"], .file [60, 47, 62] false),
  (["here"], .link "ws/descriptor.wsdl")]⟩

/-- A document that is copied to itself is what the generator reads. -/
theorem called_linked : ∃ stored : Disk, stored.read "ws/descriptor.wsdl" = .ok [60, 47, 62] ∧
    ∀ g : Generator, (generate (offline id) g "file://here" ⟨"ws", "ws/src", "ws/bin"⟩ linked).2.1 =
      some ⟨⟨"file://here", "ws/descriptor.wsdl", "ws/src"⟩, stored⟩ := by
  have hread : (linked.read (filePath "file://here")).toOption = some [60, 47, 62] := by decide +kernel
  have hpath : Workspace.document ⟨"ws", "ws/src", "ws/bin"⟩ = "ws/descriptor.wsdl" := by decide +kernel
  have hwrite : (linked.write "ws/descriptor.wsdl" [60, 47, 62]).isOk = true := by decide +kernel
  cases course_of_generate (offline id) (by decide +kernel : isWebAddress "file://here" = false)
      ⟨"ws", "ws/src", "ws/bin"⟩ linked with
  | unread h =>
    rw [h] at hread
    cases hread
  | unstored h hfails =>
    obtain rfl := Option.some.inj ((Except.toOption_eq_some.2 h).symm.trans hread)
    rw [hpath] at hfails
    rw [hfails] at hwrite
    cases hwrite
  | called h hstores hkeeps hstored hgenerate =>
    obtain rfl := Option.some.inj ((Except.toOption_eq_some.2 h).symm.trans hread)
    rw [hpath] at hstored
    refine ⟨_, hstored, fun g => ?_⟩
    obtain ⟨result, hresult, -⟩ := hgenerate g
    rw [hresult, hpath]

end Description

end ServiceCall
