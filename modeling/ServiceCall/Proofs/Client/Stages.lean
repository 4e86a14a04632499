import ServiceCall.Proofs.Build.Scan
import ServiceCall.Proofs.Client.Collaborators
/-!
# The stages of making a client

A client is made of a prepared workspace in two steps: the description is retrieved
(`Description.retrieve`), and sources are generated, built and loaded (`Client.develop`). On twins
each stage ends in the same way, as long as it only looks at what shows (`Client.develop_twins`), and a
run of confined collaborators changes nothing but the document and what is below the two directories
of the workspace (`Client.develop_frame`, `Client.finish_frame`).
-/

namespace ServiceCall

open Disk (Twins Alike)

/-! ## Paths below a directory -/

namespace Path

variable {wd : Location} {dir p : Path} {names : List String} {l : Location}

/-- What a path names that goes on from a directory is named by the directory. -/
theorem names_of_foldl_join (h : ∀ n ∈ names, IsName n) (hl : (names.foldl join dir).Names wd l) :
    dir.Names wd l := by
  induction names generalizing dir with
  | nil => exact hl
  | cons n rest ih =>
    have hn := h n (.head _)
    obtain hway | hplace := ih (fun m hm => h m (.tail _ hm)) hl
    · exact names_of_mem_way_join hn hway
    · rw [place_join hn] at hplace
      exact .inr ((List.prefix_append ..).trans hplace)

end Path

/-- The sources that are found in a directory name nothing that the directory does not name. -/
theorem Build.names_of_scan {d : Disk} (h : d.WellFormed) {t : Toolchain} {dir : Path}
    {sources : List Path} (hscan : scan d t dir = .ok sources) {p : Path} (hp : p ∈ sources)
    {wd l : Location} (hl : p.Names wd l) : dir.Names wd l := by
  obtain ⟨names, hnames, rfl⟩ := exists_names_of_scan h hscan hp
  exact Path.names_of_foldl_join hnames hl

/-! ## Retrieving -/

section

variable {wd : Location} {hidden before after : Hiding} {d₁ d₂ : Disk}

/-- On twins the same is fetched from an address, if the file that it names shows. -/
theorem Description.fetch_twins (h : Twins wd hidden d₁ d₂) (web : Fetcher) {address : String}
    (haddress : isWebAddress address = false →
      ∀ l ∈ (filePath address).way wd, hidden.Shows l) :
    fetch web address d₁ = fetch web address d₂ := by
  unfold fetch
  split
  next => rfl
  next hweb => exact h.read (haddress (by simpa using hweb))

/-- On twins a description is retrieved in the same way, if its address and its place show. -/
theorem Description.retrieve_twins (h : Twins wd hidden d₁ d₂) (web : Fetcher) {address : String}
    {w : Workspace}
    (haddress : isWebAddress address = false →
      ∀ l ∈ (filePath address).way wd, hidden.Shows l)
    (hdocument : ∀ l ∈ w.document.way wd, hidden.Shows l) :
    (∃ e, retrieve web address w d₁ = .error e ∧ retrieve web address w d₂ = .error e) ∨
      ∃ s₁ s₂, retrieve web address w d₁ = .ok s₁ ∧ retrieve web address w d₂ = .ok s₂ ∧
        Twins wd hidden s₁ s₂ := by
  unfold retrieve
  rw [← fetch_twins h web haddress]
  cases fetch web address d₁ with
  | error e => exact .inl ⟨_, rfl, rfl⟩
  | ok content =>
    dsimp only
    obtain ⟨e, h₁, h₂⟩ | ⟨s₁, s₂, h₁, h₂, htwins⟩ := h.write hdocument content
    · rw [h₁, h₂]
      exact .inl ⟨_, rfl, rfl⟩
    · rw [h₁, h₂]
      exact .inr ⟨s₁, s₂, rfl, rfl, htwins⟩

/-! ## Building -/

namespace Build

theorem artifacts_of_verdict {outcome : CompileOutcome} {artifacts : List Path}
    (h : verdict outcome = .ok artifacts) : artifacts = outcome.artifacts := by
  unfold verdict at h
  split at h
  next => exact (Except.ok.inj h).symm
  next => cases h

/-- A build leaves the disk as the toolchain does, if it is run at all. -/
theorem run_disk (t : Toolchain) (includes : List Path) (sourceDir binaryDir : Path) (d : Disk) :
    (run t includes sourceDir binaryDir d).2.2 = match scan d t sourceDir with
      | .error _ | .ok [] => d
      | .ok sources => (t.compile (request sources sourceDir binaryDir includes) d).2 := by
  unfold run
  cases scan d t sourceDir with
  | error e => rfl
  | ok sources =>
    cases sources with
    | nil => rfl
    | cons source rest =>
      dsimp only
      rcases t.compile (request (source :: rest) sourceDir binaryDir includes) d with ⟨e | outcome, d'⟩
      · rfl
      · dsimp only
        split <;> rfl

/-- On twins the same sources are found, if they show. -/
theorem scan_twins (h : Twins wd hidden d₁ d₂) (t : Toolchain) {sourceDir : Path}
    (hsources : ∀ l, sourceDir.Names wd l → hidden.Shows l) :
    scan d₁ t sourceDir = scan d₂ t sourceDir := by
  refine scan_eq h.left h.right h.alike h.clear t ?_ ?_
  · rw [h.workingDirectory]
    exact fun l hl => hsources l (.inl hl)
  · rw [h.workingDirectory]
    exact fun l hl => hsources l (.inr hl)

/-- On twins a build ends in the same way, with artifacts that read the same, if the sources show and
the toolchain does the same. -/
theorem run_twins (h : Twins wd hidden d₁ d₂) (t : Toolchain) (includes : List Path)
    {sourceDir : Path} (binaryDir : Path) (hsources : ∀ l, sourceDir.Names wd l → hidden.Shows l)
    (ht : ∀ sources, scan d₁ t sourceDir = .ok sources →
      t.SameOn (request sources sourceDir binaryDir includes) d₁ d₂) :
    (run t includes sourceDir binaryDir d₁).1 = (run t includes sourceDir binaryDir d₂).1 ∧
      ∀ artifacts, (run t includes sourceDir binaryDir d₁).1 = .ok artifacts → ∀ p ∈ artifacts,
        (run t includes sourceDir binaryDir d₁).2.2.read p =
          (run t includes sourceDir binaryDir d₂).2.2.read p := by
  unfold run
  rw [← scan_twins h t hsources]
  cases hfound : scan d₁ t sourceDir with
  | error e => exact ⟨rfl, fun artifacts hartifacts => by cases hartifacts⟩
  | ok sources =>
    cases sources with
    | nil =>
      refine ⟨rfl, fun artifacts hartifacts p hp => ?_⟩
      obtain rfl := Except.ok.inj hartifacts
      exact absurd hp List.not_mem_nil
    | cons source rest =>
      obtain ⟨hreport, hread⟩ := ht _ hfound
      dsimp only
      generalize t.compile (request (source :: rest) sourceDir binaryDir includes) d₁ = r₁
        at hreport hread ⊢
      generalize t.compile (request (source :: rest) sourceDir binaryDir includes) d₂ = r₂
        at hreport hread ⊢
      obtain ⟨report, d₁'⟩ := r₁
      obtain ⟨_, d₂'⟩ := r₂
      obtain rfl : report = _ := hreport
      cases report with
      | error e => exact ⟨rfl, fun artifacts hartifacts => by cases hartifacts⟩
      | ok outcome =>
        dsimp only at hread ⊢
        cases hverdict : verdict outcome with
        | error e => exact ⟨rfl, fun artifacts hartifacts => by cases hartifacts⟩
        | ok artifacts =>
          refine ⟨rfl, fun artifacts' hartifacts p hp => ?_⟩
          obtain rfl := Except.ok.inj hartifacts
          exact hread outcome rfl p (artifacts_of_verdict hverdict ▸ hp)

end Build

/-! ## Loading -/

theorem Registry.addArtifacts_congr {artifacts : List Path}
    (h : ∀ p ∈ artifacts, d₁.read p = d₂.read p) (pool : Pool) :
    addArtifacts d₁ pool artifacts = addArtifacts d₂ pool artifacts := by
  induction artifacts generalizing pool with
  | nil => rfl
  | cons path rest ih =>
    rw [addArtifacts, addArtifacts, h path (.head _)]
    cases d₂.read path with
    | error e => rfl
    | ok bytes =>
      dsimp only
      cases pool.addSet bytes with
      | error e => rfl
      | ok next => exact ih (fun p hp => h p (.tail _ hp)) next

theorem Client.assemble_congr {World : Type} {artifacts : List Path}
    (h : ∀ p ∈ artifacts, d₁.read p = d₂.read p) (k : Collaborators World) (config : Configuration)
    (address : String) (w : Workspace) (model : Declarations) :
    assemble k config address w artifacts model d₁ =
      assemble k config address w artifacts model d₂ := by
  unfold assemble Registry.load
  rw [Registry.addArtifacts_congr h]

end

/-! ## From a prepared workspace -/

namespace Client

variable {World : Type}

/-- Generates, builds and loads what a stored description says: the client or an error, and the disk
after it. -/
def develop (k : Collaborators World) (config : Configuration) (address : String) (w : Workspace)
    (stored : Disk) : Except InitError (Client World) × Disk :=
  match k.generator (Description.request address w) stored with
  | (.error e, d) => (.error (.description (.ofGenerate address e)), d)
  | (.ok model, d) =>
    match Build.run k.toolchain config.includePaths w.sourceDir w.binaryDir d with
    | (.error e, _, d) => (.error (.build e), d)
    | (.ok artifacts, _, d) => (assemble k config address w artifacts model d, d)

/-- Makes a client in a prepared workspace. -/
def finish (k : Collaborators World) (config : Configuration) (address : String) (w : Workspace)
    (d : Disk) : Except InitError (Client World) × Disk :=
  match Description.retrieve k.web address w d with
  | .error e => (.error (.description e), d)
  | .ok stored => develop k config address w stored

/-- The client or the error, and the disk after it. -/
def outcome (k : Collaborators World) (config : Configuration) (address : String) (d : Disk) :
    Except InitError (Client World) × Disk :=
  ((init k config address d).1, (init k config address d).2.2)

theorem outcome_fst (k : Collaborators World) (config : Configuration) (address : String) (d : Disk) :
    (outcome k config address d).1 = (init k config address d).1 := by
  unfold outcome
  rfl

theorem outcome_eq (k : Collaborators World) (config : Configuration) (address : String) (d : Disk) :
    outcome k config address d = match Workspace.prepare d config.workspaceRoot address with
      | (.error e, d) => (.error (.workspace config.workspaceRoot e), d)
      | (.ok w, d) => finish k config address w d := by
  obtain ⟨web, generator, toolchain, host, factory⟩ := k
  unfold outcome init finish develop Description.generate
  obtain ⟨e | w, d₁⟩ := Workspace.prepare d config.workspaceRoot address
  · rfl
  · dsimp only
    cases Description.retrieve web address w d₁ with
    | error e => rfl
    | ok stored =>
      dsimp only
      generalize generator (Description.request address w) stored = generated
      obtain ⟨e | model, d₂⟩ := generated
      · rfl
      · dsimp only [Except.mapError]
        generalize Build.run toolchain config.includePaths w.sourceDir w.binaryDir d₂ = built
        obtain ⟨e | artifacts, steps, d₃⟩ := built <;> rfl

/-- Without links on the way to its directories a workspace is refused, or created and used. -/
theorem outcome_eq_ensure (k : Collaborators World) (config : Configuration) (address : String)
    {d : Disk}
    (hsources : d.LinkFree
      ((Workspace.locate config.workspaceRoot address).sourceDir.way d.workingDirectory))
    (hbinaries : d.LinkFree
      ((Workspace.locate config.workspaceRoot address).binaryDir.way d.workingDirectory)) :
    outcome k config address d = match Workspace.refusal? config.workspaceRoot address with
      | some e => (.error (.workspace config.workspaceRoot e), d)
      | none => match Workspace.ensure d config.workspaceRoot address with
        | (.error e, d) => (.error (.workspace config.workspaceRoot e), d)
        | (.ok (), d) =>
          finish k config address (Workspace.locate config.workspaceRoot address) d := by
  rw [outcome_eq, Workspace.prepare_eq hsources hbinaries]
  cases Workspace.refusal? config.workspaceRoot address with
  | some e => rfl
  | none =>
    dsimp only
    generalize Workspace.ensure d config.workspaceRoot address = ensured
    obtain ⟨e | _, d'⟩ := ensured <;> rfl

/-- From a prepared workspace the description is not retrieved, with the disk as it was, or it is
stored and used. -/
theorem finish_cases (k : Collaborators World) (config : Configuration) (address : String)
    (w : Workspace) (d : Disk) :
    (∃ e, finish k config address w d = (.error (.description e), d)) ∨
      ∃ content stored, Description.fetch k.web address d = .ok content ∧
        d.write w.document content = .ok stored ∧
        finish k config address w d = develop k config address w stored := by
  unfold finish Description.retrieve
  cases Description.fetch k.web address d with
  | error e => exact .inl ⟨_, rfl⟩
  | ok content =>
    dsimp only
    cases hwrite : d.write w.document content with
    | error e => exact .inl ⟨_, rfl⟩
    | ok stored => exact .inr ⟨content, stored, rfl, hwrite, rfl⟩

/-- From a disk without links a run goes on once its workspace is created. -/
theorem outcome_eq_finish {k : Collaborators World} {config : Configuration} {address : String}
    {d made : Disk} (hlinks : d.Linkless)
    (hrefused : Workspace.refusal? config.workspaceRoot address = none)
    (hmade : Workspace.ensure d config.workspaceRoot address = (.ok (), made)) :
    outcome k config address d =
      finish k config address (Workspace.locate config.workspaceRoot address) made := by
  rw [outcome_eq_ensure k config address (hlinks.linkFree _) (hlinks.linkFree _), hrefused, hmade]

/-- It fails if the workspace cannot be created. -/
theorem outcome_eq_error {k : Collaborators World} {config : Configuration} {address : String}
    {d made : Disk} {e : IoError} (hlinks : d.Linkless)
    (hrefused : Workspace.refusal? config.workspaceRoot address = none)
    (hmade : Workspace.ensure d config.workspaceRoot address = (.error e, made)) :
    outcome k config address d = (.error (.workspace config.workspaceRoot e), made) := by
  rw [outcome_eq_ensure k config address (hlinks.linkFree _) (hlinks.linkFree _), hrefused, hmade]

/-- Once there is a workspace nothing fails for the want of it. -/
theorem finish_ne_workspace (k : Collaborators World) (config : Configuration) (address : String)
    (w : Workspace) (d : Disk) (root : Path) (e : IoError) :
    (finish k config address w d).1 ≠ .error (.workspace root e) := by
  unfold finish develop assemble
  intro h
  repeat' split at h
  all_goals cases h

/-- The outcomes are the same, but for the reason why a workspace cannot be created below a root that
leads back. -/
def SameButReason (root : Path) (o₁ o₂ : Except InitError (Client World)) : Prop :=
  o₁ = o₂ ∨ ".." ∈ root.steps ∧
    ∃ e₁ e₂, o₁ = .error (.workspace root e₁) ∧ o₂ = .error (.workspace root e₂)

/-- A workspace that is created in the same way is used in the same way. -/
theorem outcome_of_ensure {k : Collaborators World} {config : Configuration} {address : String}
    {d₁ d₂ : Disk} (h₁ : d₁.Linkless) (h₂ : d₂.Linkless)
    (hrefused : Workspace.refusal? config.workspaceRoot address = none)
    (hcause : Disk.SameButCause (Workspace.ensure d₁ config.workspaceRoot address)
      (Workspace.ensure d₂ config.workspaceRoot address))
    (hnames : ".." ∉ config.workspaceRoot.steps →
      Workspace.ensure d₁ config.workspaceRoot address =
        Workspace.ensure d₂ config.workspaceRoot address) :
    SameButReason config.workspaceRoot (outcome k config address d₁).1
        (outcome k config address d₂).1 ∧
      (outcome k config address d₁).2 = (outcome k config address d₂).2 := by
  rw [outcome_eq_ensure k config address (h₁.linkFree _) (h₁.linkFree _),
    outcome_eq_ensure k config address (h₂.linkFree _) (h₂.linkFree _), hrefused]
  by_cases hback : ".." ∈ config.workspaceRoot.steps
  · generalize Workspace.ensure d₁ config.workspaceRoot address = r₁ at hcause ⊢
    generalize Workspace.ensure d₂ config.workspaceRoot address = r₂ at hcause ⊢
    obtain ⟨result₁, s₁⟩ := r₁
    obtain ⟨result₂, s₂⟩ := r₂
    obtain ⟨hresult, rfl : s₁ = s₂⟩ := hcause
    cases result₁ with
    | error e₁ =>
      cases result₂ with
      | error e₂ => exact ⟨.inr ⟨hback, e₁, e₂, rfl, rfl⟩, rfl⟩
      | ok _ => cases hresult
    | ok _ =>
      cases result₂ with
      | error e₂ => cases hresult
      | ok _ => exact ⟨.inl rfl, rfl⟩
  · rw [hnames hback]
    exact ⟨.inl rfl, rfl⟩

theorem develop_disk (k : Collaborators World) (config : Configuration) (address : String)
    (w : Workspace) (stored : Disk) :
    (develop k config address w stored).2 =
      match k.generator (Description.request address w) stored with
      | (.error _, d) => d
      | (.ok _, d) => (Build.run k.toolchain config.includePaths w.sourceDir w.binaryDir d).2.2 := by
  unfold develop
  generalize k.generator (Description.request address w) stored = generated
  obtain ⟨e | model, d⟩ := generated
  · rfl
  · dsimp only
    generalize Build.run k.toolchain config.includePaths w.sourceDir w.binaryDir d = built
    obtain ⟨e | artifacts, steps, d'⟩ := built <;> rfl

/-! ## On twins -/

section

variable {wd : Location} {hidden before after : Hiding} {d₁ d₂ : Disk} {k : Collaborators World}
  {config : Configuration} {address : String} {w : Workspace}

/-- On twins sources are generated, built and loaded in the same way, if the generator and the
toolchain do the same. -/
theorem develop_twins (h : Twins wd before d₁ d₂)
    (hgenerator : k.generator.Overlooks wd before after (Description.request address w))
    (hsources : ∀ l, w.sourceDir.Names wd l → after.Shows l)
    (htoolchain : ∀ d₁ d₂ sources, Twins wd after d₁ d₂ →
      Build.scan d₁ k.toolchain w.sourceDir = .ok sources →
        k.toolchain.SameOn (Build.request sources w.sourceDir w.binaryDir config.includePaths) d₁ d₂) :
    (develop k config address w d₁).1 = (develop k config address w d₂).1 := by
  obtain ⟨hreport, htwins⟩ := hgenerator d₁ d₂ h
  unfold develop
  generalize k.generator (Description.request address w) d₁ = r₁ at hreport htwins ⊢
  generalize k.generator (Description.request address w) d₂ = r₂ at hreport htwins ⊢
  obtain ⟨report, e₁⟩ := r₁
  obtain ⟨_, e₂⟩ := r₂
  obtain rfl : report = _ := hreport
  cases report with
  | error e => rfl
  | ok model =>
    obtain ⟨hverdict, hread⟩ := Build.run_twins htwins k.toolchain config.includePaths w.binaryDir
      hsources fun sources => htoolchain e₁ e₂ sources htwins
    dsimp only at hverdict hread ⊢
    generalize Build.run k.toolchain config.includePaths w.sourceDir w.binaryDir e₁ = b₁
      at hverdict hread ⊢
    generalize Build.run k.toolchain config.includePaths w.sourceDir w.binaryDir e₂ = b₂
      at hverdict hread ⊢
    obtain ⟨built, steps₁, f₁⟩ := b₁
    obtain ⟨_, steps₂, f₂⟩ := b₂
    obtain rfl : built = _ := hverdict
    cases built with
    | error e => rfl
    | ok artifacts => exact assemble_congr (hread artifacts rfl) k config address w model

/-- On twins that a generator takes to twins but for the binaries, a client is made in the same way
if the toolchain overlooks them. -/
theorem develop_of_overlooks {kind : Option Entry → Prop} {root : Path}
    (hroot : ∀ l ∈ root.way wd, ¬ (Workspace.locate root address).binaryDir.Inside wd l)
    (hincludes : ∀ l, Path.Name wd config.includePaths l →
      ¬ (Workspace.locate root address).binaryDir.Inside wd l)
    (hgenerator : k.generator.Overlooks wd before
      (fun l e => (Workspace.locate root address).binaryDir.Inside wd l ∧ kind e)
      (Description.request address (Workspace.locate root address)))
    (htoolchain : k.toolchain.IgnoresOutput kind) (h : Twins wd before d₁ d₂) :
    (develop k config address (Workspace.locate root address) d₁).1 =
      (develop k config address (Workspace.locate root address) d₂).1 := by
  have hsources (l : Location) (hl : (Workspace.locate root address).sourceDir.Names wd l) :
      ¬ (Workspace.locate root address).binaryDir.Inside wd l :=
    Workspace.not_inside_binaryDir_of_names_sourceDir hroot hl
  refine develop_twins h hgenerator (fun l hl e hhidden => hsources l hl hhidden.1)
    fun e₁ e₂ sources htwins hscan => htoolchain wd _ e₁ e₂ ?_
  refine htwins.mono fun l e hhidden => ⟨hhidden.1, fun hname => ?_, hhidden.2⟩
  obtain hl | ⟨p, hp, hl⟩ | hl := CompileRequest.name_inputs hname
  · exact hsources l hl hhidden.1
  · exact hsources l (Build.names_of_scan htwins.left hscan hp hl) hhidden.1
  · exact hincludes l hl hhidden.1

/-- What holds of two runs from a stored description, if it holds of runs on twins, holds of them
from prepared workspaces that are twins. -/
theorem finish_twins {R : Except InitError (Client World) × Disk →
      Except InitError (Client World) × Disk → Prop} (h : Twins wd hidden d₁ d₂)
    (haddress : Description.isWebAddress address = false →
      ∀ l ∈ (Description.filePath address).way wd, hidden.Shows l)
    (hdocument : ∀ l ∈ w.document.way wd, hidden.Shows l)
    (herror : ∀ e, R (.error e, d₁) (.error e, d₂))
    (hdevelop : ∀ s₁ s₂, Twins wd hidden s₁ s₂ →
      R (develop k config address w s₁) (develop k config address w s₂)) :
    R (finish k config address w d₁) (finish k config address w d₂) := by
  unfold finish
  obtain ⟨e, h₁, h₂⟩ | ⟨s₁, s₂, h₁, h₂, htwins⟩ :=
    Description.retrieve_twins h k.web haddress hdocument
  · rw [h₁, h₂]
    exact herror _
  · rw [h₁, h₂]
    exact hdevelop s₁ s₂ htwins

/-- What holds of two runs from a workspace, if it holds of runs from prepared workspaces that are
twins, holds of them on twins. -/
theorem outcome_twins {R : Except InitError (Client World) × Disk →
      Except InitError (Client World) × Disk → Prop} (h : Twins wd hidden d₁ d₂)
    (hshown : Workspace.Shown hidden wd config.workspaceRoot address)
    (herror : ∀ e s₁ s₂, Twins wd hidden s₁ s₂ → R (.error e, s₁) (.error e, s₂))
    (hfinish : ∀ s₁ s₂, Twins wd hidden s₁ s₂ →
      R (finish k config address (Workspace.locate config.workspaceRoot address) s₁)
        (finish k config address (Workspace.locate config.workspaceRoot address) s₂)) :
    R (outcome k config address d₁) (outcome k config address d₂) := by
  obtain ⟨hresult, htwins⟩ := Workspace.twins_ensure h hshown
  rw [outcome_eq_ensure k config address (h.linkFree hshown.way_sourceDir)
      (h.linkFree hshown.way_binaryDir),
    outcome_eq_ensure k config address (h.symm.linkFree hshown.way_sourceDir)
      (h.symm.linkFree hshown.way_binaryDir)]
  cases Workspace.refusal? config.workspaceRoot address with
  | some e => exact herror _ _ _ h
  | none =>
    dsimp only
    generalize Workspace.ensure d₁ config.workspaceRoot address = r₁ at hresult htwins ⊢
    generalize Workspace.ensure d₂ config.workspaceRoot address = r₂ at hresult htwins ⊢
    obtain ⟨result, s₁⟩ := r₁
    obtain ⟨_, s₂⟩ := r₂
    obtain rfl : result = _ := hresult
    cases result with
    | error e => exact herror _ _ _ htwins
    | ok _ => exact hfinish s₁ s₂ htwins

end

/-! ## What is left as it was -/

section

variable {kind : Option Entry → Prop} {d stored : Disk} {k : Collaborators World}
  {config : Configuration} {address : String} {w : Workspace}

/-- What a run may change after the description is stored. -/
def leftovers (wd : Location) (w : Workspace) (kind : Option Entry → Prop) : Hiding :=
  fun l e => w.sourceDir.Inside wd l ∨ w.binaryDir.Inside wd l ∧ kind e

/-- Confined collaborators change nothing but what is below the two directories. -/
theorem develop_frame (config : Configuration) (address : String) (hgenerator : k.generator.Confined) (htoolchain : k.toolchain.Confined kind)
    (h : d.WellFormed) (hsources : d.LinklessAt (w.sourceDir.Names d.workingDirectory))
    (hbinaries : d.LinklessAt (w.binaryDir.Names d.workingDirectory))
    (hapart : ∀ l, w.binaryDir.Names d.workingDirectory l →
      ¬ w.sourceDir.Inside d.workingDirectory l) :
    (develop k config address w d).2.WellFormed ∧
      Alike (leftovers d.workingDirectory w kind) d (develop k config address w d).2 := by
  obtain ⟨hwell, hinside⟩ := hgenerator (Description.request address w) d h hsources
  rw [develop_disk]
  generalize k.generator (Description.request address w) d = r at hwell hinside ⊢
  obtain ⟨report, d'⟩ := r
  have halike : Alike (leftovers d.workingDirectory w kind) d d' := hinside.mono fun l e => .inl
  have hrun (sources : List Path) :
      let r := k.toolchain.compile
        (Build.request sources w.sourceDir w.binaryDir config.includePaths) d'
      r.2.WellFormed ∧ Alike (leftovers d.workingDirectory w kind) d r.2 := by
    have hlinks : d'.LinklessAt (w.binaryDir.Names d'.workingDirectory) := by
      rw [← hinside.workingDirectory]
      intro l t hl hlink
      rw [← hinside.lookup_of_shows (Hiding.shows_at.2 (hapart l hl))] at hlink
      exact hbinaries l t hl hlink
    obtain ⟨hwell', hinside'⟩ :=
      htoolchain (Build.request sources w.sourceDir w.binaryDir config.includePaths) d' hwell hlinks
    rw [← hinside.workingDirectory] at hinside'
    exact ⟨hwell', halike.trans (hinside'.mono fun l e => .inr)⟩
  cases report with
  | error e => exact ⟨hwell, halike⟩
  | ok model =>
    dsimp only
    rw [Build.run_disk]
    split
    · exact ⟨hwell, halike⟩
    · exact ⟨hwell, halike⟩
    · exact hrun _

/-- Storing a description changes nothing but its place, and makes no link. -/
theorem stored_frame (h : d.WellFormed) (hlinks : d.Linkless) {content : Bytes}
    (hwrite : d.write w.document content = .ok stored) :
    stored.WellFormed ∧ stored.Linkless ∧
      Alike (Hiding.at (w.document.place d.workingDirectory = ·)) d stored := by
  have hdocument := hlinks.linkFree (w.document.way d.workingDirectory)
  refine ⟨h.write hdocument hwrite, fun l => ?_, ?_⟩
  · exact h.linkFree_write hdocument hwrite (hlinks.linkFree [l]) l (.head _)
  · obtain ⟨l, n, hplace, -, -, -, rfl⟩ := h.of_write hdocument hwrite
    rw [hplace]
    exact .of_lookup rfl fun l' hl' => (Disk.lookup_set_of_ne d (Ne.symm hl') _).symm

/-- What a run in a prepared workspace may change. -/
def Touched (wd : Location) (w : Workspace) (l : Location) : Prop :=
  w.document.place wd = l ∨ w.sourceDir.Inside wd l ∨ w.binaryDir.Inside wd l

theorem touched_of_leftovers {wd l : Location} {e : Option Entry} (h : leftovers wd w kind l e) :
    Touched wd w l :=
  .inr (h.imp id And.left)

theorem inside_root_of_touched {wd l : Location} {root : Path}
    (h : Touched wd (Workspace.locate root address) l) :
    (Workspace.locate root address).root.Inside wd l := by
  obtain h | h | h := h
  · exact Workspace.inside_root_of_document h
  · exact Workspace.inside_root_of_sourceDir h
  · exact Workspace.inside_root_of_binaryDir h

/-- The directories of a workspace are not touched, unless the root leads through what is below. -/
theorem shown_touched {wd : Location} {root : Path}
    (hroot : ∀ l ∈ root.way wd, ¬ (Workspace.locate root address).root.Inside wd l) :
    Workspace.Shown (Hiding.at (Touched wd (Workspace.locate root address))) wd root address := by
  have hplace {n : String} (hn : IsName n) (hne : n ≠ Workspace.documentName) :
      (Workspace.locate root address).document.place wd ≠
        Workspace.location wd root address ++ [n] := by
    rw [Workspace.document_eq, Workspace.place_join_root Workspace.isName_documentName]
    exact fun heq => hne (List.singleton_inj.1 (List.append_cancel_left heq)).symm
  refine ⟨fun l hl => Hiding.shows_at.2 fun h => hroot l hl (inside_root_of_touched h),
    Hiding.shows_at.2 fun h => (inside_root_of_touched h).2 Workspace.place_root,
    Hiding.shows_at.2 ?_, Hiding.shows_at.2 ?_⟩
  · have hsources : (Workspace.locate root address).sourceDir.place wd =
        Workspace.location wd root address ++ [Workspace.sourceName] := Workspace.place_sourceDir
    rintro (h | h | h)
    · exact hplace Workspace.isName_sourceName (by decide) h
    · exact h.2 hsources
    · exact Workspace.not_inside_binaryDir_of_names_sourceDir
        (fun l hl hinside => hroot l hl (Workspace.inside_root_of_binaryDir hinside))
        (.inr (hsources ▸ List.prefix_refl _)) h
  · have hbinaries : (Workspace.locate root address).binaryDir.place wd =
        Workspace.location wd root address ++ [Workspace.binaryName] := Workspace.place_binaryDir
    rintro (h | h | h)
    · exact hplace Workspace.isName_binaryName (by decide) h
    · exact Workspace.not_inside_sourceDir_of_names_binaryDir
        (fun l hl hinside => hroot l hl (Workspace.inside_root_of_sourceDir hinside))
        (.inr (hbinaries ▸ List.prefix_refl _)) h
    · exact h.2 hbinaries

/-- What may be touched later is not there because the workspace was prepared. -/
theorem lookup_ensure_of_touched {root : Path} (hroot : ∀ l ∈ root.way d.workingDirectory,
      ¬ (Workspace.locate root address).root.Inside d.workingDirectory l) {l : Location}
    (hl : Touched d.workingDirectory (Workspace.locate root address) l) :
    (Workspace.ensure d root address).2.lookup l = d.lookup l := by
  have hshown := shown_touched hroot
  have hne {l' : Location} (hl' : (Hiding.at (Touched d.workingDirectory
      (Workspace.locate root address))).Shows l') : l ≠ l' :=
    fun heq => Hiding.shows_at.1 hl' (heq ▸ hl)
  exact Workspace.lookup_ensure (fun hmem => hne (hshown.way l hmem) rfl) (hne hshown.directory)
    (hne hshown.sources) (hne hshown.binaries)

end

end Client

end ServiceCall
