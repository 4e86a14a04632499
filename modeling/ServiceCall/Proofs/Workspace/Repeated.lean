import ServiceCall.Proofs.Disk.Growth
import ServiceCall.Proofs.Workspace.Prepare
/-!
# Preparing workspaces again and again

Preparing a workspace leaves everything that is there as it is (`Workspace.grows_prepare`), and adds
directories on the way to its two directories and nothing else
(`Workspace.leadsThrough_prepare`). Where both are there nothing is done
(`Workspace.prepare_of_isDirectory`), so a workspace that was prepared stays so, whatever other ones
are prepared after it, or fail to be (`Workspace.prepares_of_prepare`).
-/

namespace ServiceCall.Workspace

variable {d made : Disk} {root : Path} {address : String} {w : Workspace}

/-! ## What is added -/

/-- Preparing a workspace creates the directory of sources and, if that was created, that of
binaries. -/
theorem prepare_cases (d : Disk) (root : Path) (address : String) :
    (∃ e d₁, d.createDirectories (locate root address).sourceDir = (.error e, d₁) ∧
      prepare d root address = (.error e, d₁)) ∨
    ∃ d₁, d.createDirectories (locate root address).sourceDir = (.ok (), d₁) ∧
      prepare d root address =
        ((d₁.createDirectories (locate root address).binaryDir).1.map fun _ => locate root address,
          (d₁.createDirectories (locate root address).binaryDir).2) := by
  unfold prepare
  generalize locate root address = l
  dsimp only
  rcases hsources : d.createDirectories l.sourceDir with ⟨e | _, d₁⟩
  · exact .inl ⟨e, d₁, rfl, rfl⟩
  · refine .inr ⟨d₁, rfl, ?_⟩
    dsimp only
    rcases d₁.createDirectories l.binaryDir with ⟨e | _, d₂⟩ <;> rfl

/-- A root is refused, or a workspace below it is prepared from its steps. -/
theorem prepare_eq_makeDirectories : prepare d root address = match refusal? root address with
    | some e => (.error e, d)
    | none =>
      let made := Disk.andThen
        (d.makeDirectories (root.base d.workingDirectory) (stepsTo root address sourceName).reverse)
        fun d₁ =>
          d₁.makeDirectories (root.base d.workingDirectory) (stepsTo root address binaryName).reverse
      (made.1.map fun _ => locate root address, made.2) := by
  have hcreate {n : String} (hn : IsName n) (d : Disk) :
      d.createDirectories (Path.join (locate root address).root n) =
        match (Path.join (locate root address).root n).refusal? with
        | some e => (.error e, d)
        | none => d.makeDirectories (root.base d.workingDirectory) (stepsTo root address n).reverse := by
    rw [Disk.createDirectories_eq_makeDirectories, base_join_root hn, steps_join_root hn]
    rfl
  have hsources := hcreate isName_sourceName d
  rw [← sourceDir_eq, ← refusal?] at hsources
  have hbinaries := hcreate isName_binaryName
  rw [← binaryDir_eq, refusal?_binaryDir] at hbinaries
  have hgrows := d.grows_createDirectories (locate root address).sourceDir
  obtain ⟨e, d₁, hfirst, hprepare⟩ | ⟨d₁, hfirst, hprepare⟩ := prepare_cases d root address
  · rw [hprepare]
    rw [hsources] at hfirst
    cases hrefused : refusal? root address with
    | some e' =>
      rw [hrefused] at hfirst
      obtain ⟨he, rfl⟩ := Prod.mk.inj hfirst
      rw [Except.error.inj he]
    | none =>
      rw [hrefused] at hfirst
      dsimp only at hfirst ⊢
      rw [hfirst]
      rfl
  · rw [hfirst] at hgrows
    have hwd : d₁.workingDirectory = d.workingDirectory := hgrows.workingDirectory
    rw [hprepare, hbinaries, hwd]
    rw [hsources] at hfirst
    cases hrefused : refusal? root address with
    | some e =>
      rw [hrefused] at hfirst
      cases hfirst
    | none =>
      rw [hrefused] at hfirst
      dsimp only at hfirst ⊢
      rw [hfirst]
      rfl

/-- Nothing that is there changes, whether a workspace can be prepared or not. -/
theorem grows_prepare (d : Disk) (root : Path) (address : String) :
    Disk.Grows d (prepare d root address).2 := by
  have hsources := d.grows_createDirectories (locate root address).sourceDir
  obtain ⟨e, d₁, hfirst, hprepare⟩ | ⟨d₁, hfirst, hprepare⟩ := prepare_cases d root address
  · rw [hfirst] at hsources
    rw [hprepare]
    exact hsources
  · rw [hfirst] at hsources
    rw [hprepare]
    exact hsources.trans (d₁.grows_createDirectories _)

/-- What is added leads to one of the two directories. -/
theorem leadsThrough_prepare {l : Location} (hnone : d.lookup l = none)
    (hsome : (prepare d root address).2.lookup l ≠ none) :
    (prepare d root address).2.LeadsThrough (locate root address).sourceDir l ∨
      (prepare d root address).2.LeadsThrough (locate root address).binaryDir l := by
  have hsources := Disk.leadsThrough_createDirectories (p := (locate root address).sourceDir) hnone
  obtain ⟨e, d₁, hfirst, hprepare⟩ | ⟨d₁, hfirst, hprepare⟩ := prepare_cases d root address
  · rw [hfirst] at hsources
    rw [hprepare] at hsome ⊢
    exact .inl (hsources hsome)
  · rw [hfirst] at hsources
    rw [hprepare] at hsome ⊢
    by_cases hmissing : d₁.lookup l = none
    · have hbinaries := Disk.leadsThrough_createDirectories
        (p := (locate root address).binaryDir) hmissing
      exact .inr (hbinaries hsome)
    · exact .inl ((hsources hmissing).keeps (d₁.grows_createDirectories _).keeps)

/-! ## Workspaces that are there -/

theorem parts_join_root {n : String} (hn : IsName n) :
    Disk.parts (Path.join (locate root address).root n) =
      (Path.join (locate root address).root n).steps := by
  rw [Path.parts_join hn, Path.steps_join hn]

theorem steps_join_root_ne_nil {n : String} (hn : IsName n) :
    (Path.join (locate root address).root n).steps ≠ [] := by
  rw [Path.steps_join hn]
  simp

/-- A workspace that is prepared has both directories. -/
theorem isDirectory_of_prepare (h : prepare d root address = (.ok w, made)) :
    made.isDirectory w.sourceDir = true ∧ made.isDirectory w.binaryDir = true := by
  obtain rfl := prepare_eq_locate h
  have hmade {n : String} (hn : IsName n) {d made : Disk}
      (h : d.createDirectories (Path.join (locate root address).root n) = (.ok (), made)) :
      Disk.Keeps d made ∧ made.isDirectory (Path.join (locate root address).root n) = true :=
    Disk.isDirectory_createDirectories (parts_join_root hn) (steps_join_root_ne_nil hn) h
  obtain ⟨e, d₁, -, hprepare⟩ | ⟨d₁, hsources, hprepare⟩ := prepare_cases d root address
  · rw [hprepare] at h
    cases h
  · rw [hprepare] at h
    rcases hbinaries : d₁.createDirectories (locate root address).binaryDir with ⟨e | _, d₂⟩
    · rw [hbinaries] at h
      cases h
    · rw [hbinaries] at h
      obtain rfl : d₂ = made := congrArg Prod.snd h
      rw [sourceDir_eq] at hsources ⊢
      rw [binaryDir_eq] at hbinaries ⊢
      obtain ⟨hkeeps, hbinaries⟩ := hmade isName_binaryName hbinaries
      exact ⟨hkeeps.isDirectory (hmade isName_sourceName hsources).2, hbinaries⟩

/-- Nothing is done for a workspace whose directories are there. -/
theorem prepare_of_isDirectory (hsources : d.isDirectory (locate root address).sourceDir = true)
    (hbinaries : d.isDirectory (locate root address).binaryDir = true) :
    prepare d root address = (.ok (locate root address), d) := by
  have hthere {n : String} (hn : IsName n)
      (h : d.isDirectory (Path.join (locate root address).root n) = true) :
      d.createDirectories (Path.join (locate root address).root n) = (.ok (), d) :=
    Disk.createDirectories_of_isDirectory (parts_join_root hn) (steps_join_root_ne_nil hn) h
  rw [sourceDir_eq] at hsources
  rw [binaryDir_eq] at hbinaries
  have hfirst := hthere isName_sourceName hsources
  have hsecond := hthere isName_binaryName hbinaries
  rw [← sourceDir_eq] at hfirst
  rw [← binaryDir_eq] at hsecond
  obtain ⟨e, d₁, hfailed, -⟩ | ⟨d₁, hmade, hprepare⟩ := prepare_cases d root address
  · rw [hfirst] at hfailed
    cases hfailed
  · rw [hfirst] at hmade
    obtain rfl : d = d₁ := congrArg Prod.snd hmade
    rw [hprepare, hsecond]
    rfl

/-! ## One workspace after the other -/

/-- The disk once workspaces for some roots and addresses were prepared, or could not be. -/
def prepareAll (d : Disk) (others : List (Path × String)) : Disk :=
  others.foldl (fun d other => (prepare d other.1 other.2).2) d

theorem prepareAll_cons (d : Disk) (other : Path × String) (rest : List (Path × String)) :
    prepareAll d (other :: rest) = prepareAll (prepare d other.1 other.2).2 rest := by
  rw [prepareAll, prepareAll, List.foldl_cons]

theorem grows_prepareAll (d : Disk) (others : List (Path × String)) :
    Disk.Grows d (prepareAll d others) := by
  induction others generalizing d with
  | nil => exact .refl d
  | cons other rest ih =>
    rw [prepareAll_cons]
    exact (grows_prepare d other.1 other.2).trans (ih _)

/-- How things stand once a workspace was prepared. -/
structure Prepares (d made : Disk) (root : Path) (address : String) (w : Workspace) : Prop where
  located : w = locate root address
  sources : made.isDirectory w.sourceDir = true
  binaries : made.isDirectory w.binaryDir = true
  added : ∀ l e, d.lookup l = none → made.lookup l = some e →
    e = .directory ∧ (made.LeadsThrough w.sourceDir l ∨ made.LeadsThrough w.binaryDir l)
  again : ∀ others, prepare (prepareAll made others) root address = (.ok w, prepareAll made others)

/-- Preparing a workspace changes nothing that is there, whether it succeeds or fails; and where it
succeeds, it adds what leads to the two directories, and has nothing more to do ever after. -/
theorem prepares_of_prepare {r : Except IoError Workspace}
    (h : prepare d root address = (r, made)) :
    (made.workingDirectory = d.workingDirectory ∧
      ∀ l e, d.lookup l = some e → made.lookup l = some e) ∧
    ∀ w, r = .ok w → Prepares d made root address w := by
  have hgrows := grows_prepare d root address
  have hleads {l : Location} (hnone : d.lookup l = none)
      (hsome : (prepare d root address).2.lookup l ≠ none) := leadsThrough_prepare hnone hsome
  rw [h] at hgrows hleads
  refine ⟨⟨hgrows.workingDirectory, fun l e => hgrows.kept⟩, ?_⟩
  rintro w rfl
  obtain ⟨hsources, hbinaries⟩ := isDirectory_of_prepare h
  obtain rfl := prepare_eq_locate h
  refine ⟨rfl, hsources, hbinaries, fun l e hnone hsome => ⟨?_, ?_⟩, fun others => ?_⟩
  · obtain hsame | ⟨-, hdirectory⟩ := hgrows.lookup l
    · rw [hsame, hnone] at hsome
      cases hsome
    · exact Option.some.inj (hsome.symm.trans hdirectory)
  · exact hleads hnone (by simp [hsome])
  · have hkeeps := (grows_prepareAll made others).keeps
    exact prepare_of_isDirectory (hkeeps.isDirectory hsources) (hkeeps.isDirectory hbinaries)

/-- A disk with a link to a directory, in which a file stands. -/
def linked : Disk where
  workingDirectory := ["home"]
  entries := [(["home"], .directory), (["home", "store"], .link "/data/../data"),
    (["data"], .directory), (["data", "old"], .file [] false)]

/-- Below a root that leads through the link, and back from a directory that is not there. -/
theorem prepares_linked : ∃ w made,
    prepare linked "store/x/../ws" "http://a" = (.ok w, made) ∧
      Prepares linked made "store/x/../ws" "http://a" w := by
  have hrefused : refusal? "store/x/../ws" "http://a" = none := by
    rw [refusal?, sourceDir_eq]
    exact refusal?_join_root_eq_none isName_sourceName (by decide) (by decide) (by decide)
  have hok : (prepare linked "store/x/../ws" "http://a").1.isOk = true := by
    rw [prepare_eq_makeDirectories, hrefused, stepsTo, stepsTo, endpointKey_a]
    decide +kernel
  rcases hprepare : prepare linked "store/x/../ws" "http://a" with ⟨_ | w, made⟩
  · rw [hprepare] at hok
    cases hok
  · exact ⟨w, made, rfl, (prepares_of_prepare hprepare).2 w rfl⟩

end ServiceCall.Workspace
