import ServiceCall.Proofs.Workspace.Layout
/-!
# Preparing a workspace

Preparing a workspace creates its directory and two directories in it, after the missing ones above
(`Workspace.prepare_eq`). What an attempt leaves, its own or one for another endpoint below the same
root, does not change how a later one ends (`Workspace.ensure_again`, `Workspace.ensure_ensureRoot`),
except for the cause of a failure where the root leads back.
-/

namespace ServiceCall

open Location (resolve passed)

namespace Workspace

variable {d d' d₁ d₂ : Disk} {hidden : Hiding} {root : Path} {address n : String}

theorem isName_sourceName : IsName sourceName := by decide

theorem isName_binaryName : IsName binaryName := by decide

theorem isName_documentName : IsName documentName := by decide

theorem sourceDir_eq (root : Path) (address : String) :
    (locate root address).sourceDir = Path.join (locate root address).root sourceName := by
  rw [locate, sourceName]

theorem binaryDir_eq (root : Path) (address : String) :
    (locate root address).binaryDir = Path.join (locate root address).root binaryName := by
  rw [locate, binaryName]

theorem document_eq (root : Path) (address : String) :
    (locate root address).document = Path.join (locate root address).root documentName := by
  rw [document, documentName]

section

variable {wd l : Location}

theorem place_sourceDir : (locate root address).sourceDir.place wd =
    location wd root address ++ [sourceName] := by
  rw [sourceDir_eq, place_join_root isName_sourceName]

theorem place_binaryDir : (locate root address).binaryDir.place wd =
    location wd root address ++ [binaryName] := by
  rw [binaryDir_eq, place_join_root isName_binaryName]

theorem place_document : (locate root address).document.place wd =
    location wd root address ++ [documentName] := by
  rw [document_eq, place_join_root isName_documentName]

theorem names_sourceDir : (locate root address).sourceDir.Names wd l ↔ l ∈ root.way wd ∨
    l = location wd root address ∨ location wd root address ++ [sourceName] <+: l := by
  rw [sourceDir_eq, names_join_root isName_sourceName]

/-- Sources and the way to them are apart from what is below the binaries. -/
theorem not_inside_binaryDir_of_names_sourceDir
    (hroot : ∀ l ∈ root.way wd, ¬ (locate root address).binaryDir.Inside wd l)
    (hl : (locate root address).sourceDir.Names wd l) :
    ¬ (locate root address).binaryDir.Inside wd l := by
  rw [binaryDir_eq] at hroot ⊢
  rw [sourceDir_eq] at hl
  exact not_inside_of_names isName_sourceName isName_binaryName (by decide) hroot hl

/-- Binaries and the way to them are apart from what is below the sources. -/
theorem not_inside_sourceDir_of_names_binaryDir
    (hroot : ∀ l ∈ root.way wd, ¬ (locate root address).sourceDir.Inside wd l)
    (hl : (locate root address).binaryDir.Names wd l) :
    ¬ (locate root address).sourceDir.Inside wd l := by
  rw [sourceDir_eq] at hroot ⊢
  rw [binaryDir_eq] at hl
  exact not_inside_of_names isName_binaryName isName_sourceName (by decide) hroot hl

/-- The document and the way to it are apart from what is below the binaries. -/
theorem not_inside_binaryDir_of_names_document
    (hroot : ∀ l ∈ root.way wd, ¬ (locate root address).binaryDir.Inside wd l)
    (hl : (locate root address).document.Names wd l) :
    ¬ (locate root address).binaryDir.Inside wd l := by
  rw [binaryDir_eq] at hroot ⊢
  rw [document_eq] at hl
  exact not_inside_of_names isName_documentName isName_binaryName (by decide) hroot hl

/-- The document and the way to it are apart from what is below the sources. -/
theorem not_inside_sourceDir_of_names_document
    (hroot : ∀ l ∈ root.way wd, ¬ (locate root address).sourceDir.Inside wd l)
    (hl : (locate root address).document.Names wd l) :
    ¬ (locate root address).sourceDir.Inside wd l := by
  rw [sourceDir_eq] at hroot ⊢
  rw [document_eq] at hl
  exact not_inside_of_names isName_documentName isName_sourceName (by decide) hroot hl

theorem inside_root_of_sourceDir (hl : (locate root address).sourceDir.Inside wd l) :
    (locate root address).root.Inside wd l := by
  rw [sourceDir_eq] at hl
  exact inside_root isName_sourceName hl.1

theorem inside_root_of_binaryDir (hl : (locate root address).binaryDir.Inside wd l) :
    (locate root address).root.Inside wd l := by
  rw [binaryDir_eq] at hl
  exact inside_root isName_binaryName hl.1

theorem inside_root_of_document (hl : (locate root address).document.place wd = l) :
    (locate root address).root.Inside wd l := by
  rw [document_eq] at hl
  exact inside_root isName_documentName (hl ▸ List.prefix_refl _)

theorem isPrefix_location (hl : (locate root address).root.Inside wd l) :
    location wd root address <+: l :=
  place_root ▸ hl.1

end

/-- Nothing is hidden where the root leads through and at the directories of a workspace. -/
structure Shown (hidden : Hiding) (wd : Location) (root : Path) (address : String) : Prop where
  way : ∀ l ∈ root.way wd, hidden.Shows l
  directory : hidden.Shows (location wd root address)
  sources : hidden.Shows (location wd root address ++ [sourceName])
  binaries : hidden.Shows (location wd root address ++ [binaryName])

theorem Shown.way_join {wd : Location} (h : Shown hidden wd root address) (hn : IsName n)
    (hshows : hidden.Shows (location wd root address ++ [n])) :
    ∀ l ∈ (Path.join (locate root address).root n).way wd, hidden.Shows l := by
  intro l hl
  rw [way_join_root hn, List.mem_append, List.mem_pair] at hl
  obtain hl | rfl | rfl := hl
  · exact h.way l hl
  · exact h.directory
  · exact hshows

theorem Shown.way_sourceDir {wd : Location} (h : Shown hidden wd root address) :
    ∀ l ∈ (locate root address).sourceDir.way wd, hidden.Shows l := by
  have hway := h.way_join isName_sourceName h.sources
  rwa [sourceDir_eq]

theorem Shown.way_binaryDir {wd : Location} (h : Shown hidden wd root address) :
    ∀ l ∈ (locate root address).binaryDir.way wd, hidden.Shows l := by
  have hway := h.way_join isName_binaryName h.binaries
  rwa [binaryDir_eq]

/-! ## Two directories below the root -/

/-- The steps to a directory of an endpoint. -/
def stepsTo (root : Path) (address n : String) : List String :=
  root.steps ++ [endpointKey address, n]

theorem dot_not_mem_stepsTo (root : Path) (address : String) (hn : IsName n) :
    "." ∉ stepsTo root address n := by
  rw [stepsTo, List.mem_append, List.mem_pair, not_or, not_or]
  exact ⟨Path.dot_not_mem_steps root, Ne.symm (isName_endpointKey address).2.1, Ne.symm hn.2.1⟩

theorem isName_or_back_of_mem_stepsTo (root : Path) (address : String) (hn : IsName n) :
    ∀ s ∈ stepsTo root address n, s = ".." ∧ s ∈ root.steps ∨ IsName s := by
  intro s hs
  rw [stepsTo, List.mem_append, List.mem_pair] at hs
  obtain hs | rfl | rfl := hs
  · by_cases hback : s = ".."
    · exact .inl ⟨hback, hs⟩
    · exact .inr (Path.isName_of_mem_steps hs hback)
  · exact .inr (isName_endpointKey address)
  · exact .inr hn

theorem passed_stepsTo (wd : Location) (root : Path) (address : String) (hn : IsName n) :
    passed (root.base wd) (stepsTo root address n) =
      root.way wd ++ [location wd root address, location wd root address ++ [n]] := by
  rw [← way_join_root hn, Path.way, base_join_root hn, steps_join_root hn]
  rfl

/-- Creates both directories of an endpoint. -/
def ensure (d : Disk) (root : Path) (address : String) : Except IoError Unit × Disk :=
  Disk.andThen (d.ensure false (root.base d.workingDirectory) (stepsTo root address sourceName))
    fun d₁ => d₁.ensure false (root.base d.workingDirectory) (stepsTo root address binaryName)

/-- Why no directory of an endpoint can be created, whatever there is. -/
def refusal? (root : Path) (address : String) : Option IoError :=
  (locate root address).sourceDir.refusal?

theorem refusal?_binaryDir (root : Path) (address : String) :
    (locate root address).binaryDir.refusal? = refusal? root address := by
  rw [refusal?, sourceDir_eq, binaryDir_eq]
  exact refusal?_join_root isName_binaryName isName_sourceName (by decide) (by decide) (by decide)
    address

theorem createDirectories_join_root (hn : IsName n)
    (hlinks : d.LinkFree ((Path.join (locate root address).root n).way d.workingDirectory)) :
    d.createDirectories (Path.join (locate root address).root n) =
      match (Path.join (locate root address).root n).refusal? with
      | some e => (.error e, d)
      | none => d.ensure false (root.base d.workingDirectory) (stepsTo root address n) := by
  rw [Disk.createDirectories_eq hlinks, base_join_root hn, steps_join_root hn]
  rfl

theorem createDirectories_sourceDir
    (hlinks : d.LinkFree ((locate root address).sourceDir.way d.workingDirectory)) :
    d.createDirectories (locate root address).sourceDir = match refusal? root address with
      | some e => (.error e, d)
      | none => d.ensure false (root.base d.workingDirectory) (stepsTo root address sourceName) := by
  rw [sourceDir_eq] at hlinks ⊢
  rw [refusal?, sourceDir_eq, createDirectories_join_root isName_sourceName hlinks]

theorem createDirectories_binaryDir
    (hlinks : d.LinkFree ((locate root address).binaryDir.way d.workingDirectory)) :
    d.createDirectories (locate root address).binaryDir = match refusal? root address with
      | some e => (.error e, d)
      | none => d.ensure false (root.base d.workingDirectory) (stepsTo root address binaryName) := by
  rw [binaryDir_eq] at hlinks ⊢
  rw [← refusal?_binaryDir, binaryDir_eq, createDirectories_join_root isName_binaryName hlinks]

/-- Without links a workspace is prepared by two walks. -/
theorem prepare_eq
    (hsource : d.LinkFree ((locate root address).sourceDir.way d.workingDirectory))
    (hbinary : d.LinkFree ((locate root address).binaryDir.way d.workingDirectory)) :
    prepare d root address = match refusal? root address with
      | some e => (.error e, d)
      | none => ((ensure d root address).1.map fun _ => locate root address,
          (ensure d root address).2) := by
  have hfirst := createDirectories_sourceDir hsource
  have hsecond (d₁ : Disk) (hgrows : Disk.Grows d d₁) :
      d₁.createDirectories (locate root address).binaryDir = match refusal? root address with
        | some e => (.error e, d₁)
        | none => d₁.ensure false (root.base d.workingDirectory)
            (stepsTo root address binaryName) := by
    have hfree := hgrows.linkFree hbinary
    rw [← hgrows.workingDirectory] at hfree ⊢
    have hmade := createDirectories_binaryDir hfree
    exact hmade
  unfold prepare ensure
  generalize locate root address = w at *
  dsimp only
  rw [hfirst]
  cases hrefused : refusal? root address with
  | some e => rfl
  | none =>
    dsimp only
    rcases hmade : d.ensure false (root.base d.workingDirectory) (stepsTo root address sourceName)
      with ⟨e | _, d₁⟩
    · rfl
    · dsimp only [Disk.andThen]
      rw [hsecond d₁ (.of_ensure hmade), hrefused]
      dsimp only
      rcases d₁.ensure false (root.base d.workingDirectory) (stepsTo root address binaryName)
        with ⟨e | _, d₂⟩ <;> rfl

/-! ## A root that starts in the workspace of an endpoint -/

/-- The root that leads on from the directory an endpoint has at the top. -/
def inner (address : String) (rest : Path) : Path := "/" ++ endpointKey address ++ "/" ++ rest

theorem steps_inner (address : String) (rest : Path) :
    (inner address rest).steps = endpointKey address :: rest.steps := by
  have hkey := Path.steps_append_slash "" (endpointKey address)
  rw [Path.steps_of_isName (isName_endpointKey _), String.empty_append] at hkey
  rw [inner, Path.steps_append_slash, hkey]
  rfl

theorem base_inner (address : String) (rest : Path) (wd : Location) : (inner address rest).base wd = [] := by
  refine if_pos ?_
  rw [inner]
  simp [Path.isAbsolute]

theorem refusal?_join_inner (address address' : String) (rest : Path) (hnul : '\x00' ∉ rest.toList)
    (hsize : rest.length ≤ 255) (hn : IsName n) (hname : '\x00' ∉ n.toList)
    (hshort : n.length ≤ 255) :
    (Path.join (locate (inner address rest) address').root n).refusal? = none := by
  have hkey := nul_not_mem_endpointKey address
  have hlength := length_endpointKey address
  refine refusal?_join_root_eq_none hn hname ?_ ?_
  · have hslash : '\x00' ∉ "/".toList := by decide
    rw [inner, String.toList_append, String.toList_append, String.toList_append]
    simp only [List.mem_append, not_or]
    exact ⟨⟨⟨hslash, hkey⟩, hslash⟩, hnul⟩
  · have hslash : "/".length = 1 := by decide
    have hmax : Disk.maxPathLength = 4095 := rfl
    rw [inner, String.length_append, String.length_append, String.length_append]
    omega

theorem refusal?_inner (address address' : String) (rest : Path) (hnul : '\x00' ∉ rest.toList)
    (hsize : rest.length ≤ 255) : refusal? (inner address rest) address' = none := by
  rw [refusal?, sourceDir_eq]
  exact refusal?_join_inner address address' rest hnul hsize isName_sourceName (by decide) (by decide)

/-! ## What preparing changes -/

theorem grows_ensure (d : Disk) (root : Path) (address : String) :
    Disk.Grows d (ensure d root address).2 := by
  unfold ensure
  rcases hfirst : d.ensure false (root.base d.workingDirectory) (stepsTo root address sourceName)
    with ⟨e | _, d₁⟩
  · exact .of_ensure hfirst
  · exact (Disk.Grows.of_ensure hfirst).trans (Disk.grows_ensure ..)

theorem wellFormed_ensure (h : d.WellFormed) (root : Path) (address : String) :
    (ensure d root address).2.WellFormed := by
  have hnames {n : String} (hn : IsName n) : ∀ s ∈ stepsTo root address n, s = ".." ∨ IsName s :=
    fun s hs => (isName_or_back_of_mem_stepsTo root address hn s hs).imp And.left id
  have hwell := h.ensure (c := false) (h.lookup_base root) (hnames isName_sourceName)
  unfold ensure
  rcases hfirst : d.ensure false (root.base d.workingDirectory) (stepsTo root address sourceName)
    with ⟨e | _, d₁⟩
  · rw [hfirst] at hwell
    exact hwell
  · rw [hfirst] at hwell
    exact hwell.ensure ((Disk.Grows.of_ensure hfirst).kept (h.lookup_base root))
      (hnames isName_binaryName)

/-- Nothing is created but what the root leads through, the directory and the two in it. -/
theorem lookup_ensure {l : Location} (hroot : l ∉ root.way d.workingDirectory)
    (hdirectory : l ≠ location d.workingDirectory root address)
    (hsources : l ≠ location d.workingDirectory root address ++ [sourceName])
    (hbinaries : l ≠ location d.workingDirectory root address ++ [binaryName]) :
    (ensure d root address).2.lookup l = d.lookup l := by
  have hstep {n : String} (hn : IsName n) (hl : l ≠ location d.workingDirectory root address ++ [n])
      (d' : Disk) : (d'.ensure false (root.base d.workingDirectory)
        (stepsTo root address n)).2.lookup l = d'.lookup l := by
    refine Disk.lookup_ensure_of_not_mem (dot_not_mem_stepsTo root address hn) ?_
    rw [passed_stepsTo _ _ _ hn, List.mem_append, List.mem_pair, not_or, not_or]
    exact ⟨hroot, hdirectory, hl⟩
  have hfirst := hstep isName_sourceName hsources d
  unfold ensure
  generalize d.ensure false (root.base d.workingDirectory) (stepsTo root address sourceName) = r
    at hfirst ⊢
  obtain ⟨e | _, d₁⟩ := r
  · exact hfirst
  · exact (hstep isName_binaryName hbinaries d₁).trans hfirst

/-- On disks that are alike both directories are created in the same way. -/
theorem alike_ensure (h : Disk.Alike hidden d₁ d₂)
    (hshown : Shown hidden d₁.workingDirectory root address) :
    (ensure d₁ root address).1 = (ensure d₂ root address).1 ∧
      Disk.Alike hidden (ensure d₁ root address).2 (ensure d₂ root address).2 := by
  have hpassed {n : String} (hn : IsName n)
      (hshows : hidden.Shows (location d₁.workingDirectory root address ++ [n])) :
      ∀ l ∈ passed (root.base d₁.workingDirectory) (stepsTo root address n), hidden.Shows l := by
    rw [passed_stepsTo _ _ _ hn, ← way_join_root hn]
    exact hshown.way_join hn hshows
  obtain ⟨hresult, halike⟩ := h.ensure (c := false)
    (dot_not_mem_stepsTo root address isName_sourceName)
    (hpassed isName_sourceName hshown.sources)
  unfold ensure
  rw [← h.workingDirectory]
  rcases h₁ : d₁.ensure false (root.base d₁.workingDirectory) (stepsTo root address sourceName)
    with ⟨r, d₁'⟩
  rcases h₂ : d₂.ensure false (root.base d₁.workingDirectory) (stepsTo root address sourceName)
    with ⟨_, d₂'⟩
  rw [h₁, h₂] at hresult halike
  obtain rfl : r = _ := hresult
  cases r with
  | error e => exact ⟨rfl, halike⟩
  | ok _ =>
    dsimp only [Disk.andThen]
    exact halike.ensure (dot_not_mem_stepsTo root address isName_binaryName)
      (hpassed isName_binaryName hshown.binaries)

/-- On twins both directories are created in the same way and leave twins. -/
theorem twins_ensure {wd : Location} (h : Disk.Twins wd hidden d₁ d₂)
    (hshown : Shown hidden wd root address) :
    (ensure d₁ root address).1 = (ensure d₂ root address).1 ∧
      Disk.Twins wd hidden (ensure d₁ root address).2 (ensure d₂ root address).2 := by
  have hwd := h.workingDirectory
  have hgrows := grows_ensure d₁ root address
  obtain ⟨hresult, halike⟩ := alike_ensure h.alike (hwd ▸ hshown)
  exact ⟨hresult, wellFormed_ensure h.left root address, wellFormed_ensure h.right root address,
    hgrows.workingDirectory.trans hwd, hgrows.clear h.clear, halike⟩

/-- Both directories are there. -/
def IsPrepared (d : Disk) (root : Path) (address : String) : Prop :=
  d.LeadsTo (root.base d.workingDirectory) (stepsTo root address sourceName) ∧
    d.LeadsTo (root.base d.workingDirectory) (stepsTo root address binaryName)

theorem isPrepared_of_ensure (h : ensure d root address = (.ok (), d')) :
    IsPrepared d' root address := by
  unfold ensure at h
  rcases hfirst : d.ensure false (root.base d.workingDirectory) (stepsTo root address sourceName)
    with ⟨e | _, d₁⟩
  · rw [hfirst] at h
    cases h
  · rw [hfirst] at h
    have hgrows := Disk.Grows.of_ensure h
    have hwd := ((Disk.Grows.of_ensure hfirst).trans hgrows).workingDirectory
    have hsource := dot_not_mem_stepsTo root address isName_sourceName
    have hbinary := dot_not_mem_stepsTo root address isName_binaryName
    rw [IsPrepared, hwd]
    exact ⟨(Disk.leadsTo_of_ensure hsource hfirst).mono hsource hgrows,
      Disk.leadsTo_of_ensure hbinary h⟩

/-- Below a root that leads through something else than a directory no endpoint has directories. -/
theorem ensure_ne_ok (before : List String) (s : String) {after : List String} {e : Entry} {made : Disk}
    (hsteps : root.steps = before ++ s :: after) (hs : s ≠ "..")
    (hlookup : d.lookup (resolve (root.base d.workingDirectory) before ++ [s]) = some e)
    (he : e ≠ .directory) : ensure d root address ≠ (.ok (), made) := by
  intro hmade
  have hgrows := grows_ensure d root address
  rw [hmade] at hgrows
  have hdot := Path.dot_not_mem_steps root
  rw [hsteps, List.mem_append, List.mem_cons, not_or, not_or] at hdot
  obtain ⟨hbefore, hdot, -⟩ := hdot
  have hleads := (isPrepared_of_ensure hmade).1
  rw [hgrows.workingDirectory, stepsTo, hsteps, List.append_cons before, List.append_assoc] at hleads
  have hfront : "." ∉ before ++ [s] := by
    rw [List.mem_append, List.mem_singleton]
    exact not_or.2 ⟨hbefore, hdot⟩
  have hdirectory := (hleads.of_append hfront).lookup_concat hbefore (Ne.symm hdot) hs
  rw [hgrows.kept hlookup] at hdirectory
  exact he (Option.some.inj hdirectory)

theorem lookup_of_leadsTo_stepsTo {wd : Location} (hn : IsName n)
    (h : d.LeadsTo (root.base wd) (stepsTo root address n)) :
    d.lookup (location wd root address ++ [n]) = some .directory := by
  have hkey := isName_endpointKey address
  have hsteps : stepsTo root address n = (root.steps ++ [endpointKey address]) ++ [n] := by
    simp [stepsTo]
  have hresolve : resolve (root.base wd) (root.steps ++ [endpointKey address]) =
      location wd root address := by
    rw [Location.resolve_append]
    exact Location.step_of_isName hkey
  rw [hsteps] at h
  rw [← hresolve]
  refine h.lookup_concat (fun hdot => ?_) hn.2.1 hn.2.2.1
  obtain hdot | hdot := List.mem_append.1 hdot
  · exact Path.dot_not_mem_steps root hdot
  · exact hkey.2.1 (List.mem_singleton.1 hdot).symm

theorem IsPrepared.lookup_sourceDir (h : IsPrepared d root address) :
    d.lookup ((locate root address).sourceDir.place d.workingDirectory) = some .directory := by
  rw [place_sourceDir]
  exact lookup_of_leadsTo_stepsTo isName_sourceName h.1

/-- Where both directories are there nothing is created. -/
theorem IsPrepared.ensure (h : IsPrepared d root address) : ensure d root address = (.ok (), d) := by
  have h₁ := h.1.ensure (dot_not_mem_stepsTo root address isName_sourceName) false []
  have h₂ := h.2.ensure (dot_not_mem_stepsTo root address isName_binaryName) false []
  rw [List.append_nil] at h₁ h₂
  unfold Workspace.ensure
  rw [h₁]
  exact h₂

/-- A disk that is alike where the workspace shows is prepared, too. -/
theorem IsPrepared.of_alike (h : IsPrepared d₁ root address) (halike : Disk.Alike hidden d₁ d₂)
    (hclear : d₁.Clear hidden) (hshown : Shown hidden d₁.workingDirectory root address) :
    IsPrepared d₂ root address := by
  have hleads {n : String} (hn : IsName n)
      (hshows : hidden.Shows (location d₁.workingDirectory root address ++ [n]))
      (h : d₁.LeadsTo (root.base d₁.workingDirectory) (stepsTo root address n)) :
      d₂.LeadsTo (root.base d₂.workingDirectory) (stepsTo root address n) := by
    have hpassed : ∀ l ∈ passed (root.base d₁.workingDirectory) (stepsTo root address n),
        hidden.Shows l := by
      rw [passed_stepsTo _ _ _ hn, ← way_join_root hn]
      exact hshown.way_join hn hshows
    intro follow onLink
    rw [← halike.workingDirectory, ← h follow onLink]
    exact (Disk.walkTo_congr (halike.agree hpassed) (hclear.linkFree hpassed)).symm
  exact ⟨hleads isName_sourceName hshown.sources h.1, hleads isName_binaryName hshown.binaries h.2⟩

/-! ## Other attempts -/

/-- The disk once the root is there, as far as it can be created. -/
def ensureRoot (d : Disk) (root : Path) : Disk :=
  (d.ensure false (root.base d.workingDirectory) root.steps).2

theorem grows_ensureRoot (d : Disk) (root : Path) : Disk.Grows d (ensureRoot d root) :=
  Disk.grows_ensure ..

/-- Both directories are created as if the root had not been created before. -/
theorem ensure_ensureRoot (d : Disk) (root : Path) (address : String) :
    Disk.SameButCause (ensure (ensureRoot d root) root address) (ensure d root address) := by
  unfold ensure
  rw [(grows_ensureRoot d root).workingDirectory]
  exact (Disk.ensure_again d false false _ (Path.dot_not_mem_steps root) _).andThen fun _ => .refl _

/-- Where creating both directories failed it fails again for the reason that the attempt at one of
them fails again. -/
theorem ensure_of_failed {e : IoError} (h : ensure d root address = (.error e, d')) :
    ∃ n d₁, IsName n ∧
      (d₁ = d ∨ (d.ensure false (root.base d.workingDirectory) (stepsTo root address sourceName)).2 = d₁) ∧
      d₁.ensure false (root.base d.workingDirectory) (stepsTo root address n) = (.error e, d') ∧
      ∀ e', d'.ensure false (root.base d.workingDirectory) (stepsTo root address n) = (.error e', d') →
        ensure d' root address = (.error e', d') := by
  have hwd := (grows_ensure d root address).workingDirectory
  rw [h] at hwd
  unfold ensure at h ⊢
  dsimp only at hwd
  rw [hwd]
  rcases hfirst : d.ensure false (root.base d.workingDirectory) (stepsTo root address sourceName)
    with ⟨e₁ | _, d₁⟩
  · rw [hfirst] at h
    refine ⟨sourceName, d, isName_sourceName, .inl rfl, hfirst.trans h, fun e' he' => ?_⟩
    rw [he']
    rfl
  · rw [hfirst] at h
    have hsource := dot_not_mem_stepsTo root address isName_sourceName
    have hthere := (Disk.leadsTo_of_ensure hsource hfirst).mono hsource (.of_ensure h)
    have hunchanged := hthere.ensure hsource false []
    rw [List.append_nil] at hunchanged
    refine ⟨binaryName, d₁, isName_binaryName, .inr rfl, h, fun e' he' => ?_⟩
    rw [hunchanged]
    exact he'

/-- Both directories are created as if they had not been created before. -/
theorem ensure_again (d : Disk) (root : Path) (address : String) :
    Disk.SameButCause (ensure (ensure d root address).2 root address) (ensure d root address) := by
  rcases hmade : ensure d root address with ⟨e | _, d'⟩
  · obtain ⟨n, d₁, hn, -, hfailed, hagain⟩ := ensure_of_failed hmade
    obtain ⟨e', he'⟩ := Disk.ensure_of_failed hfailed false []
    rw [List.append_nil] at he'
    dsimp only
    rw [hagain e' he']
    exact ⟨rfl, rfl⟩
  · dsimp only
    rw [(isPrepared_of_ensure hmade).ensure]
    exact .refl _

section

variable (h : d.WellFormed) (hroot : ".." ∉ root.steps)
include hroot

theorem isName_of_mem_stepsTo (hn : IsName n) : ∀ s ∈ stepsTo root address n, IsName s := by
  intro s hs
  obtain ⟨rfl, hback⟩ | hs := isName_or_back_of_mem_stepsTo root address hn s hs
  · exact absurd hback hroot
  · exact hs

include h

/-- Where the root does not lead back the cause of a failure is the same, too. -/
theorem ensure_again_of_names (address : String) :
    ensure (ensure d root address).2 root address = ensure d root address := by
  rcases hmade : ensure d root address with ⟨e | _, d'⟩
  · obtain ⟨n, d₁, hn, hd₁, hfailed, hagain⟩ := ensure_of_failed hmade
    have hnames : ∀ s ∈ stepsTo root address n ++ [], IsName s := by
      rw [List.append_nil]
      exact isName_of_mem_stepsTo hroot hn
    have hsource := Disk.grows_ensure d false (root.base d.workingDirectory)
      (stepsTo root address sourceName)
    have hwell : d₁.WellFormed ∧ d₁.lookup (root.base d.workingDirectory) = some .directory := by
      obtain rfl | rfl := hd₁
      · exact ⟨h, h.lookup_base root⟩
      · exact ⟨h.ensure (h.lookup_base root) fun s hs =>
          .inr (isName_of_mem_stepsTo hroot isName_sourceName s hs), hsource.kept (h.lookup_base root)⟩
    have hsame := Disk.ensure_again_of_names hwell.1 hwell.2 (stepsTo root address n) [] hnames
    rw [List.append_nil, hfailed] at hsame
    exact hagain e hsame
  · exact (isPrepared_of_ensure hmade).ensure

end

/-- Below a root that is there nothing is created but in the workspace. -/
theorem alike_ensure_stepsTo {wd : Location} (h : d.LeadsTo (root.base wd) root.steps)
    (address : String) (hn : IsName n) : Disk.Alike (Hiding.at (location wd root address <+: ·)) d
      (d.ensure false (root.base wd) (stepsTo root address n)).2 := by
  have hkey := isName_endpointKey address
  have hdot : "." ∉ [endpointKey address, n] := by
    rw [List.mem_pair, not_or]
    exact ⟨Ne.symm hkey.2.1, Ne.symm hn.2.1⟩
  rw [stepsTo, h.ensure (Path.dot_not_mem_steps root)]
  refine (Disk.alike_ensure d false _ hdot).mono fun l _ hl => ?_
  have hpassed : passed (root.place wd) [endpointKey address, n] =
      [location wd root address, location wd root address ++ [n]] := by
    rw [passed, if_neg hkey.2.1, Location.step_of_isName hkey, Location.passed_of_isName hn]
    rfl
  have hl : l ∈ [location wd root address, location wd root address ++ [n]] := hpassed ▸ hl
  obtain rfl | rfl := List.mem_pair.1 hl
  · exact List.prefix_refl _
  · exact List.prefix_append ..

/-- Once the root was created as far as it can be, nothing is created but in the workspace. -/
theorem alike_ensure_ensureRoot (d : Disk) (root : Path) (address : String) :
    Disk.Alike (Hiding.at (location d.workingDirectory root address <+: ·)) (ensureRoot d root)
      (ensure (ensureRoot d root) root address).2 := by
  have hwd := (grows_ensureRoot d root).workingDirectory
  have hroot := Path.dot_not_mem_steps root
  unfold ensure
  rw [hwd]
  rcases hmade : d.ensure false (root.base d.workingDirectory) root.steps with ⟨e | _, d₁⟩
  · have hd₁ : ensureRoot d root = d₁ := congrArg Prod.snd hmade
    obtain ⟨e', he'⟩ := Disk.ensure_of_failed hmade false [endpointKey address, sourceName]
    rw [hd₁, stepsTo, he']
    exact .refl ..
  · have hd₁ : ensureRoot d root = d₁ := congrArg Prod.snd hmade
    have hthere := Disk.leadsTo_of_ensure hroot hmade
    have hsource := alike_ensure_stepsTo hthere address isName_sourceName
    rw [hd₁]
    rcases hfirst : d₁.ensure false (root.base d.workingDirectory) (stepsTo root address sourceName)
      with ⟨e | _, d₂⟩
    · rw [hfirst] at hsource
      exact hsource
    · rw [hfirst] at hsource
      exact hsource.trans (alike_ensure_stepsTo (hthere.mono hroot (.of_ensure hfirst))
        address isName_binaryName)

end Workspace

end ServiceCall
