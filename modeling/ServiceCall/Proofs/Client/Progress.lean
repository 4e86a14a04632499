import ServiceCall.Proofs.Client.Stages
/-!
# Making a client where nothing is in the way

Where neither a file nor a link is in the way of a workspace it is prepared, and a description that is
fetched is stored (`Workspace.Free.exists_stored`). So what becomes of the client is up to the
collaborators, and one without sources is made of what the host has.
-/

namespace ServiceCall

open Disk (Alike)

namespace Workspace

variable {d stored : Disk} {root : Path} {address : String}

/-- Nothing is in the way of a workspace: where its directories go there are directories or nothing,
where the description goes there is no directory, and the root is no longer than a path may be and does
not lead through what is below it. -/
structure Free (d : Disk) (root : Path) (address : String) : Prop where
  wellFormed : d.WellFormed
  linkless : d.Linkless
  short : ∀ s ∈ root.steps, ¬ 255 < s.length
  nul : '\x00' ∉ root.toList
  size : root.length + 81 ≤ Disk.maxPathLength
  apart : ∀ l ∈ root.way d.workingDirectory,
    ¬ (locate root address).root.Inside d.workingDirectory l
  directories : ∀ l, l ∈ root.way d.workingDirectory ∨ l = location d.workingDirectory root address ∨
    l = location d.workingDirectory root address ++ [sourceName] ∨
      l = location d.workingDirectory root address ++ [binaryName] →
        d.lookup l = none ∨ d.lookup l = some .directory
  document : ∀ e, d.lookup (location d.workingDirectory root address ++ [documentName]) = some e →
    e.isFile = true

theorem Free.refusal? (h : Free d root address) {n : String} (hn : IsName n)
    (hnul : '\x00' ∉ n.toList) (hsize : n.length ≤ 15) :
    (Path.join (locate root address).root n).refusal? = none :=
  refusal?_join_root_eq_none hn hnul h.nul (by have := h.size; omega)

theorem Free.refusal?_join (h : Free d root address) {n m : String} (hn : IsName n) (hm : IsName m)
    (hnul : '\x00' ∉ n.toList) (hnul' : '\x00' ∉ m.toList) (hsize : n.length + m.length ≤ 14) :
    (Path.join (Path.join (locate root address).root n) m).refusal? = none := by
  have hkey := isName_endpointKey address
  have hlength := length_endpointKey address
  have hroot := Path.length_join_le hkey root
  have hdir := Path.length_join_le hn (Path.join root (endpointKey address))
  have hlast := Path.length_join_le hm (Path.join (Path.join root (endpointKey address)) n)
  have hmax := h.size
  refine Path.refusal?_eq_none (Path.nul_not_mem_join hm hnul' (Path.nul_not_mem_join hn hnul
    (Path.nul_not_mem_join hkey (nul_not_mem_endpointKey address) h.nul))) ?_
  rw [locate]
  dsimp only
  omega

theorem sourceDir_ne_empty : (locate root address).sourceDir ≠ "" := by
  rw [sourceDir_eq]
  exact Path.join_ne_empty isName_sourceName _

theorem Free.refusal?_sourceDir (h : Free d root address) :
    (locate root address).sourceDir.refusal? = none := by
  rw [sourceDir_eq]
  exact h.refusal? isName_sourceName (by decide) (by decide)

/-- Both directories are created if there are directories or nothing on the way. -/
theorem exists_ensure (hshort : ∀ s ∈ root.steps, ¬ 255 < s.length)
    (hdirectories : ∀ l, l ∈ root.way d.workingDirectory ∨
      l = location d.workingDirectory root address ∨
        l = location d.workingDirectory root address ++ [sourceName] ∨
          l = location d.workingDirectory root address ++ [binaryName] →
            d.lookup l = none ∨ d.lookup l = some .directory) :
    ∃ made, ensure d root address = (.ok (), made) := by
  have hstep {n : String} (hn : IsName n) (hsize : n.length ≤ 15) {d' : Disk}
      (hgrows : Disk.Grows d d') (hdirectory : d.lookup (location d.workingDirectory root address ++ [n]) =
        none ∨ d.lookup (location d.workingDirectory root address ++ [n]) = some .directory) :
      ∃ made, d'.ensure false (root.base d.workingDirectory) (stepsTo root address n) =
        (.ok (), made) := by
    refine Disk.exists_ensure (fun s hs => ?_) (dot_not_mem_stepsTo root address hn) fun l hl => ?_
    · rw [stepsTo, List.mem_append, List.mem_pair] at hs
      obtain hs | rfl | rfl := hs
      · exact hshort s hs
      · rw [length_endpointKey]
        decide
      · omega
    · have hfree : d.lookup l = none ∨ d.lookup l = some .directory := by
        rw [passed_stepsTo _ _ _ hn, List.mem_append, List.mem_pair] at hl
        obtain hl | rfl | rfl := hl
        · exact hdirectories l (.inl hl)
        · exact hdirectories _ (.inr (.inl rfl))
        · exact hdirectory
      obtain hsame | ⟨-, hmade⟩ := hgrows.lookup l
      · rwa [hsame]
      · exact .inr hmade
  obtain ⟨first, hfirst⟩ := hstep isName_sourceName (by decide) (.refl d)
    (hdirectories _ (.inr (.inr (.inl rfl))))
  obtain ⟨made, hmade⟩ := hstep isName_binaryName (by decide) (.of_ensure hfirst)
    (hdirectories _ (.inr (.inr (.inr rfl))))
  refine ⟨made, ?_⟩
  unfold ensure
  rw [hfirst]
  exact hmade

theorem Free.exists_ensure (h : Free d root address) :
    ∃ made, ensure d root address = (.ok (), made) :=
  Workspace.exists_ensure h.short h.directories

theorem IsPrepared.leadsTo_root (h : IsPrepared d root address) :
    d.LeadsTo ((locate root address).root.base d.workingDirectory) (locate root address).root.steps := by
  have hkey := isName_endpointKey address
  have hsteps : stepsTo root address sourceName = (locate root address).root.steps ++ [sourceName] := by
    rw [stepsTo, locate, Path.steps_join hkey, List.append_assoc]
    rfl
  have hleads := hsteps ▸ h.1
  rw [locate, Path.base_join hkey]
  exact hleads.of_append (Path.dot_not_mem_steps _)

theorem IsPrepared.leadsTo_sourceDir (h : IsPrepared d root address) :
    d.LeadsTo ((locate root address).sourceDir.base d.workingDirectory)
      (locate root address).sourceDir.steps := by
  rw [sourceDir_eq, base_join_root isName_sourceName, steps_join_root isName_sourceName]
  exact h.1

theorem IsPrepared.leadsTo_binaryDir (h : IsPrepared d root address) :
    d.LeadsTo ((locate root address).binaryDir.base d.workingDirectory)
      (locate root address).binaryDir.steps := by
  rw [binaryDir_eq, base_join_root isName_binaryName, steps_join_root isName_binaryName]
  exact h.2

/-- In a prepared workspace the description is stored, unless something else than a file is there. -/
theorem IsPrepared.exists_write (h : IsPrepared d root address) (hlinks : d.Linkless)
    (hrefused : (locate root address).document.refusal? = none)
    (hentry : ∀ e, d.lookup (location d.workingDirectory root address ++ [documentName]) = some e →
      e.isFile = true) (content : Bytes) : ∃ stored, d.write (locate root address).document content = .ok stored := by
  rw [document_eq] at hrefused ⊢
  rw [← place_root] at hentry
  have hfollow := h.leadsTo_root.follow_join isName_documentName (by decide) hrefused
    (fun t => hlinks _ t) true
  unfold Disk.write
  rw [hfollow]
  simp only [bind, Except.bind]
  split
  next => exact ⟨_, rfl⟩
  next => exact ⟨_, rfl⟩
  next hspecial => cases hentry _ hspecial
  next e hnone _ hother =>
    cases e with
    | file content executable => exact (hnone content executable rfl).elim
    | directory | link _ | special => cases hentry _ hother

/-- Where nothing was in the way there still is not after changes to what may be touched. -/
theorem Free.of_alike {d' : Disk} (h : Free d root address) (hwell : d'.WellFormed)
    (hlinks : d'.Linkless)
    (halike : Alike (Hiding.at (Client.Touched d.workingDirectory (locate root address))) d d')
    (hdocument : ∀ e, d'.lookup (location d.workingDirectory root address ++ [documentName]) = some e →
      e.isFile = true) : Free d' root address := by
  have hwd := halike.workingDirectory
  have hshown := Client.shown_touched h.apart
  refine ⟨hwell, hlinks, h.short, h.nul, h.size, hwd ▸ h.apart, fun l hl => ?_, hwd ▸ hdocument⟩
  rw [← hwd] at hl
  rw [← halike.lookup_of_shows]
  · exact h.directories l hl
  · obtain hl | rfl | rfl | rfl := hl
    · exact hshown.way l hl
    · exact hshown.directory
    · exact hshown.sources
    · exact hshown.binaries

/-- Once its directories are created nothing is in the way of a workspace, either. -/
theorem Free.ensure {made : Disk} (h : Free d root address)
    (hmade : ensure d root address = (.ok (), made)) : Free made root address := by
  have hgrows := grows_ensure d root address
  have hwell := wellFormed_ensure h.wellFormed root address
  have hdocument := Client.lookup_ensure_of_touched h.apart (.inl place_document)
  rw [hmade] at hgrows hwell hdocument
  have hwd := hgrows.workingDirectory
  refine ⟨hwell, hgrows.linkless h.linkless, h.short, h.nul, h.size, hwd.symm ▸ h.apart,
    fun l hl => ?_, ?_⟩
  · rw [hwd] at hl
    obtain hsame | ⟨-, hdirectory⟩ := hgrows.lookup l
    · exact hsame ▸ h.directories l hl
    · exact .inr hdirectory
  · rw [hwd]
    exact hdocument ▸ h.document

/-- The disk with the workspace and the one with the description in it, with nothing changed below
the directories. -/
structure Stored (d : Disk) (root : Path) (address : String) (content : Bytes) (made stored : Disk) :
    Prop where
  prepare : prepare d root address = (.ok (locate root address), made)
  write : made.write (locate root address).document content = .ok stored
  free : Free stored root address
  prepared : IsPrepared stored root address
  workingDirectory : stored.workingDirectory = d.workingDirectory
  lookup : ∀ l, (locate root address).sourceDir.Inside d.workingDirectory l ∨
    (locate root address).binaryDir.Inside d.workingDirectory l → stored.lookup l = d.lookup l

/-- Where nothing is in the way of a workspace it is prepared, and a description is stored in it. -/
theorem Free.exists_stored (h : Free d root address) (content : Bytes) :
    ∃ made stored, Stored d root address content made stored := by
  have hrefused : Workspace.refusal? root address = none := h.refusal?_sourceDir
  have hdocument : (locate root address).document.refusal? = none := by
    rw [document_eq]
    exact h.refusal? isName_documentName (by decide) (by decide)
  obtain ⟨made, hmade⟩ := h.exists_ensure
  have hfree := h.ensure hmade
  have hwd : made.workingDirectory = d.workingDirectory := by
    have hgrows := grows_ensure d root address
    rw [hmade] at hgrows
    exact hgrows.workingDirectory
  have hprepared := isPrepared_of_ensure hmade
  obtain ⟨stored, hwrite⟩ := hprepared.exists_write hfree.linkless hdocument hfree.document content
  obtain ⟨hwell, hlinks, halike⟩ := Client.stored_frame hfree.wellFormed hfree.linkless hwrite
  have htouched : Alike (Hiding.at (Client.Touched made.workingDirectory (locate root address))) made
      stored := halike.mono fun l e => .inl
  refine ⟨made, stored, ?_, hwrite, hfree.of_alike hwell hlinks htouched ?_,
    hprepared.of_alike htouched (.of_linkless hfree.linkless _) (Client.shown_touched hfree.apart),
    halike.workingDirectory.symm.trans hwd, fun l hl => ?_⟩
  · rw [prepare_eq (h.linkless.linkFree _) (h.linkless.linkFree _), hrefused, hmade]
    rfl
  · obtain ⟨l, n, hplace, -, -, -, rfl⟩ := hfree.wellFormed.of_write (hfree.linkless.linkFree _) hwrite
    rw [← place_document, hplace, Disk.lookup_set_self _ (by simp)]
    exact fun e hfile => Option.some.inj hfile ▸ rfl
  · have hmade := congrArg Prod.snd hmade
    have htouched := Client.lookup_ensure_of_touched h.apart (.inr hl)
    rw [hmade] at htouched
    rw [← halike.lookup_of_shows (Hiding.shows_at.2 fun heq => ?_), htouched]
    rw [hwd] at heq
    have hnames : (locate root address).document.Names d.workingDirectory l :=
      .inr (heq ▸ List.prefix_refl _)
    obtain hl | hl := hl
    · exact not_inside_sourceDir_of_names_document
        (fun l hl hinside => h.apart l hl (inside_root_of_sourceDir hinside)) hnames hl
    · exact not_inside_binaryDir_of_names_document
        (fun l hl hinside => h.apart l hl (inside_root_of_binaryDir hinside)) hnames hl

theorem Stored.made_eq {content : Bytes} {made : Disk} (h : Stored d root address content made stored)
    (hlinks : d.Linkless) : made = (Workspace.ensure d root address).2 := by
  have hprepare := h.prepare
  rw [prepare_eq (hlinks.linkFree _) (hlinks.linkFree _)] at hprepare
  split at hprepare
  · cases hprepare
  · exact (Prod.mk.inj hprepare).2.symm

/-- What is created for a workspace takes nothing away. -/
theorem Stored.grows {content : Bytes} {made : Disk} (h : Stored d root address content made stored)
    (hlinks : d.Linkless) : Disk.Grows d made :=
  h.made_eq hlinks ▸ grows_ensure d root address

/-- Once the root is there nothing is changed but in the workspace. -/
theorem Stored.alike {content : Bytes} {made : Disk} (h : Stored d root address content made stored)
    (hwell : d.WellFormed) (hlinks : d.Linkless) :
    Alike (Hiding.at (location d.workingDirectory root address <+: ·)) (ensureRoot d root) stored := by
  have hmade := alike_ensure_ensureRoot d root address
  rw [(ensure_ensureRoot d root address).2, ← h.made_eq hlinks] at hmade
  have hgrows := h.grows hlinks
  obtain ⟨-, -, hstored⟩ := Client.stored_frame (h.made_eq hlinks ▸ wellFormed_ensure hwell root address)
    (hgrows.linkless hlinks) h.write
  refine hmade.trans (hstored.mono fun l e hplace => ?_)
  rw [← hgrows.workingDirectory]
  exact isPrefix_location (inside_root_of_document hplace)

/-- From there it is up to the collaborators. -/
theorem Stored.outcome_eq {World : Type} {k : Collaborators World} {config : Configuration}
    {content : Bytes} {made stored : Disk}
    (h : Stored d config.workspaceRoot address content made stored)
    (hfetch : Description.fetch k.web address made = .ok content) :
    Client.outcome k config address d =
      Client.develop k config address (locate config.workspaceRoot address) stored := by
  rw [Client.outcome_eq, h.prepare]
  dsimp only
  unfold Client.finish Description.retrieve
  rw [hfetch]
  dsimp only
  rw [h.write]

end Workspace

/-! ## Without sources -/

namespace Workspace

variable {d : Disk} {root : Path} {address : String}

theorem Free.scan_eq_nil (h : Free d root address) (hprepared : IsPrepared d root address)
    (t : Toolchain)
    (hempty : ∀ l, (locate root address).sourceDir.Inside d.workingDirectory l → d.lookup l = none) :
    Build.scan d t (locate root address).sourceDir = .ok [] :=
  Build.scan_eq_nil hprepared.leadsTo_sourceDir sourceDir_ne_empty h.refusal?_sourceDir t
    h.wellFormed hempty

end Workspace

namespace Client

variable {World : Type} {k : Collaborators World} {config : Configuration} {address : String}

/-- Without sources a client is made of what the host has. -/
theorem develop_of_no_sources {w : Workspace} {stored d' : Disk} {model : Declarations}
    (hgenerator : k.generator (Description.request address w) stored = (.ok model, d'))
    (hscan : Build.scan d' k.toolchain w.sourceDir = .ok []) :
    develop k config address w stored = (assemble k config address w [] model d', d') := by
  have hrun : Build.run k.toolchain config.includePaths w.sourceDir w.binaryDir d' =
      (.ok [], [], d') := by
    unfold Build.run
    rw [hscan]
  unfold develop
  rw [hgenerator]
  dsimp only
  rw [hrun]

end Client

/-! ## On an empty disk -/

/-- A disk with nothing on it. -/
def Disk.empty : Disk := ⟨[], []⟩

namespace Disk

theorem lookup_empty {l : Location} (hl : l ≠ []) : empty.lookup l = none := by
  rw [lookup, if_neg hl]
  rfl

theorem wellFormed_empty : empty.WellFormed where
  nodup := List.nodup_nil
  nonempty _ hx := absurd hx List.not_mem_nil
  names _ hx := absurd hx List.not_mem_nil
  parents _ hx := absurd hx List.not_mem_nil
  workingDirectory := rfl

theorem linkless_empty : empty.Linkless := by
  intro l t hlink
  by_cases hl : l = []
  · subst hl
    cases hlink
  · rw [lookup_empty hl] at hlink
    cases hlink

end Disk

/-- A root with one name leads through no workspace. -/
theorem Workspace.not_prefix_of_mem_way {wd l : Location} {root : Path} (hn : IsName root)
    (address : String) (hl : l ∈ root.way wd) : ¬ location wd root address <+: l := by
  have hbase : root.base wd = wd := if_neg (by simp [Path.isAbsolute_of_isName hn])
  rw [Path.way, hbase, Path.steps_of_isName hn, Location.passed_of_isName hn,
    List.mem_singleton] at hl
  intro habove
  have hle := habove.length_le
  rw [location, Path.place, hbase, Path.steps_of_isName hn, hl, Location.resolve_cons,
    Location.step_of_isName hn, List.length_append] at hle
  have hplace : (Location.resolve (wd ++ [root]) []).length = (wd ++ [root]).length := rfl
  simp [hplace] at hle

/-- On an empty disk nothing is in the way of a workspace below a root with one name. -/
theorem Workspace.free_empty {root : Path} (hn : IsName root) (hnul : '\x00' ∉ root.toList)
    (hshort : root.length ≤ 255) (address : String) : Free Disk.empty root address := by
  refine ⟨Disk.wellFormed_empty, Disk.linkless_empty, fun s hs => ?_, hnul, ?_,
    fun l hl hinside => not_prefix_of_mem_way hn address hl (isPrefix_location hinside),
    fun l _ => ?_, ?_⟩
  · rw [Path.steps_of_isName hn, List.mem_singleton] at hs
    rw [hs]
    exact Nat.not_lt.2 hshort
  · have hmax : Disk.maxPathLength = 4095 := rfl
    omega
  · by_cases hl : l = []
    · subst hl
      exact .inr rfl
    · exact .inl (Disk.lookup_empty hl)
  · rw [Disk.lookup_empty (by simp)]
    exact fun e h => by cases h

/-- Settings with the top of the disk as the root. -/
def Client.aloft : Configuration := ⟨"/", [], "protoc", .default, none⟩

theorem Client.location_aloft {wd : Location} {address : String} :
    Workspace.location wd aloft.workspaceRoot address = [endpointKey address] := by
  have hplace : aloft.workspaceRoot.place wd = [] := rfl
  rw [Workspace.location, hplace, List.nil_append]

/-- At the top of a disk nothing is in the way of a workspace but what stands in its place. -/
theorem Client.free_aloft {d : Disk} {address : String} (hwell : d.WellFormed) (hlinks : d.Linkless)
    (hdirectories : ∀ l, l = [endpointKey address] ∨
      l = [endpointKey address, Workspace.sourceName] ∨
        l = [endpointKey address, Workspace.binaryName] →
          d.lookup l = none ∨ d.lookup l = some .directory)
    (hdocument : ∀ e, d.lookup [endpointKey address, Workspace.documentName] = some e →
      e.isFile = true) : Workspace.Free d aloft.workspaceRoot address := by
  have hsteps : aloft.workspaceRoot.steps = [] := rfl
  have hway : aloft.workspaceRoot.way d.workingDirectory = [] := rfl
  refine ⟨hwell, hlinks, fun s hs => ?_, by decide, by decide, fun l hl => ?_, fun l hl => ?_, ?_⟩
  · rw [hsteps] at hs
    exact absurd hs List.not_mem_nil
  · rw [hway] at hl
    exact absurd hl List.not_mem_nil
  · rw [hway, location_aloft] at hl
    exact hdirectories l (hl.resolve_left List.not_mem_nil)
  · rw [location_aloft]
    exact hdocument

/-- Settings with a root in the working directory and nothing else. -/
def Client.plainly : Configuration := ⟨"ws", [], "protoc", .default, none⟩

theorem Client.free_plainly (address : String) :
    Workspace.Free Disk.empty plainly.workspaceRoot address :=
  Workspace.free_empty (by decide) (by decide) (by decide) address

theorem Client.not_name_plainly {wd l : Location} : ¬ Path.Name wd plainly.includePaths l :=
  fun ⟨_, hp, _⟩ => absurd hp List.not_mem_nil

end ServiceCall
