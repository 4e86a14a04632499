import ServiceCall.Proofs.Client.Progress
import ServiceCall.Proofs.Client.Renewal
/-!
# Another attempt

An attempt to make a client leaves what it has done when it fails: the stored description, generated
sources and binaries. The next attempt stores the description anew but finds the sources and the
binaries, so it ends as it would have without the first one if its generator and its toolchain overlook
what is left (`Client.outcome_after_attempt`).
-/

namespace ServiceCall

open Disk (Twins Alike)

namespace Client

variable {World World' : Type} {kind : Option Entry → Prop} {d : Disk}
  {config : Configuration} {address : String}

/-- The generator is run. -/
def Generates (k : Collaborators World) (config : Configuration) (address : String) (d : Disk) :
    Prop :=
  ∃ g, InitStep.generated g ∈ (init k config address d).2.1

theorem generates_of_stored {k : Collaborators World} {d' stored : Disk} {w : Workspace}
    {content : Bytes}
    (hprepare : Workspace.prepare d config.workspaceRoot address = (.ok w, d'))
    (hfetch : Description.fetch k.web address d' = .ok content)
    (hwrite : d'.write w.document content = .ok stored) : Generates k config address d := by
  refine ⟨⟨Description.request address w, stored⟩, ?_⟩
  unfold init
  rw [hprepare]
  dsimp only
  unfold Description.generate Description.retrieve
  rw [hfetch]
  dsimp only
  rw [hwrite]
  dsimp only
  generalize (k.generator (Description.request address w) stored).1.mapError
    (DescriptionError.ofGenerate address) = model
  cases model with
  | error e => simp
  | ok model =>
    dsimp only
    generalize (Build.run k.toolchain config.includePaths w.sourceDir w.binaryDir
      (k.generator (Description.request address w) stored).2) = built
    obtain ⟨e | artifacts, steps, d⟩ := built <;> simp

/-- What an attempt has left below the sources, and entries of a kind below the binaries. -/
def leftBy (wd : Location) (w : Workspace) (d d' : Disk) (kind : Option Entry → Prop) : Hiding :=
  fun l e => w.sourceDir.Inside wd l ∧ d.lookup l ≠ d'.lookup l ∨ w.binaryDir.Inside wd l ∧ kind e

/-- What an attempt has left is all that tells the disks before and after it apart, wherever the sources
were those of the disk that it started from. -/
theorem twins_leftBy {wd : Location} {w : Workspace} {stored d' : Disk} (h : stored.WellFormed)
    (h' : d'.WellFormed) (hlinks : stored.Linkless) (hwd : stored.workingDirectory = wd)
    (hleft : Alike (leftovers wd w kind) stored d')
    (hbefore : ∀ l, w.sourceDir.Inside wd l → d.lookup l = stored.lookup l) :
    Twins wd (leftBy wd w d d' kind) stored d' := by
  refine ⟨h, h', hwd, .of_linkless hlinks _, hleft.workingDirectory, fun l => ?_⟩
  by_cases hsame : stored.lookup l = d'.lookup l
  · exact .inl hsame
  · obtain ⟨hstay, hstay'⟩ := (hleft.lookup l).resolve_left hsame
    by_cases hinside : w.sourceDir.Inside wd l
    · have hchanged : d.lookup l ≠ d'.lookup l := hbefore l hinside ▸ hsame
      exact .inr ⟨.inl ⟨hinside, hchanged⟩, .inl ⟨hinside, hchanged⟩⟩
    · exact .inr ⟨.inr (hstay.resolve_left hinside), .inr (hstay'.resolve_left hinside)⟩

section

variable {k : Collaborators World} {stored d' s₁ s₂ : Disk} {root : Path}

/-- Once a description was stored another one is stored and used as if it had been the first. -/
theorem finish_after_stored {made : Disk} {w : Workspace} {before : Hiding} {content : Bytes}
    (h : made.WellFormed) (hlinks : made.Linkless) (hwrite : made.write w.document content = .ok stored)
    (htwins : Twins made.workingDirectory before stored d')
    (hdocument : ∀ l ∈ w.document.way made.workingDirectory, before.Shows l)
    (hfetch : Description.fetch k.web address made = Description.fetch k.web address d')
    (hdevelop : ∀ s₁ s₂, Twins made.workingDirectory before s₁ s₂ →
      (develop k config address w s₁).1 = (develop k config address w s₂).1) :
    (finish k config address w d').1 = (finish k config address w made).1 := by
  unfold finish Description.retrieve
  rw [← hfetch]
  cases Description.fetch k.web address made with
  | error e => rfl
  | ok content' =>
    dsimp only
    rw [← h.write_write (hlinks.linkFree _) hwrite content']
    obtain ⟨e, h₁, h₂⟩ | ⟨s₁, s₂, h₁, h₂, hs⟩ := htwins.write hdocument content'
    · rw [h₁, h₂]
    · rw [h₁, h₂]
      exact (hdevelop s₁ s₂ hs).symm

end

section

variable {k' : Collaborators World'} {k : Collaborators World} {made stored : Disk} {root : Path}

/-- After collaborators went on from a stored description a client is made as if the workspace had
only been prepared, if what they left is overlooked. -/
theorem outcome_after_develop (hk' : k'.Confined kind) (h : made.WellFormed) (hlinks : made.Linkless)
    (hrefused : Workspace.refusal? config.workspaceRoot address = none)
    (hprepared : Workspace.IsPrepared made config.workspaceRoot address) {content : Bytes}
    (hwrite : made.write (Workspace.locate config.workspaceRoot address).document content = .ok stored)
    (hroot : ∀ l ∈ config.workspaceRoot.way made.workingDirectory,
      ¬ (Workspace.locate config.workspaceRoot address).root.Inside made.workingDirectory l)
    (haddress : Description.isWebAddress address = false →
      ∀ l ∈ (Description.filePath address).way made.workingDirectory,
        ¬ (Workspace.locate config.workspaceRoot address).root.Inside made.workingDirectory l)
    (hincludes : ∀ l, Path.Name made.workingDirectory config.includePaths l →
      ¬ (Workspace.locate config.workspaceRoot address).binaryDir.Inside made.workingDirectory l)
    (hbefore : ∀ l,
      (Workspace.locate config.workspaceRoot address).sourceDir.Inside made.workingDirectory l →
        d.lookup l = made.lookup l)
    (hgenerator : k.generator.Overlooks made.workingDirectory
      (leftBy made.workingDirectory (Workspace.locate config.workspaceRoot address) d
        (develop k' config address (Workspace.locate config.workspaceRoot address) stored).2 kind)
      (fun l e => (Workspace.locate config.workspaceRoot address).binaryDir.Inside
        made.workingDirectory l ∧ kind e)
      (Description.request address (Workspace.locate config.workspaceRoot address)))
    (htoolchain : k.toolchain.IgnoresOutput kind) :
    (outcome k config address
        (develop k' config address (Workspace.locate config.workspaceRoot address) stored).2).1 =
      (finish k config address (Workspace.locate config.workspaceRoot address) made).1 := by
  have hsources : ∀ l ∈ config.workspaceRoot.way made.workingDirectory,
      ¬ (Workspace.locate config.workspaceRoot address).sourceDir.Inside made.workingDirectory l :=
    fun l hl hinside => hroot l hl (Workspace.inside_root_of_sourceDir hinside)
  have hbinaries : ∀ l ∈ config.workspaceRoot.way made.workingDirectory,
      ¬ (Workspace.locate config.workspaceRoot address).binaryDir.Inside made.workingDirectory l :=
    fun l hl hinside => hroot l hl (Workspace.inside_root_of_binaryDir hinside)
  obtain ⟨hwell, hfree, hstored⟩ := stored_frame h hlinks hwrite
  have hwd := hstored.workingDirectory
  obtain ⟨hwell', hleft⟩ := develop_frame config address hk'.generator
    hk'.toolchain hwell (hfree.linklessAt _) (hfree.linklessAt _)
    fun l => Workspace.not_inside_sourceDir_of_names_binaryDir (hwd ▸ hsources)
  rw [← hwd] at hleft
  generalize (develop k' config address (Workspace.locate config.workspaceRoot address) stored).2 = d'
    at *
  -- the workspace is still prepared, and the address reads the same
  have hshown := shown_touched hroot
  have htouched : Twins made.workingDirectory (Hiding.at (Touched made.workingDirectory
      (Workspace.locate config.workspaceRoot address))) made d' :=
    ⟨h, hwell', rfl, .of_linkless hlinks _,
      (hstored.mono fun l e => .inl).trans (hleft.mono fun l e => touched_of_leftovers)⟩
  have hagain : outcome k config address d' =
      finish k config address (Workspace.locate config.workspaceRoot address) d' := by
    rw [outcome_eq_ensure k config address (htouched.symm.linkFree hshown.way_sourceDir)
        (htouched.symm.linkFree hshown.way_binaryDir), hrefused,
      (hprepared.of_alike htouched.alike htouched.clear hshown).ensure]
  have hfetch : Description.fetch k.web address made = Description.fetch k.web address d' :=
    Description.fetch_twins htouched k.web fun hweb l hl => Hiding.shows_at.2 fun h =>
      haddress hweb l hl (inside_root_of_touched h)
  -- the description is not among the sources, so that storing it hides none of them
  have htwins : Twins made.workingDirectory (leftBy made.workingDirectory
      (Workspace.locate config.workspaceRoot address) d d' kind) stored d' := by
    refine twins_leftBy hwell hwell' hfree hwd.symm hleft fun l hinside => ?_
    rw [hbefore l hinside]
    exact hstored.lookup_of_shows (Hiding.shows_at.2 fun heq =>
      Workspace.not_inside_sourceDir_of_names_document hsources (.inr (heq ▸ List.prefix_refl _))
        hinside)
  have hdocument : ∀ l ∈ (Workspace.locate config.workspaceRoot address).document.way
      made.workingDirectory, (leftBy made.workingDirectory
        (Workspace.locate config.workspaceRoot address) d d' kind).Shows l := by
    rintro l hl e (⟨hinside, -⟩ | ⟨hinside, -⟩)
    · exact Workspace.not_inside_sourceDir_of_names_document hsources (.inl hl) hinside
    · exact Workspace.not_inside_binaryDir_of_names_document hbinaries (.inl hl) hinside
  rw [hagain]
  exact finish_after_stored h hlinks hwrite htwins hdocument hfetch fun s₁ s₂ hs =>
    develop_of_overlooks hbinaries hincludes hgenerator htoolchain hs

end

/-- After an attempt with other collaborators a client is made as if there had not been one, if what
the attempt left is overlooked by the generator and the toolchain. -/
theorem outcome_after_attempt {k' : Collaborators World'} {k : Collaborators World}
    (hk' : k'.Confined kind) (h : d.WellFormed) (hlinks : d.Linkless)
    (hroot : ∀ l ∈ config.workspaceRoot.way d.workingDirectory,
      ¬ (Workspace.locate config.workspaceRoot address).root.Inside d.workingDirectory l)
    (haddress : Description.isWebAddress address = false →
      ∀ l ∈ (Description.filePath address).way d.workingDirectory,
        ¬ (Workspace.locate config.workspaceRoot address).root.Inside d.workingDirectory l)
    (hincludes : ∀ l, Path.Name d.workingDirectory config.includePaths l →
      ¬ (Workspace.locate config.workspaceRoot address).binaryDir.Inside d.workingDirectory l)
    (hgenerator : Generates k' config address d →
      k.generator.Overlooks d.workingDirectory
        (leftBy d.workingDirectory (Workspace.locate config.workspaceRoot address) d
          (outcome k' config address d).2 kind)
        (fun l e => (Workspace.locate config.workspaceRoot address).binaryDir.Inside
          d.workingDirectory l ∧ kind e)
        (Description.request address (Workspace.locate config.workspaceRoot address)))
    (htoolchain : Generates k' config address d → k.toolchain.IgnoresOutput kind) :
    SameButReason config.workspaceRoot
      (outcome k config address (outcome k' config address d).2).1
      (outcome k config address d).1 := by
  have hsource := hlinks.linkFree
    ((Workspace.locate config.workspaceRoot address).sourceDir.way d.workingDirectory)
  have hbinary := hlinks.linkFree
    ((Workspace.locate config.workspaceRoot address).binaryDir.way d.workingDirectory)
  have hattempt := outcome_eq_ensure k' config address hsource hbinary
  cases hrefused : Workspace.refusal? config.workspaceRoot address with
  | some e =>
    rw [hrefused] at hattempt
    rw [hattempt]
    exact .inl rfl
  | none =>
    rw [hrefused] at hattempt
    dsimp only at hattempt
    have hgrows := Workspace.grows_ensure d config.workspaceRoot address
    have hwell := Workspace.wellFormed_ensure h config.workspaceRoot address
    -- an attempt that ends before the description is stored has created what is created anyway
    have hunstored (hdisk : (outcome k' config address d).2 =
        (Workspace.ensure d config.workspaceRoot address).2) :
        SameButReason config.workspaceRoot
          (outcome k config address (outcome k' config address d).2).1
          (outcome k config address d).1 := by
      rw [hdisk]
      exact (outcome_of_ensure (hgrows.linkless hlinks) hlinks hrefused
        (Workspace.ensure_again d config.workspaceRoot address)
        fun hback => Workspace.ensure_again_of_names h hback address).1
    rcases hmade : Workspace.ensure d config.workspaceRoot address with ⟨e | _, made⟩
    · rw [hmade] at hattempt hunstored
      exact hunstored (congrArg Prod.snd hattempt)
    · rw [hmade] at hattempt hunstored hgrows hwell
      dsimp only at hattempt hgrows hwell
      obtain ⟨e, hfinish⟩ | ⟨content, stored, hfetch, hwrite, hfinish⟩ := finish_cases k' config address
        (Workspace.locate config.workspaceRoot address) made
      · exact hunstored (by rw [hattempt, hfinish])
      · have hwd := hgrows.workingDirectory
        have hprepared : Workspace.prepare d config.workspaceRoot address =
            (.ok (Workspace.locate config.workspaceRoot address), made) := by
          rw [Workspace.prepare_eq hsource hbinary, hrefused, hmade]
          rfl
        have hgenerates := generates_of_stored hprepared hfetch hwrite
        have hafter : outcome k' config address d = develop k' config address
            (Workspace.locate config.workspaceRoot address) stored := hattempt.trans hfinish
        have halone : outcome k config address d =
            finish k config address (Workspace.locate config.workspaceRoot address) made := by
          rw [outcome_eq_ensure k config address hsource hbinary, hrefused, hmade]
        rw [hafter] at hgenerator ⊢
        rw [halone]
        have hbefore (l : Location) (hl : (Workspace.locate config.workspaceRoot address).sourceDir.Inside
            made.workingDirectory l) : made.lookup l = d.lookup l := by
          rw [hwd] at hl
          have hsame := lookup_ensure_of_touched hroot (.inr (.inl hl))
          rwa [hmade] at hsame
        rw [← hwd] at hroot haddress hincludes hgenerator
        exact .inl (outcome_after_develop hk' hwell (hgrows.linkless hlinks) hrefused
          (Workspace.isPrepared_of_ensure hmade) hwrite hroot haddress hincludes
          (fun l hl => (hbefore l hl).symm) (hgenerator hgenerates) (htoolchain hgenerates))

/-! ## Attempts that fail -/

/-- Without a transport no client is made. -/
theorem exists_error_of_factory {k : Collaborators World} {e : IoError} (hk : k.factory = .error e)
    (config : Configuration) (address : String) (d : Disk) :
    ∃ e', (outcome k config address d).1 = .error e' := by
  have hassemble (w : Workspace) (artifacts : List Path) (model : Declarations) (d : Disk) :
      ∃ e', assemble k config address w artifacts model d = .error e' := by
    unfold assemble
    rw [hk]
    split <;> exact ⟨_, rfl⟩
  rw [outcome_eq]
  split
  · exact ⟨_, rfl⟩
  · unfold finish develop
    split
    · exact ⟨_, rfl⟩
    · split
      · exact ⟨_, rfl⟩
      · split
        · exact ⟨_, rfl⟩
        · exact hassemble _ _ _ _

/-- Collaborators that start anew without a transport. -/
def stranded : Collaborators Unit := .renewing ⟨[], []⟩ .empty (.error .notFound)

/-- An attempt that fails at the end, and another one that starts anew. -/
theorem outcome_after_attempt_anew :
    (∃ e, (outcome stranded plainly "http://a" Disk.empty).1 = .error e) ∧
      (outcome anew plainly "http://a" (outcome stranded plainly "http://a" Disk.empty).2).1 =
        (outcome anew plainly "http://a" Disk.empty).1 := by
  refine ⟨exists_error_of_factory rfl _ _ _, ?_⟩
  have hroot := (free_plainly "http://a").apart
  have hconfined : stranded.Confined fun _ => True := Collaborators.renewing_confined _ _ _
  have hback : ".." ∉ plainly.workspaceRoot.steps := by decide
  have hafter := @outcome_after_attempt Unit Unit (fun _ => True) Disk.empty plainly "http://a"
    stranded anew hconfined Disk.wellFormed_empty Disk.linkless_empty hroot
    (fun hweb => absurd hweb (by decide)) fun l hl => absurd hl not_name_plainly
  refine (hafter (fun _ => ?_) fun _ => Toolchain.renewing_ignoresOutput (by decide) _ _).resolve_right
    fun hleads => hback hleads.1
  refine Generator.renewing_overlooks (by decide) _ _ ?_ ?_ ?_
  · rintro e (⟨hinside, -⟩ | ⟨hinside, -⟩)
    · exact hinside.2 rfl
    · exact Workspace.not_inside_binaryDir_of_names_sourceDir
        (fun l hl hinside => hroot l hl (Workspace.inside_root_of_binaryDir hinside))
        (.inr (List.prefix_refl _)) hinside
  · exact fun hinside => hinside.ne_nil rfl
  · exact fun l e hleft hinside => hleft.resolve_left fun hsources => hinside hsources.1

/-! ## Sources that are left -/

/-- The directory of sources can be emptied for a file, and then nothing is in the way, either. -/
theorem exists_renew {stored : Disk} {root : Path} (hfree : Workspace.Free stored root address)
    (hprepared : Workspace.IsPrepared stored root address)
    (hapart : ¬ (Workspace.locate root address).sourceDir.Inside stored.workingDirectory
      stored.workingDirectory) {n : String} (hn : IsName n) (content : Bytes) :
    ∃ left, stored.renew? (Workspace.locate root address).sourceDir n content = some left ∧
      Workspace.Free left root address ∧ Workspace.IsPrepared left root address ∧
      left.workingDirectory = stored.workingDirectory ∧
      Alike (Hiding.at ((Workspace.locate root address).sourceDir.Inside stored.workingDirectory))
        stored left ∧ left.HoldsOnly (Workspace.locate root address).sourceDir n content := by
  obtain ⟨left, hleft⟩ := Disk.exists_renew hprepared.lookup_sourceDir hapart n content
  have hroot := hfree.apart
  have halike := Disk.alike_renew hleft
  have htouched : Alike (Hiding.at (Touched stored.workingDirectory (Workspace.locate root address)))
      stored left := halike.mono fun l e hinside => .inr (.inl hinside)
  have hdocument : ∀ e, left.lookup (Workspace.location stored.workingDirectory root address ++
      [Workspace.documentName]) = some e → e.isFile = true := by
    have hshows : ¬ (Workspace.locate root address).sourceDir.Inside stored.workingDirectory
        ((Workspace.locate root address).document.place stored.workingDirectory) :=
      Workspace.not_inside_sourceDir_of_names_document
        (fun l hl hinside => hroot l hl (Workspace.inside_root_of_sourceDir hinside))
        (.inr (List.prefix_refl _))
    rw [← Workspace.place_document, ← halike.lookup_of_shows (Hiding.shows_at.2 hshows),
      Workspace.place_document]
    exact hfree.document
  refine ⟨left, hleft, hfree.of_alike (hfree.wellFormed.renew hn hleft) (hfree.linkless.renew hleft)
    htouched hdocument, hprepared.of_alike htouched (.of_linkless hfree.linkless _)
    (shown_touched hroot), Disk.workingDirectory_renew hleft, halike, Disk.holdsOnly_renew hleft⟩

/-- What a toolchain's run comes to. -/
def settle (k : Collaborators World) (config : Configuration) (address : String) (w : Workspace)
    (model : Declarations) :
    Except IoError CompileOutcome × Disk → Except InitError (Client World) × Disk
  | (.error e, d) => (.error (.build (.toolchain e)), d)
  | (.ok outcome, d) => match Build.verdict outcome with
    | .error e => (.error (.build e), d)
    | .ok artifacts => (assemble k config address w artifacts model d, d)

/-- With a source the toolchain is run, and what its run comes to is the outcome. -/
theorem exists_develop_of_source {k : Collaborators World} (config : Configuration)
    {stored left : Disk} {model : Declarations} {n : String} {content : Bytes} {executable : Bool}
    (hgenerator : k.generator (Description.request address
      (Workspace.locate config.workspaceRoot address)) stored = (.ok model, left))
    (hwell : left.WellFormed) (hprepared : Workspace.IsPrepared left config.workspaceRoot address)
    (hrefused : Workspace.refusal? config.workspaceRoot address = none)
    (hflat : ∀ l, (Workspace.locate config.workspaceRoot address).sourceDir.Inside
      left.workingDirectory l → left.lookup l ≠ some .directory)
    (hn : IsName n) (hextension : Path.extensionOf? n = some (Path.ofText k.toolchain.sourceExtension))
    (hmarker : ∀ s, k.toolchain.isMarker s = false)
    (hfile : left.lookup ((Workspace.locate config.workspaceRoot address).sourceDir.place
      left.workingDirectory ++ [n]) = some (.file content executable)) :
    ∃ sources, develop k config address (Workspace.locate config.workspaceRoot address) stored =
      settle k config address (Workspace.locate config.workspaceRoot address) model
        (k.toolchain.compile (Build.request sources
          (Workspace.locate config.workspaceRoot address).sourceDir
          (Workspace.locate config.workspaceRoot address).binaryDir config.includePaths) left) := by
  obtain ⟨sources, hscan, hmem⟩ := Build.exists_scan_of_file hprepared.leadsTo_sourceDir
    Workspace.sourceDir_ne_empty hrefused k.toolchain hwell hflat hn hextension (fun s _ => hmarker s)
    hfile
  refine ⟨sources, ?_⟩
  unfold develop Build.run
  rw [hgenerator]
  dsimp only
  rw [hscan]
  cases sources with
  | nil => exact absurd hmem List.not_mem_nil
  | cons source rest =>
    unfold settle
    dsimp only
    generalize k.toolchain.compile _ left = compiled
    obtain ⟨e | outcome, d'⟩ := compiled
    · rfl
    · dsimp only
      cases Build.verdict outcome <;> rfl

/-- With a source and without a toolchain the build fails. -/
theorem develop_of_source {k : Collaborators World} {stored d' : Disk} {model : Declarations}
    {n : String} {content : Bytes} (hk : k.toolchain = .absent)
    (hgenerator : k.generator (Description.request address
      (Workspace.locate config.workspaceRoot address)) stored = (.ok model, d'))
    (hfree : Workspace.Free d' config.workspaceRoot address)
    (hprepared : Workspace.IsPrepared d' config.workspaceRoot address) (hn : IsName n)
    (hextension : Path.extensionOf? n = some "proto")
    (honly : d'.HoldsOnly (Workspace.locate config.workspaceRoot address).sourceDir n content) :
    develop k config address (Workspace.locate config.workspaceRoot address) stored =
      (.error (.build (.toolchain .notFound)), d') := by
  have hproto : "proto" = Path.ofText k.toolchain.sourceExtension := by
    rw [hk]
    decide +kernel
  obtain ⟨sources, hdevelop⟩ := exists_develop_of_source config hgenerator hfree.wellFormed hprepared
    hfree.refusal?_sourceDir (fun _ => honly.lookup_ne) hn (hproto ▸ hextension) (fun s => hk ▸ rfl)
    honly.lookup_file
  rw [hdevelop, hk]
  rfl

theorem extensionOf?_service : Path.extensionOf? "service.proto" = some (Path.ofText "proto") := by
  decide +kernel

/-- Collaborators that leave a link beside a source and read what it leads to. -/
def importing (target : Path) : Collaborators Unit :=
  { anew with generator := .linking target, toolchain := .importing }

/-- What is imported through the link is up to its target. -/
theorem outcome_importing (target : Path) (config : Configuration)
    (hfree : Workspace.Free d config.workspaceRoot address)
    (hweb : Description.isWebAddress address = true)
    (hapart : ¬ (Workspace.locate config.workspaceRoot address).sourceDir.Inside d.workingDirectory
      d.workingDirectory) (habsolute : Path.isAbsolute target = true) (htarget : target.refusal? = none) :
    ∃ made stored left, Workspace.Stored d config.workspaceRoot address [] made stored ∧
      stored.relink? (Workspace.locate config.workspaceRoot address).sourceDir target = some left ∧
      Workspace.IsPrepared left config.workspaceRoot address ∧
      (left.LinkFree (target.way left.workingDirectory) →
        (∀ content, left.read target = .ok content →
          ∃ c, (outcome (importing target) config address d).1 = .ok c) ∧
        ∀ e, left.read target = .error e →
          (outcome (importing target) config address d).1 = .error (.build (.toolchain e))) := by
  obtain ⟨made, stored, hstored⟩ := hfree.exists_stored []
  rw [← hstored.workingDirectory] at hapart
  obtain ⟨left, hleft⟩ := Disk.exists_relink hstored.prepared.lookup_sourceDir hapart target
  have halike := Disk.alike_relink hleft
  have hprepared : Workspace.IsPrepared left config.workspaceRoot address :=
    hstored.prepared.of_alike (halike.mono fun l e hinside => .inr (.inl hinside))
      (.of_linkless hstored.free.linkless _) (shown_touched hstored.free.apart)
  refine ⟨made, stored, left, hstored, hleft, hprepared, fun hlinks => ?_⟩
  have hread := Disk.read_relink hleft hprepared.leadsTo_sourceDir
    (hstored.free.refusal?_join (n := Workspace.sourceName) (by decide) (by decide) (by decide)
      (by decide) (by decide)) habsolute htarget hlinks
  have hgenerator : (importing target).generator (Description.request address
      (Workspace.locate config.workspaceRoot address)) stored = (.ok ⟨[], []⟩, left) := by
    unfold importing Generator.linking Description.request
    dsimp only
    rw [hleft]
  obtain ⟨sources, hdevelop⟩ := exists_develop_of_source (n := "service.proto") config hgenerator
    (hstored.free.wellFormed.relink hleft) hprepared hstored.free.refusal?_sourceDir
    (halike.workingDirectory ▸ fun l => Disk.lookup_relink_ne hleft) (by decide)
    extensionOf?_service (fun _ => rfl)
    (by rw [Disk.lookup_relink hleft, halike.workingDirectory, if_neg (by simp), if_pos rfl])
  have hfetch : Description.fetch (importing target).web address made = .ok [] := if_pos hweb
  rw [hstored.outcome_eq hfetch, hdevelop]
  unfold importing Toolchain.importing Build.request
  dsimp only
  rw [hread]
  constructor
  · intro content hcontent
    rw [hcontent]
    exact ⟨_, rfl⟩
  · intro e herror
    rw [herror]
    rfl

/-- Collaborators that leave a source but have no toolchain. -/
def stale : Collaborators Unit where
  web _ := .ok []
  generator := .renewing "stale.proto" [] ⟨[], []⟩
  toolchain := .absent
  host := .empty
  factory := .ok refusing

/-- Collaborators that need no toolchain, as they make no sources. -/
def sourceless : Collaborators Unit := { stale with generator := fun _ d => (.ok ⟨[], []⟩, d) }

/-- A source that a failed attempt has left is built by the next one, which fails for it. -/
theorem outcome_after_attempt_stale :
    (outcome stale plainly "http://a" Disk.empty).1 = .error (.build (.toolchain .notFound)) ∧
      (outcome sourceless plainly "http://a" (outcome stale plainly "http://a" Disk.empty).2).1 =
        .error (.build (.toolchain .notFound)) ∧
      ∃ c, (outcome sourceless plainly "http://a" Disk.empty).1 = .ok c := by
  obtain ⟨made, stored, hstored⟩ := (free_plainly "http://a").exists_stored []
  have hfree := hstored.free
  -- the source is put in the directory, which is still prepared
  obtain ⟨left, hleft, hkept, hprepared, hwd, -, honly⟩ := exists_renew hfree hstored.prepared
    (fun hinside => hinside.ne_nil hstored.workingDirectory) (n := "stale.proto") (by decide) []
  have hattempt : outcome stale plainly "http://a" Disk.empty =
      (.error (.build (.toolchain .notFound)), left) := by
    have hgenerator : stale.generator (Description.request "http://a"
        (Workspace.locate plainly.workspaceRoot "http://a")) stored = (.ok ⟨[], []⟩, left) :=
      Generator.renewing_eq hleft
    rw [hstored.outcome_eq rfl]
    exact develop_of_source rfl hgenerator hkept hprepared (by decide) (by decide) honly
  obtain ⟨made', stored', hstored'⟩ := hkept.exists_stored []
  have honly' : stored'.HoldsOnly (Workspace.locate plainly.workspaceRoot "http://a").sourceDir
      "stale.proto" [] := by
    intro l hl
    rw [hstored'.workingDirectory] at hl ⊢
    rw [hstored'.lookup l (.inl hl), honly l hl]
  have hscan : Build.scan stored sourceless.toolchain
      (Workspace.locate plainly.workspaceRoot "http://a").sourceDir = .ok [] := by
    refine hfree.scan_eq_nil hstored.prepared _ fun l hl => ?_
    rw [hstored.workingDirectory] at hl
    rw [hstored.lookup l (.inl hl), Disk.lookup_empty hl.ne_nil]
  refine ⟨congrArg Prod.fst hattempt, ?_, ?_⟩
  · rw [hattempt, hstored'.outcome_eq rfl, develop_of_source rfl rfl hstored'.free hstored'.prepared
      (by decide) (by decide) honly']
  · rw [hstored.outcome_eq rfl, develop_of_no_sources rfl hscan]
    exact ⟨_, rfl⟩

end Client

end ServiceCall
