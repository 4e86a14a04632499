import ServiceCall.Proofs.Client.Retry
import ServiceCall.Proofs.Registry.Load
/-!
# Binaries of earlier runs

What a run loads is what its own build reports. Binaries that earlier runs left are there when a
client is made, but neither the order of the stages nor the load looks at them: if the generator and
the toolchain overlook them, too, the client is the same without them, and a build without sources loads
nothing whatever is there (`Client.init_of_leftovers`). What looks at them all the same is the generator,
what reads through a link that it leaves, or what is named for the client: an address, a root or an
included path may lead into the directory of binaries (`Client.init_of_leftovers_seen`).
-/

namespace ServiceCall

open Disk (Twins Alike)

/-- The disks are without links and differ only in what is left below the directory of binaries, in
entries of a kind. -/
structure Workspace.SameButBinaries (kind : Option Entry → Prop) (root : Path) (address : String)
    (d₁ d₂ : Disk) : Prop where
  left : d₁.WellFormed
  right : d₂.WellFormed
  linkless : d₁.Linkless
  alike : Alike (fun l e => (locate root address).binaryDir.Inside d₁.workingDirectory l ∧ kind e) d₁ d₂

/-- Nothing that is named for a client leads to what is below its directory of binaries: neither the
root, nor a description that is a file, nor what is included. -/
structure Configuration.Apart (config : Configuration) (address : String) (wd : Location) : Prop where
  root : ∀ l ∈ config.workspaceRoot.way wd,
    ¬ (Workspace.locate config.workspaceRoot address).binaryDir.Inside wd l
  description : Description.isWebAddress address = false →
    ∀ l ∈ (Description.filePath address).way wd,
      ¬ (Workspace.locate config.workspaceRoot address).binaryDir.Inside wd l
  includes : ∀ l, Path.Name wd config.includePaths l →
    ¬ (Workspace.locate config.workspaceRoot address).binaryDir.Inside wd l

/-- What is left below the directory of binaries hides no directory of the workspace. -/
theorem Workspace.shown_of_inside_binaryDir {wd : Location} {root : Path} {address : String}
    {hidden : Hiding} (hroot : ∀ l ∈ root.way wd, ¬ (locate root address).binaryDir.Inside wd l)
    (hhidden : ∀ l e, hidden l e → (locate root address).binaryDir.Inside wd l) :
    Shown hidden wd root address := by
  have hsources (l : Location) (hl : (locate root address).sourceDir.Names wd l) : hidden.Shows l :=
    fun e h => not_inside_binaryDir_of_names_sourceDir hroot hl (hhidden l e h)
  refine ⟨fun l hl e h => hroot l hl (hhidden l e h), ?_, ?_, fun e h => ?_⟩
  · exact hsources _ (names_sourceDir.2 (.inr (.inl rfl)))
  · exact hsources _ (names_sourceDir.2 (.inr (.inr (List.prefix_refl _))))
  · exact (hhidden _ e h).2 place_binaryDir

namespace Client

variable {World : Type}

/-- Without sources nothing is loaded but the host's definitions. -/
theorem init_of_no_sources {k : Collaborators World} {config : Configuration} {address : String}
    {d made after : Disk} {w : Workspace} {run : Option Description.Generated} {model : Declarations}
    (hprepare : Workspace.prepare d config.workspaceRoot address = (.ok w, made))
    (hgenerate : Description.generate k.web k.generator address w made = (.ok model, run, after))
    (hscan : Build.scan after k.toolchain w.sourceDir = .ok []) :
    (init k config address d).2.1.getLast? = some (.loaded []) ∧
      ∀ c, (init k config address d).1 = .ok c → c.registry.pool = k.host := by
  have hrun : Build.run k.toolchain config.includePaths w.sourceDir w.binaryDir after =
      (.ok [], [], after) := by
    unfold Build.run
    rw [hscan]
  unfold init
  simp only [hprepare, hgenerate, hrun]
  refine ⟨List.getLast?_concat, fun c hc => ?_⟩
  unfold assemble at hc
  split at hc
  · cases hc
  · next registry hload =>
    split at hc
    · cases hc
    · obtain rfl := Except.ok.inj hc
      exact Registry.pool_of_load_nil hload

/-- It comes to the same error, or to clients with the same registry. -/
def SameOutcome (o₁ o₂ : Except InitError (Client World)) : Prop :=
  (∃ e, o₁ = .error e ∧ o₂ = .error e) ∨
    ∃ c₁ c₂, o₁ = .ok c₁ ∧ o₂ = .ok c₂ ∧ c₁.registry = c₂.registry

theorem sameOutcome_of_eq {o₁ o₂ : Except InitError (Client World)} (h : o₁ = o₂) :
    SameOutcome o₁ o₂ := by
  subst h
  cases o₁ with
  | error e => exact .inl ⟨e, rfl, rfl⟩
  | ok c => exact .inr ⟨c, c, rfl, rfl, rfl⟩

/-! ## A disk with a file among the binaries -/

/-- Nothing or a file. -/
def NoneOrFile (e : Option Entry) : Prop :=
  ∀ e', e = some e' → ∃ content executable, e' = .file content executable

/-- A disk with the directories of an endpoint at its top, and nothing in them. -/
def emptied (wd : Location) (address : String) : Disk :=
  ⟨wd, [([endpointKey address, "bin"], .directory), ([endpointKey address], .directory)]⟩

/-- The same with a file among the binaries. -/
def leaving (wd : Location) (address : String) : Disk :=
  (emptied wd address).set [endpointKey address, "bin", "old"] (.file [] false)

section

variable {wd : Location} {address : String}

theorem lookup_emptied (l : Location) : (emptied wd address).lookup l =
    if l = [] ∨ l = [endpointKey address] ∨ l = [endpointKey address, "bin"] then some .directory
    else none := by
  unfold emptied Disk.lookup
  simp only [Disk.find?]
  by_cases hnil : l = []
  · simp [hnil]
  by_cases hbin : l = [endpointKey address, "bin"]
  · simp [hbin]
  by_cases hroot : l = [endpointKey address]
  · simp [hroot]
  · simp [hnil, hroot, hbin, Ne.symm hroot, Ne.symm hbin]

theorem lookup_leaving (l : Location) : (leaving wd address).lookup l =
    if l = [endpointKey address, "bin", "old"] then some (.file [] false)
    else (emptied wd address).lookup l :=
  Disk.lookup_set _ (by simp) _ _

variable (hwd : wd = [] ∨ wd = [endpointKey address, "bin"])

include hwd in
theorem wellFormed_emptied : (emptied wd address).WellFormed where
  nodup := by simp [emptied]
  nonempty := by simp [emptied]
  names := by
    have hbin : IsName "bin" := by decide
    simp [emptied, isName_endpointKey, hbin]
  parents x hx := by
    rw [lookup_emptied]
    obtain rfl | rfl : x = ([endpointKey address, "bin"], .directory) ∨
        x = ([endpointKey address], .directory) := by
      simpa [emptied] using hx
    all_goals simp
  workingDirectory := by
    have hworking : (emptied wd address).lookup wd = some .directory := by
      rw [lookup_emptied]
      obtain rfl | rfl := hwd <;> simp
    exact hworking

include hwd in
theorem wellFormed_leaving : (leaving wd address).WellFormed := by
  refine (wellFormed_emptied hwd).set (l := [endpointKey address, "bin"]) (n := "old") ?_ (by decide)
    fun hdirectory => ?_
  · simp [lookup_emptied]
  · simp [lookup_emptied] at hdirectory

theorem linkless_emptied : (emptied wd address).Linkless := by
  intro l t
  rw [lookup_emptied]
  split <;> simp

theorem linkless_leaving : (leaving wd address).Linkless := by
  intro l t
  rw [lookup_leaving]
  split
  · simp
  · exact linkless_emptied l t

/-- The file is below the directory of binaries. -/
theorem inside_binaryDir {root : Path} (hroot : Workspace.location wd root address = [endpointKey address]) :
    (Workspace.locate root address).binaryDir.Inside wd [endpointKey address, "bin", "old"] := by
  rw [Path.Inside, Workspace.place_binaryDir, hroot]
  exact ⟨⟨["old"], rfl⟩, by simp⟩

/-- The disks differ only in the file, whatever root leads to the top. -/
theorem sameButBinaries {root : Path}
    (hroot : Workspace.location wd root address = [endpointKey address])
    (hwd : wd = [] ∨ wd = [endpointKey address, "bin"]) :
    Workspace.SameButBinaries NoneOrFile root address (emptied wd address) (leaving wd address) := by
  refine ⟨wellFormed_emptied hwd, wellFormed_leaving hwd, linkless_emptied, rfl, fun l => ?_⟩
  rw [lookup_leaving]
  split
  next hl =>
    subst hl
    have hinside := inside_binaryDir hroot
    refine .inr ⟨⟨hinside, ?_⟩, hinside, ?_⟩
    · rw [lookup_emptied]
      intro e he
      simp at he
    · intro e he
      exact ⟨[], false, (Option.some.inj he).symm⟩
  next => exact .inl rfl

/-- Nothing is in the way of the endpoint. -/
theorem free_of_lookup_emptied {d : Disk} (hwell : d.WellFormed) (hlinks : d.Linkless)
    (hlookup : ∀ l, l.length ≤ 2 → d.lookup l = (emptied wd address).lookup l) :
    Workspace.Free d aloft.workspaceRoot address := by
  refine free_aloft hwell hlinks (fun l hl => ?_) ?_
  · have hlength : l.length ≤ 2 := by obtain rfl | rfl | rfl := hl <;> simp
    rw [hlookup l hlength, lookup_emptied]
    split
    · exact .inr rfl
    · exact .inl rfl
  · rw [hlookup _ (by simp), lookup_emptied]
    simp [Workspace.documentName]

theorem free_emptied (hwd : wd = [] ∨ wd = [endpointKey address, "bin"]) :
    Workspace.Free (emptied wd address) aloft.workspaceRoot address :=
  free_of_lookup_emptied (wellFormed_emptied hwd) linkless_emptied fun _ _ => rfl

theorem free_leaving (hwd : wd = [] ∨ wd = [endpointKey address, "bin"]) :
    Workspace.Free (leaving wd address) aloft.workspaceRoot address := by
  have hlookup (l : Location) (hl : l.length ≤ 2) :
      (leaving wd address).lookup l = (emptied wd address).lookup l := by
    rw [lookup_leaving, if_neg]
    rintro rfl
    simp at hl
  exact free_of_lookup_emptied (wellFormed_leaving hwd) linkless_leaving hlookup

/-- There are no sources on the disks. -/
theorem lookup_of_inside_sourceDir {d : Disk} (hd : d = emptied wd address ∨ d = leaving wd address)
    {l : Location} (hl : (Workspace.locate aloft.workspaceRoot address).sourceDir.Inside wd l) :
    d.lookup l = none := by
  rw [Path.Inside, Workspace.place_sourceDir, location_aloft] at hl
  obtain ⟨⟨rest, rfl⟩, -⟩ := hl
  obtain rfl | rfl := hd
  · rw [lookup_emptied]
    simp [Workspace.sourceName]
  · rw [lookup_leaving, lookup_emptied]
    simp [Workspace.sourceName]

end

/-! ## A generator that sees it -/

/-- The generator that fails if there is something at a location. -/
def prying (l : Location) : Generator := fun _ d =>
  match d.lookup l with
  | some _ => (.error (.other "in the way"), d)
  | none => (.ok ⟨[], []⟩, d)

theorem absent_ignoresOutput (kind : Option Entry → Prop) : Toolchain.absent.IgnoresOutput kind :=
  fun _ _ _ _ _ => ⟨rfl, fun _ h => by cases h⟩

/-- No sources are found before any are generated. -/
theorem scan_stored {wd : Location} {address : String} {d made stored : Disk} {content : Bytes}
    (hd : d = emptied wd address ∨ d = leaving wd address)
    (hstored : Workspace.Stored d aloft.workspaceRoot address content made stored) (t : Toolchain) :
    Build.scan stored t (Workspace.locate aloft.workspaceRoot address).sourceDir = .ok [] := by
  have hwd : d.workingDirectory = wd := by obtain rfl | rfl := hd <;> rfl
  refine hstored.free.scan_eq_nil hstored.prepared t fun l hl => ?_
  rw [hstored.workingDirectory] at hl
  rw [hstored.lookup l (.inl hl)]
  exact lookup_of_inside_sourceDir hd (hwd ▸ hl)

/-- Without sources and with a generator that succeeds a client is made. -/
theorem exists_made {k : Collaborators Unit} (hk : k = { sourceless with generator := k.generator })
    {wd : Location} {address : String} {d made stored : Disk} {content : Bytes}
    (hd : d = emptied wd address ∨ d = leaving wd address)
    (hstored : Workspace.Stored d aloft.workspaceRoot address content made stored)
    (hfetch : Description.fetch k.web address made = .ok content)
    (hgenerator : k.generator (Description.request address
      (Workspace.locate aloft.workspaceRoot address)) stored = (.ok ⟨[], []⟩, stored)) :
    ∃ c, (outcome k aloft address d).1 = .ok c := by
  rw [hstored.outcome_eq hfetch, develop_of_no_sources hgenerator (scan_stored hd hstored _)]
  unfold assemble
  rw [hk]
  exact ⟨_, rfl⟩

theorem not_sameOutcome {o₁ o₂ : Except InitError (Client Unit)} {e : InitError}
    (h : o₁ ≠ .error e ∧ o₂ = .error e ∨ o₁ = .error e ∧ o₂ ≠ .error e) : ¬ SameOutcome o₁ o₂ := by
  rintro (⟨e', h₁, h₂⟩ | ⟨c₁, c₂, h₁, h₂, -⟩)
  · rw [h₁, h₂] at h
    obtain ⟨hne, heq⟩ | ⟨heq, hne⟩ := h
    · exact hne heq
    · exact hne heq
  · rw [h₁, h₂] at h
    obtain ⟨-, heq⟩ | ⟨heq, -⟩ := h <;> cases heq

/-- The file matters: the outcome is another one if it is there, though the toolchain ignores it. -/
structure Matters (k : Collaborators Unit) (config : Configuration) (address : String) (wd : Location) :
    Prop where
  same : Workspace.SameButBinaries NoneOrFile config.workspaceRoot address (emptied wd address)
    (leaving wd address)
  toolchain : k.toolchain.IgnoresOutput NoneOrFile
  differs : ¬ SameOutcome (init k config address (emptied wd address)).1
    (init k config address (leaving wd address)).1

/-- Collaborators that make no sources, with that generator. -/
def seeing (address : String) : Collaborators Unit :=
  { sourceless with generator := prying [endpointKey address, "bin", "old"] }

theorem matters_seeing {address : String} (hweb : Description.isWebAddress address = true) :
    Matters (seeing address) aloft address [] := by
  refine ⟨sameButBinaries location_aloft (.inl rfl), absent_ignoresOutput _, ?_⟩
  have hold {d made stored : Disk}
      (hstored : Workspace.Stored d aloft.workspaceRoot address [] made stored) :
      stored.lookup [endpointKey address, "bin", "old"] =
        d.lookup [endpointKey address, "bin", "old"] :=
    hstored.lookup _ (.inr (inside_binaryDir location_aloft))
  rw [← outcome_fst, ← outcome_fst]
  have hfree : Workspace.Free (emptied [] address) aloft.workspaceRoot address :=
    free_emptied (.inl rfl)
  have hfree' : Workspace.Free (leaving [] address) aloft.workspaceRoot address :=
    free_leaving (.inl rfl)
  obtain ⟨made, stored, hstored⟩ := hfree.exists_stored []
  obtain ⟨made', stored', hstored'⟩ := hfree'.exists_stored []
  have hmissing := hold hstored
  have hfound := hold hstored'
  rw [lookup_emptied, if_neg (by simp)] at hmissing
  rw [lookup_leaving, if_pos rfl] at hfound
  refine not_sameOutcome (e := .description (.malformed address (.other "in the way")))
    (.inl ⟨fun herror => ?_, ?_⟩)
  · have hgenerator : (seeing address).generator (Description.request address
        (Workspace.locate aloft.workspaceRoot address)) stored = (.ok ⟨[], []⟩, stored) := by
      unfold seeing prying
      dsimp only
      rw [hmissing]
    obtain ⟨c, hc⟩ := exists_made (k := seeing address) rfl (.inl rfl) hstored (if_pos hweb) hgenerator
    rw [hc] at herror
    cases herror
  · have hfetch : Description.fetch (seeing address).web address made' = .ok [] := if_pos hweb
    rw [hstored'.outcome_eq hfetch]
    unfold develop seeing prying
    dsimp only
    rw [hfound]
    rfl

/-! ## An address that leads to it -/

end Client

/-- A file in the working directory is read by its name. -/
theorem Disk.read_name {d : Disk} {n : String} (hn : IsName n) (hshort : ¬ 255 < n.length)
    (hrefused : Path.refusal? n = none) :
    (d.lookup (d.workingDirectory ++ [n]) = none → d.read n = .error .notFound) ∧
      ∀ content executable, d.lookup (d.workingDirectory ++ [n]) = some (.file content executable) →
        d.read n = .ok content := by
  have hjoin : Path.join "" n = n := by simp [Path.join, Path.isAbsolute_of_isName hn]
  have hleads : d.LeadsTo (Path.base d.workingDirectory "") (Path.steps "") := leadsTo_nil
  have hread := hleads.read_join hn hshort (hjoin.symm ▸ hrefused)
  rwa [hjoin] at hread

namespace Client

theorem matters_old : Matters sourceless aloft "old" [endpointKey "old", "bin"] := by
  have hwd : [endpointKey "old", "bin"] = [] ∨ [endpointKey "old", "bin"] = [endpointKey "old", "bin"] :=
    .inr rfl
  refine ⟨sameButBinaries location_aloft hwd, absent_ignoresOutput _, ?_⟩
  rw [← outcome_fst, ← outcome_fst]
  have hfetch (made : Disk) : Description.fetch sourceless.web "old" made = made.read "old" := by
    unfold Description.fetch
    rw [if_neg (by decide)]
    rfl
  have hread (made : Disk) := Disk.read_name (d := made) (n := "old") (by decide) (by decide) (by decide)
  have hinside : (Workspace.locate aloft.workspaceRoot "old").binaryDir.Inside
      [endpointKey "old", "bin"] [endpointKey "old", "bin", "old"] := inside_binaryDir location_aloft
  refine not_sameOutcome (e := .description (.unreachable "old" .notFound)) (.inr ⟨?_, fun herror => ?_⟩)
  · have hfree := free_emptied hwd
    obtain ⟨made, hmade⟩ := hfree.exists_ensure
    have hgrows := Workspace.grows_ensure (emptied [endpointKey "old", "bin"] "old") aloft.workspaceRoot "old"
    have hlookup := lookup_ensure_of_touched hfree.apart (.inr (.inr hinside))
    rw [hmade] at hgrows hlookup
    have hrefused : Workspace.refusal? aloft.workspaceRoot "old" = none := hfree.refusal?_sourceDir
    rw [outcome_eq_finish hfree.linkless hrefused hmade]
    have hnone : made.lookup (made.workingDirectory ++ ["old"]) = none := by
      rw [hgrows.workingDirectory]
      exact hlookup.trans ((lookup_emptied _).trans (if_neg (by simp)))
    have hmissing := (hfetch made).trans ((hread made).1 hnone)
    have hretrieve : Description.retrieve sourceless.web "old" (Workspace.locate aloft.workspaceRoot "old")
        made = .error (.unreachable "old" .notFound) := by
      unfold Description.retrieve
      rw [hmissing]
    unfold finish
    rw [hretrieve]
  · obtain ⟨made, stored, hstored⟩ := (free_leaving hwd).exists_stored []
    have hgrows := hstored.grows linkless_leaving
    have hfile : made.lookup (made.workingDirectory ++ ["old"]) = some (.file [] false) := by
      rw [hgrows.workingDirectory]
      exact hgrows.kept ((lookup_leaving _).trans (if_pos rfl))
    obtain ⟨c, hc⟩ := exists_made (k := sourceless) rfl (.inr rfl) hstored
      ((hfetch made).trans ((hread made).2 _ _ hfile)) rfl
    rw [hc] at herror
    cases herror

/-! ## Included paths that lead to it -/

/-- The toolchain that fails if there is something of a name in a directory that is included. -/
def including (n : String) : Toolchain where
  sourceExtension := "proto"
  isMarker _ := false
  compile r d :=
    if r.includePaths.any fun p => (d.lookup (p.place d.workingDirectory ++ [n])).isSome then
      (.error .notFound, d)
    else (.ok ⟨true, [], []⟩, d)

/-- What is included is not ignored, and everything else is. -/
theorem including_ignoresOutput (n : String) (kind : Option Entry → Prop) :
    (including n).IgnoresOutput kind := by
  intro wd r d₁ d₂ h
  have hsame : (r.includePaths.any fun p => (d₁.lookup (p.place d₁.workingDirectory ++ [n])).isSome) =
      r.includePaths.any fun p => (d₂.lookup (p.place d₂.workingDirectory ++ [n])).isSome := by
    rw [h.workingDirectory, h.symm.workingDirectory]
    rw [Bool.eq_iff_iff, List.any_eq_true, List.any_eq_true]
    refine exists_congr fun p => and_congr_right fun hp => ?_
    rw [h.alike.lookup_of_shows fun e hhidden => hhidden.2.1 ⟨p, ?_, .inr (List.prefix_append ..)⟩]
    exact .tail _ (List.mem_append_right _ hp)
  constructor
  · unfold including
    dsimp only
    rw [hsame]
    split <;> rfl
  · unfold including
    dsimp only
    intro outcome houtcome p hp
    split at houtcome
    · cases houtcome
    · obtain rfl := Except.ok.inj houtcome
      exact absurd hp List.not_mem_nil

/-- Settings that include the binaries. -/
def inward (address : String) : Configuration :=
  { aloft with includePaths := [(Workspace.locate "/" address).binaryDir] }

/-- Collaborators that make a source, with that toolchain. -/
def building : Collaborators Unit := { anew with toolchain := including "old" }

theorem outcome_building {address : String} (hweb : Description.isWebAddress address = true)
    {d : Disk} (hd : d.workingDirectory = [])
    (hfree : Workspace.Free d (inward address).workspaceRoot address) :
    (d.lookup [endpointKey address, "bin", "old"] = none →
      ∃ c, (outcome building (inward address) address d).1 = .ok c) ∧
    ∀ e, d.lookup [endpointKey address, "bin", "old"] = some e →
      (outcome building (inward address) address d).1 = .error (.build (.toolchain .notFound)) := by
  obtain ⟨made, stored, hstored⟩ := hfree.exists_stored []
  have hwd := hstored.workingDirectory.trans hd
  obtain ⟨left, hleft, hkept, hprepared, hwd', halike, honly⟩ := exists_renew hstored.free
    hstored.prepared (fun hinside => hinside.ne_nil hwd) (n := "service.proto") (by decide) []
  have hinside : (Workspace.locate (inward address).workspaceRoot address).binaryDir.Inside d.workingDirectory
      [endpointKey address, "bin", "old"] := inside_binaryDir location_aloft
  have hlocation (wd : Location) : Workspace.location wd (inward address).workspaceRoot address =
      [endpointKey address] := location_aloft
  have hsame : left.lookup [endpointKey address, "bin", "old"] =
      d.lookup [endpointKey address, "bin", "old"] := by
    rw [← hstored.lookup _ (.inr hinside), ← halike.lookup_of_shows (Hiding.shows_at.2 fun hsource => ?_)]
    rw [Path.Inside, Workspace.place_sourceDir, hlocation] at hsource
    simp [Workspace.sourceName] at hsource
  have hgenerator : building.generator (Description.request address
      (Workspace.locate (inward address).workspaceRoot address)) stored = (.ok ⟨[], []⟩, left) := by
    unfold building anew Collaborators.renewing Generator.renewing Description.request
    dsimp only
    rw [hleft]
  obtain ⟨sources, hdevelop⟩ := exists_develop_of_source (inward address) hgenerator
    hkept.wellFormed hprepared hkept.refusal?_sourceDir (fun _ => honly.lookup_ne) (by decide)
    extensionOf?_service (fun _ => rfl) honly.lookup_file
  have hplace : (Workspace.locate "/" address).binaryDir.place left.workingDirectory =
      [endpointKey address, "bin"] := by
    rw [Workspace.place_binaryDir]
    exact congrArg (· ++ [Workspace.binaryName]) (hlocation _)
  have hcompile (r : CompileRequest) (hr : r.includePaths = (inward address).includePaths) :
      building.toolchain.compile r left =
        if (d.lookup [endpointKey address, "bin", "old"]).isSome then (.error .notFound, left)
        else (.ok ⟨true, [], []⟩, left) := by
    unfold building including
    dsimp only
    rw [hr, inward, ← hsame]
    dsimp only
    rw [List.any_cons, List.any_nil, Bool.or_false, hplace]
    rfl
  have hfetch : Description.fetch building.web address made = .ok [] := if_pos hweb
  rw [hstored.outcome_eq hfetch, hdevelop, hcompile _ rfl]
  constructor
  · intro hnone
    rw [hnone]
    exact ⟨_, rfl⟩
  · intro e he
    rw [he]
    rfl

theorem matters_building {address : String} (hweb : Description.isWebAddress address = true) :
    Matters building (inward address) address [] := by
  refine ⟨sameButBinaries location_aloft (.inl rfl), including_ignoresOutput _ _, ?_⟩
  rw [← outcome_fst, ← outcome_fst]
  have hemptied := outcome_building hweb rfl (free_emptied (.inl rfl))
  have hleaving := outcome_building hweb rfl (free_leaving (.inl rfl))
  obtain ⟨c, hc⟩ := hemptied.1 ((lookup_emptied _).trans (if_neg (by simp)))
  refine not_sameOutcome (.inl ⟨fun herror => ?_,
    hleaving.2 _ ((lookup_leaving _).trans (if_pos rfl))⟩)
  rw [hc] at herror
  cases herror

/-! ## A link that leads to it -/

/-- The place of the file below the directory of binaries. -/
def old (address : String) : Path :=
  Path.join (Workspace.locate aloft.workspaceRoot address).binaryDir "old"

theorem isAbsolute_old (address : String) : Path.isAbsolute (old address) = true := by
  rw [old, Path.isAbsolute_join (by decide), Workspace.binaryDir_eq,
    Path.isAbsolute_join Workspace.isName_binaryName, Workspace.locate,
    Path.isAbsolute_join (isName_endpointKey _)]
  decide

theorem outcome_importing_old {address : String} (hweb : Description.isWebAddress address = true)
    {d : Disk} (hd : d.workingDirectory = [])
    (hfree : Workspace.Free d aloft.workspaceRoot address) :
    (d.lookup [endpointKey address, "bin", "old"] = none →
      (outcome (importing (old address)) aloft address d).1 = .error (.build (.toolchain .notFound))) ∧
    ∀ content executable, d.lookup [endpointKey address, "bin", "old"] =
        some (.file content executable) →
      ∃ c, (outcome (importing (old address)) aloft address d).1 = .ok c := by
  have hrefused : (old address).refusal? = none :=
    hfree.refusal?_join Workspace.isName_binaryName (by decide) (by decide) (by decide) (by decide)
  have hworking : ¬ (Workspace.locate aloft.workspaceRoot address).sourceDir.Inside d.workingDirectory
      d.workingDirectory := fun hinside => hinside.ne_nil hd
  obtain ⟨made, stored, left, hstored, hleft, hprepared, houtcome⟩ := outcome_importing
    (old address) aloft hfree hweb hworking (isAbsolute_old address) hrefused
  have hwd := hstored.workingDirectory.trans hd
  have halike := Disk.alike_relink hleft
  have hwd' : left.workingDirectory = [] := halike.workingDirectory.symm.trans hwd
  -- the way to the file does not lead through the sources, so it is as it was stored
  have hapart (l : Location) (hl : (Workspace.locate aloft.workspaceRoot address).binaryDir.Names
      stored.workingDirectory l) : (Hiding.at ((Workspace.locate aloft.workspaceRoot address).sourceDir.Inside
        stored.workingDirectory)).Shows l :=
    Hiding.shows_at.2 (Workspace.not_inside_sourceDir_of_names_binaryDir
      (fun l hl hinside => hstored.free.apart l hl (Workspace.inside_root_of_sourceDir hinside)) hl)
  have hinside : (Workspace.locate aloft.workspaceRoot address).binaryDir.Inside []
      [endpointKey address, "bin", "old"] := inside_binaryDir location_aloft
  have hold : left.lookup [endpointKey address, "bin", "old"] =
      d.lookup [endpointKey address, "bin", "old"] := by
    rw [← halike.lookup_of_shows (hapart _ (hwd.symm ▸ hinside.names)),
      hstored.lookup _ (.inr (hd.symm ▸ hinside))]
  have hlinks : left.LinkFree ((old address).way left.workingDirectory) := by
    have hclear := Disk.Clear.of_linkless hstored.free.linkless
      (Hiding.at ((Workspace.locate aloft.workspaceRoot address).sourceDir.Inside
        stored.workingDirectory))
    rw [← halike.workingDirectory]
    exact (hclear.of_alike halike).linkFree fun l hl =>
      hapart l (Path.names_of_mem_way_join (by decide) hl)
  have hplace : (Workspace.locate aloft.workspaceRoot address).binaryDir.place left.workingDirectory ++
      ["old"] = [endpointKey address, "bin", "old"] := by
    rw [Workspace.place_binaryDir, location_aloft]
    rfl
  obtain ⟨hmissing, hfound⟩ := hprepared.leadsTo_binaryDir.read_join (n := "old") (by decide) (by decide)
    hrefused
  rw [hplace, hold] at hmissing hfound
  obtain ⟨hok, herror⟩ := houtcome hlinks
  exact ⟨fun hnone => herror _ (hmissing hnone),
    fun content executable hfile => hok content (hfound content executable hfile)⟩

theorem matters_importing {address : String} (hweb : Description.isWebAddress address = true) :
    Matters (importing (old address)) aloft address [] := by
  refine ⟨sameButBinaries location_aloft (.inl rfl), Toolchain.importing_ignoresOutput _, ?_⟩
  rw [← outcome_fst, ← outcome_fst]
  have hemptied := outcome_importing_old hweb rfl (free_emptied (.inl rfl))
  have hleaving := outcome_importing_old hweb rfl (free_leaving (.inl rfl))
  obtain ⟨c, hc⟩ := hleaving.2 [] false ((lookup_leaving _).trans (if_pos rfl))
  refine not_sameOutcome (.inr ⟨hemptied.1 ((lookup_emptied _).trans (if_neg (by simp))),
    fun herror => ?_⟩)
  rw [hc] at herror
  cases herror

/-- The generator does not look at the binaries. -/
theorem disregards_importing (address : String) :
    (importing (old address)).generator.Disregards []
      (fun l e => (Workspace.locate aloft.workspaceRoot address).binaryDir.Inside [] l ∧ NoneOrFile e)
      (Description.request address (Workspace.locate aloft.workspaceRoot address)) := by
  have hshows : ¬ (Workspace.locate aloft.workspaceRoot address).binaryDir.Inside []
      ((Workspace.locate aloft.workspaceRoot address).sourceDir.place []) :=
    Workspace.not_inside_binaryDir_of_names_sourceDir (fun l hl => absurd hl List.not_mem_nil)
      (.inr (List.prefix_refl _))
  exact Generator.linking_disregards _ fun e h => hshows h.1

/-! ## A root that leads through it -/

/-- Settings with a root that goes back from the place of the file to the top. -/
def through (address : String) : Configuration :=
  { aloft with workspaceRoot := "/" ++ endpointKey address ++ "/" ++ "bin/old/../../.." }

theorem steps_through (address : String) : (through address).workspaceRoot.steps =
    [endpointKey address, "bin", "old", "..", "..", ".."] :=
  (Workspace.steps_inner address "bin/old/../../..").trans rfl

theorem base_through (address : String) (wd : Location) : (through address).workspaceRoot.base wd = [] :=
  Workspace.base_inner address "bin/old/../../.." wd

theorem location_through (address : String) (wd : Location) :
    Workspace.location wd (through address).workspaceRoot address = [endpointKey address] := by
  rw [Workspace.location, Path.place, base_through, steps_through, Location.resolve_cons,
    Location.step_of_isName (isName_endpointKey _)]
  rfl

theorem refusal?_through (address : String) :
    Workspace.refusal? (through address).workspaceRoot address = none :=
  Workspace.refusal?_inner address address "bin/old/../../.." (by decide) (by decide)

/-- Where the file is the workspace cannot be created. -/
theorem ensure_leaving_through {address : String} {made : Disk} :
    Workspace.ensure (leaving [] address) (through address).workspaceRoot address ≠ (.ok (), made) := by
  have hplace : Location.resolve [] [endpointKey address, "bin"] = [endpointKey address, "bin"] := by
    rw [Location.resolve_cons, Location.step_of_isName (isName_endpointKey _)]
    rfl
  refine Workspace.ensure_ne_ok [endpointKey address, "bin"] "old" (e := .file [] false)
    (steps_through address) (by decide) ?_ (by decide)
  rw [base_through, hplace, lookup_leaving]
  exact if_pos rfl

theorem ensure_emptied_through (address : String) : ∃ made,
    Workspace.ensure (emptied [] address) (through address).workspaceRoot address = (.ok (), made) := by
  refine Workspace.exists_ensure (fun s hs => ?_) fun l hl => ?_
  · rw [steps_through] at hs
    have hsize := length_endpointKey address
    have hrest : ∀ s ∈ ["bin", "old", "..", "..", ".."], ¬ 255 < s.length := by decide
    obtain rfl | hs := List.mem_cons.1 hs
    · omega
    · exact hrest s hs
  · rw [lookup_emptied]
    split
    · exact .inr rfl
    · exact .inl rfl

theorem matters_through (address : String) : Matters sourceless (through address) address [] := by
  refine ⟨sameButBinaries (location_through _ _) (.inl rfl), absent_ignoresOutput _, ?_⟩
  obtain ⟨made, hmade⟩ := ensure_emptied_through address
  rw [← outcome_fst, ← outcome_fst,
    outcome_eq_finish linkless_emptied (refusal?_through address) hmade]
  rcases hleft : Workspace.ensure (leaving [] address) (through address).workspaceRoot address
    with ⟨e | _, left⟩
  · rw [outcome_eq_error linkless_leaving (refusal?_through address) hleft]
    exact not_sameOutcome (.inl ⟨finish_ne_workspace _ _ _ _ _ _ e, rfl⟩)
  · exact absurd hleft ensure_leaving_through

/-! ## What is left does not matter -/

/-- Binaries that are left by earlier runs do not matter: neither to a client whose generator and
toolchain overlook them, nor to any without sources. -/
theorem init_of_leftovers (k : Collaborators World) (config : Configuration) (address : String) :
    (∀ (kind : Option Entry → Prop) (d₁ d₂ : Disk),
      Workspace.SameButBinaries kind config.workspaceRoot address d₁ d₂ →
      config.Apart address d₁.workingDirectory →
      k.generator.Overlooks d₁.workingDirectory
        (fun l e => (Workspace.locate config.workspaceRoot address).binaryDir.Inside
          d₁.workingDirectory l ∧ kind e)
        (fun l e => (Workspace.locate config.workspaceRoot address).binaryDir.Inside
          d₁.workingDirectory l ∧ kind e)
        (Description.request address (Workspace.locate config.workspaceRoot address)) →
      k.toolchain.IgnoresOutput kind →
      SameOutcome (init k config address d₁).1 (init k config address d₂).1) ∧
    ∀ d w made model run after,
      Workspace.prepare d config.workspaceRoot address = (.ok w, made) →
      Description.generate k.web k.generator address w made = (.ok model, run, after) →
      Build.scan after k.toolchain w.sourceDir = .ok [] →
      (init k config address d).2.1.getLast? = some (.loaded []) ∧
        ∀ c, (init k config address d).1 = .ok c → c.registry.pool = k.host := by
  refine ⟨fun kind d₁ d₂ hsame hapart hgenerator htoolchain => sameOutcome_of_eq ?_,
    fun d w made model run after => init_of_no_sources⟩
  have hroot := hapart.root
  have htwins : Twins d₁.workingDirectory _ d₁ d₂ :=
    ⟨hsame.left, hsame.right, rfl, .of_linkless hsame.linkless _, hsame.alike⟩
  rw [← outcome_fst, ← outcome_fst]
  refine outcome_twins (R := fun o₁ o₂ => o₁.1 = o₂.1) htwins
    (Workspace.shown_of_inside_binaryDir hroot fun l e => And.left) (fun _ _ _ _ => rfl)
    fun s₁ s₂ hs => ?_
  exact finish_twins (R := fun o₁ o₂ => o₁.1 = o₂.1) hs
    (fun hweb l hl e h => hapart.description hweb l hl h.1)
    (fun l hl e h => Workspace.not_inside_binaryDir_of_names_document hroot (.inl hl) h.1)
    (fun _ => rfl) fun t₁ t₂ ht => develop_of_overlooks hroot hapart.includes hgenerator htoolchain ht

theorem apart_aloft {address : String} (hweb : Description.isWebAddress address = true)
    (wd : Location) : aloft.Apart address wd where
  root _ hl := absurd hl List.not_mem_nil
  description hfile := absurd (hfile.symm.trans hweb) Bool.false_ne_true
  includes _ hl := by
    obtain ⟨p, hp, -⟩ := hl
    exact absurd hp List.not_mem_nil

/-- What starts anew overlooks the binaries. -/
theorem overlooks_aloft {address : String} (hweb : Description.isWebAddress address = true) :
    anew.generator.Overlooks []
      (fun l e => (Workspace.locate aloft.workspaceRoot address).binaryDir.Inside [] l ∧ NoneOrFile e)
      (fun l e => (Workspace.locate aloft.workspaceRoot address).binaryDir.Inside [] l ∧ NoneOrFile e)
      (Description.request address (Workspace.locate aloft.workspaceRoot address)) := by
  have hshows : ¬ (Workspace.locate aloft.workspaceRoot address).binaryDir.Inside []
      ((Workspace.locate aloft.workspaceRoot address).sourceDir.place []) :=
    Workspace.not_inside_binaryDir_of_names_sourceDir (apart_aloft hweb []).root
      (.inr (List.prefix_refl _))
  exact Generator.renewing_overlooks (by decide) _ _ (fun e h => hshows h.1)
    (fun hinside => hinside.ne_nil rfl) fun l e h _ => h

theorem generate_sourceless {address : String} (hweb : Description.isWebAddress address = true)
    {w : Workspace} {made stored : Disk} (hwrite : made.write w.document [] = .ok stored) :
    Description.generate sourceless.web sourceless.generator address w made =
      (.ok ⟨[], []⟩, some ⟨Description.request address w, stored⟩, stored) := by
  have hfetch : Description.fetch sourceless.web address made = .ok [] := if_pos hweb
  unfold Description.generate Description.retrieve
  rw [hfetch]
  dsimp only
  rw [hwrite]
  rfl

/-- A file among the binaries does not matter to collaborators that start anew, and nothing is loaded
of it without sources. -/
theorem init_of_leftovers_anew :
    SameOutcome (init anew aloft "http://a" (emptied [] "http://a")).1
        (init anew aloft "http://a" (leaving [] "http://a")).1 ∧
      (init sourceless aloft "http://a" (leaving [] "http://a")).2.1.getLast? = some (.loaded []) := by
  have hweb : Description.isWebAddress "http://a" = true := by decide
  have hfree : Workspace.Free (leaving [] "http://a") aloft.workspaceRoot "http://a" :=
    free_leaving (.inl rfl)
  obtain ⟨made, stored, hstored⟩ := hfree.exists_stored []
  constructor
  · exact (init_of_leftovers anew aloft "http://a").1 NoneOrFile _ _
      (sameButBinaries location_aloft (.inl rfl)) (apart_aloft hweb []) (overlooks_aloft hweb)
      (Toolchain.renewing_ignoresOutput (by decide) _ _)
  · exact ((init_of_leftovers sourceless aloft "http://a").2 _ _ _ _ _ _ hstored.prepare
      (generate_sourceless hweb hstored.write) (scan_stored (.inr rfl) hstored _)).1

/-- Binaries that are left matter to a generator that looks for them, where a generator leaves a link to
them without looking, and where the address, an included path or the root leads to them. -/
theorem init_of_leftovers_seen :
    Matters (seeing "http://a") aloft "http://a" [] ∧
      (Matters (importing (old "http://a")) aloft "http://a" [] ∧
        (importing (old "http://a")).generator.Disregards []
          (fun l e => (Workspace.locate aloft.workspaceRoot "http://a").binaryDir.Inside [] l ∧
            NoneOrFile e)
          (Description.request "http://a" (Workspace.locate aloft.workspaceRoot "http://a"))) ∧
      Matters sourceless aloft "old" [endpointKey "old", "bin"] ∧
      Matters building (inward "http://a") "http://a" [] ∧
      Matters sourceless (through "http://a") "http://a" [] :=
  ⟨matters_seeing (by decide), ⟨matters_importing (by decide), disregards_importing _⟩, matters_old,
    matters_building (by decide), matters_through _⟩

end Client

end ServiceCall
