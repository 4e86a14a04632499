import Mathlib.Data.List.TakeWhile
import ServiceCall.Proofs.Build.Report
import ServiceCall.Proofs.Build.Scan
/-!
# Which files are sources

The sources of a directory are the files below it that have the toolchain's extension and are no
markers: each of them is found once, in the strict order of paths, whatever the order of the table and
wherever links lead (`Build.Lists`). A build hands exactly these to the toolchain, in one unit, and
nothing if there are none (`Build.submits_sources`), unless a directory is too deep to be opened
(`Build.exists_scan_iff`).
-/

namespace ServiceCall

namespace Path

/-! ## Extensions -/

/-- The name goes on with a dot and the extension after something else. -/
def HasExtension (extension name : String) : Prop :=
  '.' ∉ extension.toList ∧ ∃ stem, stem ≠ [] ∧ name.toList = stem ++ '.' :: extension.toList

theorem extensionOf?_eq_some {extension name : String} :
    extensionOf? name = some extension ↔ HasExtension extension name := by
  have hsplit := List.takeWhile_append_dropWhile (p := (· ≠ '.')) (l := name.toList.reverse)
  unfold extensionOf? HasExtension
  dsimp only
  constructor
  · intro h
    split at h
    next c d rest hdrop =>
      obtain rfl := Option.some.inj h
      have hdot : c = '.' := by
        have hhead := List.head?_dropWhile_not (· ≠ '.') name.toList.reverse
        rw [hdrop] at hhead
        simpa using hhead
      refine ⟨fun hmem => ?_, (d :: rest).reverse, by simp, ?_⟩
      · rw [String.toList_ofList, List.mem_reverse] at hmem
        simpa using List.mem_takeWhile_imp hmem
      · have hname := congrArg List.reverse hsplit
        rw [hdrop, hdot, List.reverse_reverse] at hname
        rw [String.toList_ofList]
        simpa using hname.symm
    next => cases h
  · rintro ⟨hdot, stem, hstem, hname⟩
    have hreverse : name.toList.reverse = extension.toList.reverse ++ '.' :: stem.reverse := by
      simp [hname]
    have hclean : ∀ c ∈ extension.toList.reverse, decide (c ≠ '.') = true := by
      refine fun c hc => decide_eq_true ?_
      rintro rfl
      exact hdot (List.mem_reverse.1 hc)
    obtain ⟨c, rest, hrest⟩ := List.exists_cons_of_ne_nil (by simpa using hstem : stem.reverse ≠ [])
    rw [hreverse, List.takeWhile_append_of_pos hclean, List.dropWhile_append_of_pos hclean, hrest]
    simp

/-! ## Strict order -/

/-- A path comes before another one, by the first component in which they differ. -/
def Before (p q : Path) : Prop := List.Lex (fun a b => a.lt b = true) p.components q.components

theorem componentsLe_iff {as bs : List Component} :
    componentsLe as bs = true ↔ as = bs ∨ List.Lex (fun a b => a.lt b = true) as bs := by
  induction as generalizing bs with
  | nil => cases bs <;> simp [componentsLe]
  | cons a as ih =>
    cases bs with
    | nil => simp [componentsLe]
    | cons b bs =>
      rw [componentsLe, List.cons_lex_cons_iff]
      by_cases hab : a = b
      · subst hab
        have hself : ¬ a.lt a = true := fun h => (Component.lt_iff.1 h).false
        simp [ih, hself]
      · simp [hab]

theorem before_of_le {p q : Path} (h : le p q = true) (hne : p.components ≠ q.components) :
    Before p q :=
  (componentsLe_iff.1 h).resolve_left hne

end Path

/-- The unit that is handed to the toolchain in a step. -/
def BuildStep.request? : BuildStep → Option CompileRequest
  | .compiled unit => some unit
  | .warned _ => none

namespace Build

/-! ## The sources of a directory -/

/-- A file below a directory that the toolchain takes for a source. -/
structure SourceAt (d : Disk) (t : Toolchain) (at' : Location) (names : List String) : Prop where
  file : ∃ content executable, d.Descends at' names (.file content executable)
  name : ∃ n, names.getLast? = some n ∧ Path.HasExtension (Path.ofText t.sourceExtension) n ∧
    ∀ s, Path.text? n = some s → t.isMarker s = false

/-- The path leads to a directory, and each directory below that can be opened by its path. -/
structure Readable (d : Disk) (dir : Path) (at' : Location) : Prop where
  leads : d.follow true dir = .ok ⟨at', some .directory⟩
  opens : Opens d dir at'

/-- The paths are those of the sources in a directory at a location. -/
structure Lists (d : Disk) (t : Toolchain) (dir : Path) (at' : Location) (sources : List Path) : Prop where
  once : ∀ names, SourceAt d t at' names → sources.count (names.foldl Path.join dir) = 1
  only : ∀ p ∈ sources, ∃! names, SourceAt d t at' names ∧ p = names.foldl Path.join dir
  ascending : sources.Pairwise Path.Before

variable {d : Disk} {t : Toolchain} {dir : Path} {at' : Location} {names : List String}

theorem isSource_foldl_join (hnames : ∀ n ∈ names, IsName n) (hne : names ≠ []) :
    isSource t (names.foldl Path.join dir) = true ↔ ∃ n, names.getLast? = some n ∧
      Path.HasExtension (Path.ofText t.sourceExtension) n ∧
        ∀ s, Path.text? n = some s → t.isMarker s = false := by
  obtain ⟨n, hlast⟩ := Option.isSome_iff_exists.1 (List.getLast?_isSome.2 hne)
  have hname : Path.fileName? (names.foldl Path.join dir) = some n := by
    rw [Path.fileName?, Path.components_foldl_join hnames, List.getLast?_append, List.getLast?_map,
      hlast]
    rfl
  rw [isSource_eq_true, Path.extension?, hname, hlast]
  simp [Path.extensionOf?_eq_some]

/-- The files that are listed below a directory and taken for sources. -/
theorem mem_filter_filesOf (h : d.WellFormed) {p : Path} :
    p ∈ (filesOf dir (d.below at')).filter (isSource t) ↔
      ∃ names, SourceAt d t at' names ∧ p = names.foldl Path.join dir := by
  rw [List.mem_filter]
  constructor
  · rintro ⟨hp, hsource⟩
    obtain ⟨⟨names, e⟩, hmem, hfile⟩ := List.mem_filterMap.1 hp
    rw [Option.ite_none_right_eq_some, Option.some.injEq] at hfile
    obtain ⟨hfile, rfl⟩ := hfile
    have hdown := h.mem_below_iff_descends.1 hmem
    cases e with
    | file content executable =>
      exact ⟨names, ⟨⟨content, executable, hdown⟩,
        (isSource_foldl_join (h.isName_of_descends hdown) hdown.ne_nil).1 hsource⟩, rfl⟩
    | directory | link target | special => cases hfile
  · rintro ⟨names, ⟨⟨content, executable, hdown⟩, hname⟩, rfl⟩
    exact ⟨List.mem_filterMap.2 ⟨_, h.mem_below_iff_descends.2 hdown, rfl⟩,
      (isSource_foldl_join (h.isName_of_descends hdown) hdown.ne_nil).2 hname⟩

/-- Sorted, the sources that are listed below a directory are its sources. -/
theorem lists_mergeSort (h : d.WellFormed) : Lists d t dir at'
    (((filesOf dir (d.below at')).filter (isSource t)).mergeSort Path.le) := by
  have hperm := ((filesOf dir (d.below at')).filter (isSource t)).mergeSort_perm Path.le
  have hdistinct : (((filesOf dir (d.below at')).filter (isSource t)).mergeSort Path.le).Pairwise
      fun p q => p.components ≠ q.components :=
    (hperm.pairwise_iff fun hne => hne.symm).2 ((filesOf_components_ne h).filter _)
  have hmem {p : Path} := (hperm.mem_iff (a := p)).trans (mem_filter_filesOf h)
  refine ⟨fun names hnames => ?_, fun p hp => ?_, ?_⟩
  · refine List.count_eq_one_of_mem (hdistinct.imp fun hne heq => hne (congrArg _ heq)) ?_
    exact hmem.2 ⟨names, hnames, rfl⟩
  · obtain ⟨names, hnames, rfl⟩ := hmem.1 hp
    refine ⟨names, ⟨hnames, rfl⟩, fun names' ⟨hnames', heq⟩ => ?_⟩
    obtain ⟨_, _, hdown⟩ := hnames.file
    obtain ⟨_, _, hdown'⟩ := hnames'.file
    exact (Path.foldl_join_injective (h.isName_of_descends hdown) (h.isName_of_descends hdown')
      (congrArg _ heq)).symm
  · exact (Path.pairwise_mergeSort _).imp₂ (fun _ _ => Path.before_of_le) hdistinct

/-! ## What is submitted -/

/-- The toolchain is called once for what was scanned, unless that is nothing. -/
theorem requests_of_run {sources : List Path} (hscan : scan d t dir = .ok sources)
    (includes : List Path) (binaryDir : Path) :
    (run t includes dir binaryDir d).2.1.filterMap BuildStep.request? =
      if sources = [] then [] else [request sources dir binaryDir includes] := by
  rcases hrun : run t includes dir binaryDir d with ⟨result, steps, d'⟩
  have hwarned (texts : List String) :
      (texts.map BuildStep.warned).filterMap BuildStep.request? = [] := by
    simp [BuildStep.request?]
  cases ends_of_run hrun with
  | unscanned h => cases hscan.symm.trans h
  | sourceless h =>
    obtain rfl := Except.ok.inj (hscan.symm.trans h)
    rfl
  | unlaunched h hsources hcompile =>
    obtain rfl := Except.ok.inj (hscan.symm.trans h)
    rw [if_neg hsources]
    rfl
  | refused h hsources hcompile hverdict =>
    obtain rfl := Except.ok.inj (hscan.symm.trans h)
    rw [if_neg hsources]
    rfl
  | finished h hsources hcompile hsuccess hverdict =>
    obtain rfl := Except.ok.inj (hscan.symm.trans h)
    rw [if_neg hsources]
    exact congrArg (_ :: ·) (hwarned _)

section

variable (h : d.WellFormed) (t : Toolchain)
include h

/-- Another order of the table leaves the way to a directory, and the sources in it, as they are. -/
theorem scan_of_perm (hdir : d.follow true dir = .ok ⟨at', some .directory⟩)
    (hreach : outOfReach? dir (d.below at') = none) {d' : Disk} (hperm : d'.entries.Perm d.entries)
    (hwd : d'.workingDirectory = d.workingDirectory) : scan d' t dir = scan d t dir := by
  have hlookup := h.lookup_of_perm hperm
  have h' := h.of_perm hperm hwd
  have hkeeps : Disk.Keeps d d' := ⟨hwd, fun l e hl _ => (hlookup l).trans hl⟩
  have hdir' := Disk.follow_keeps hkeeps (by simp) (fun hne => absurd rfl hne) hdir
  have hbelow : (d.below at').Perm (d'.below at') := Disk.below_perm h h' fun l _ => (hlookup _).symm
  rw [scan_of_follow hdir hreach, scan_of_follow hdir' (outOfReach?_eq_of_perm h hbelow ▸ hreach)]
  refine congrArg Except.ok (Path.mergeSort_eq_of_perm ((hbelow.filterMap _).filter _) ?_).symm
  exact fun p hp q hq => eq_of_mem_filesOf h (List.mem_filter.1 hp).1 (List.mem_filter.1 hq).1

/-- A directory can be scanned exactly if each directory below it can be opened. -/
theorem exists_scan_iff (hdir : d.follow true dir = .ok ⟨at', some .directory⟩) :
    (∃ sources, scan d t dir = .ok sources) ↔ Opens d dir at' := by
  rw [← outOfReach?_eq_none_iff h (Disk.length_le_of_follow hdir)]
  refine ⟨fun ⟨sources, hscan⟩ => ?_, fun hreach => ⟨_, scan_of_follow hdir hreach t⟩⟩
  cases hreach : outOfReach? dir (d.below at') with
  | none => rfl
  | some p =>
    rw [scan, regularFiles_of_follow hdir, filesBelow, hreach] at hscan
    cases hscan

/-- A scan of a directory lists its sources, whatever the order of the table. A build calls the toolchain
for exactly these, once, unless there are none. -/
theorem submits_sources (hdir : Readable d dir at') :
    ∃ sources, Lists d t dir at' sources ∧
      ∀ d' : Disk, d'.entries.Perm d.entries → d'.workingDirectory = d.workingDirectory →
        scan d' t dir = .ok sources ∧ ∀ includes binaryDir,
          (run t includes dir binaryDir d').2.1.filterMap BuildStep.request? =
            if sources = [] then [] else [request sources dir binaryDir includes] := by
  have hreach := (outOfReach?_eq_none_iff h (Disk.length_le_of_follow hdir.leads)).2 hdir.opens
  refine ⟨_, lists_mergeSort h, fun d' hperm hwd => ?_⟩
  have hscan := (scan_of_perm h t hdir.leads hreach hperm hwd).trans (scan_of_follow hdir.leads hreach t)
  exact ⟨hscan, fun includes binaryDir => requests_of_run hscan includes binaryDir⟩

end

/-- A directory of sources and of what may be mistaken for them: a marker, a name that is nothing but the
extension, a directory, a special file, a link that leads nowhere and one that leads back up. -/
def tangled : Disk := ⟨[], [(["src"], .directory), (["src", ".proto"], .file [] false),
  (["src", "a"], .directory), (["src", "a", "b.proto"], .file [] false), (["src", "a", "up"], .link ".."),
  (["src", "a.proto"], .file [] false), (["src", "d.proto"], .directory),
  (["src", "d.proto", "x.y.proto"], .file [] true), (["src", "gone.proto"], .link "nowhere"),
  (["src", "pipe.proto"], .special), (["src", "skip.proto"], .file [] false), (["here"], .link "src")]⟩

/-- A toolchain that passes over one name and never runs. -/
def passing : Toolchain := ⟨"proto", (· == "skip.proto"), fun _ d => (.error .notFound, d)⟩

/-- The sources are found, and handed over, in whatever order the directory lists what it holds. -/
theorem submits_tangled :
    Lists tangled passing "here" ["src"]
      ["here/a/b.proto", "here/a.proto", "here/d.proto/x.y.proto"] ∧
    (run passing [] "here" "bin" ⟨[], tangled.entries.reverse⟩).2.1 =
      [.compiled (request ["here/a/b.proto", "here/a.proto", "here/d.proto/x.y.proto"] "here" "bin" [])] := by
  have hwell : tangled.WellFormed := ⟨by decide, by decide, by decide, by decide, rfl⟩
  have hplace : (tangled.follow true "here").toOption = some ⟨["src"], some .directory⟩ := by decide +kernel
  have hfollow := Except.toOption_eq_some.1 hplace
  have hreach : outOfReach? "here" (tangled.below ["src"]) = none := by
    refine outOfReach?_eq_none.2 ?_
    decide +kernel
  have hopens := (outOfReach?_eq_none_iff hwell (Disk.length_le_of_follow hfollow)).1 hreach
  obtain ⟨sources, hlists, hall⟩ := submits_sources hwell passing ⟨hfollow, hopens⟩
  have hfiles : (filesOf "here" (tangled.below ["src"])).filter (isSource passing) =
      ["here/a/b.proto", "here/a.proto", "here/d.proto/x.y.proto"] := by
    decide +kernel
  have hsorted : List.Pairwise (fun p q => Path.le p q = true)
      ["here/a/b.proto", "here/a.proto", "here/d.proto/x.y.proto"] := by
    decide +kernel
  have hfound := scan_of_follow hfollow hreach passing
  rw [hfiles, List.mergeSort_of_pairwise hsorted] at hfound
  obtain rfl := Except.ok.inj (hfound.symm.trans (hall _ (.refl _) rfl).1)
  obtain ⟨hscan, hrequests⟩ := hall ⟨[], tangled.entries.reverse⟩ (List.reverse_perm _) rfl
  refine ⟨hlists, ?_⟩
  rw [run, hscan]
  rfl

end Build

end ServiceCall
