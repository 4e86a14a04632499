import Mathlib.Data.List.Pairwise
import Mathlib.Tactic.ByContra
import ServiceCall.Build.Basic
import ServiceCall.Proofs.Disk.Descent
/-!
# Scanning for sources

A scan lists what is below a directory in the order of paths, so it does not depend on the order of
the table: disks that are alike where the directory shows have the same sources (`Build.scan_eq`). A
directory can be scanned to the end as long as each one below it can be opened by its path
(`Build.outOfReach?_eq_none_iff`).
-/

namespace ServiceCall

namespace Build

variable {d : Disk} {dir : Path} {at' : Location}

/-- What is listed below a directory can be told apart by the components of its path. -/
theorem eq_of_mem_below (h : d.WellFormed) {x y : Location × Entry} (hx : x ∈ d.below at')
    (hy : y ∈ d.below at')
    (heq : (x.1.foldl Path.join dir).components = (y.1.foldl Path.join dir).components) : x = y := by
  have hdown := h.mem_below_iff_descends.1 hx
  have hdown' := h.mem_below_iff_descends.1 hy
  have hnames : x.1 = y.1 :=
    Path.foldl_join_injective (h.isName_of_descends hdown) (h.isName_of_descends hdown') heq
  refine Prod.ext hnames (Option.some.inj ?_)
  rw [← hdown.lookup_eq, ← hdown'.lookup_eq, hnames]

theorem mem_filesOf {dir p : Path} {below : List (Location × Entry)} (h : p ∈ filesOf dir below) :
    ∃ names e, (names, e) ∈ below ∧ p = names.foldl Path.join dir := by
  obtain ⟨⟨names, e⟩, hmem, hp⟩ := List.mem_filterMap.1 h
  rw [Option.ite_none_right_eq_some, Option.some.injEq] at hp
  exact ⟨names, e, hmem, hp.2.symm⟩

/-- Files that are listed below a directory can be told apart by the components of their paths. -/
theorem filesOf_components_ne (h : d.WellFormed) :
    (filesOf dir (d.below at')).Pairwise fun p q => p.components ≠ q.components := by
  refine List.pairwise_filterMap.2 ((h.nodup_below at').imp_of_mem ?_)
  rintro ⟨names, e⟩ ⟨names', e'⟩ hmem hmem' hne p hp q hq heq
  simp only [Option.ite_none_right_eq_some, Option.some.injEq] at hp hq
  obtain ⟨-, rfl⟩ := hp
  obtain ⟨-, rfl⟩ := hq
  exact hne (eq_of_mem_below h hmem hmem' heq)

theorem eq_of_mem_filesOf (h : d.WellFormed) {p q : Path} (hp : p ∈ filesOf dir (d.below at'))
    (hq : q ∈ filesOf dir (d.below at')) (heq : p.components = q.components) : p = q := by
  have hsymm : Std.Symm fun p q : Path => p.components ≠ q.components := ⟨fun _ _ => Ne.symm⟩
  by_contra hne
  exact (filesOf_components_ne h).forall hp hq hne heq

/-! ## Directories out of reach -/

theorem outOfReach?_eq_none {below : List (Location × Entry)} :
    outOfReach? dir below = none ↔ ∀ x ∈ below, isOutOfReach dir x = false := by
  rw [outOfReach?, List.head?_eq_none_iff, ← List.length_eq_zero_iff, List.length_mergeSort,
    List.length_map, List.length_eq_zero_iff, List.filter_eq_nil_iff]
  simp only [Bool.not_eq_true]

/-- The order of the listing does not matter to which directory is reported. -/
theorem outOfReach?_eq_of_perm (h : d.WellFormed) {below : List (Location × Entry)}
    (hperm : (d.below at').Perm below) :
    outOfReach? dir (d.below at') = outOfReach? dir below := by
  refine congrArg List.head? (Path.mergeSort_eq_of_perm ((hperm.filter _).map _) ?_)
  intro p hp q hq heq
  obtain ⟨x, hx, rfl⟩ := List.mem_map.1 hp
  obtain ⟨y, hy, rfl⟩ := List.mem_map.1 hq
  rw [eq_of_mem_below h (List.mem_filter.1 hx).1 (List.mem_filter.1 hy).1 heq]

/-- Every directory below a location can be opened by its path. -/
def Opens (d : Disk) (dir : Path) (at' : Location) : Prop :=
  ∀ names, d.Descends at' names .directory →
    (names.foldl Path.join dir).length ≤ Disk.maxPathLength

/-- If a directory cannot be opened, then one of those that hold it is reported, or it is itself. -/
theorem outOfReach?_eq_none_iff (h : d.WellFormed) (hdir : dir.length ≤ Disk.maxPathLength) :
    outOfReach? dir (d.below at') = none ↔ Opens d dir at' := by
  rw [outOfReach?_eq_none]
  constructor
  · intro hall names
    -- from the top down: what holds a directory can be opened, so it would be reported itself
    induction names using List.reverseRecOn with
    | nil => exact fun hdown => absurd rfl hdown.ne_nil
    | append_singleton names n ih =>
      intro hdown
      have hholder : (names.foldl Path.join dir).length ≤ Disk.maxPathLength := by
        by_cases hnames : names = []
        · rwa [hnames]
        · refine ih (h.descends_of_lookup hnames (h.lookup_parent (n := n) (e := .directory) ?_))
          rw [List.append_assoc, hdown.lookup_eq]
      have hx := hall (names ++ [n], .directory) (h.mem_below_iff_descends.2 hdown)
      simpa [isOutOfReach, Entry.isDirectory, hholder] using hx
  · rintro hopens ⟨names, e⟩ hmem
    cases e with
    | directory =>
      simp [isOutOfReach, hopens names (h.mem_below_iff_descends.1 hmem)]
    | file content executable | link target | special => rfl

/-! ## What is found -/

theorem isSource_eq_true {t : Toolchain} {p : Path} : isSource t p = true ↔
    p.extension? = some (Path.ofText t.sourceExtension) ∧
      ∀ s, p.fileName?.bind Path.text? = some s → t.isMarker s = false := by
  unfold isSource
  rw [Bool.and_eq_true, decide_eq_true_eq]
  refine and_congr_right fun _ => ?_
  cases p.fileName?.bind Path.text? <;> simp

theorem filesBelow_eq_ok {files : List Path} : filesBelow d dir at' = .ok files ↔
    outOfReach? dir (d.below at') = none ∧ filesOf dir (d.below at') = files := by
  unfold filesBelow
  cases outOfReach? dir (d.below at') <;> simp

/-- A file that is found in a directory goes on from it by names. -/
theorem exists_names_of_regularFiles (h : d.WellFormed) {files : List Path}
    (hfiles : regularFiles d dir = .ok files) {p : Path} (hp : p ∈ files) :
    ∃ names : List String, (∀ n ∈ names, IsName n) ∧ p = names.foldl Path.join dir := by
  obtain ⟨⟨_, here⟩, -, hfiles⟩ := Except.bind_eq_ok.1 hfiles
  cases here with
  | file content executable =>
    obtain rfl := Except.pure_eq_ok.1 hfiles
    exact ⟨[], fun n hn => absurd hn List.not_mem_nil, List.mem_singleton.1 hp⟩
  | directory | link target =>
    obtain ⟨pl, -, hfiles⟩ := Except.bind_eq_ok.1 hfiles
    split at hfiles
    next => cases hfiles
    next =>
      obtain ⟨-, rfl⟩ := filesBelow_eq_ok.1 hfiles
      obtain ⟨names, e, hmem, rfl⟩ := mem_filesOf hp
      exact ⟨names, h.isName_of_descends (h.mem_below_iff_descends.1 hmem), rfl⟩
    next =>
      obtain rfl := Except.pure_eq_ok.1 hfiles
      exact absurd hp List.not_mem_nil
  | special =>
    obtain rfl := Except.pure_eq_ok.1 hfiles
    exact absurd hp List.not_mem_nil

/-- A source that is found in a directory goes on from it by names. -/
theorem exists_names_of_scan (h : d.WellFormed) {t : Toolchain}
    {sources : List Path} (hscan : scan d t dir = .ok sources) {p : Path} (hp : p ∈ sources) :
    ∃ names : List String, (∀ n ∈ names, IsName n) ∧ p = names.foldl Path.join dir := by
  unfold scan at hscan
  split at hscan
  next => cases hscan
  next files hfiles =>
    obtain rfl := Except.ok.inj hscan
    exact exists_names_of_regularFiles h hfiles
      (List.mem_filter.1 ((List.mergeSort_perm _ _).subset hp)).1

/-- A scan fails for what is at a path. -/
theorem exists_of_scan_eq_error {t : Toolchain} {e : BuildError} (hscan : scan d t dir = .error e) :
    ∃ at' cause, e = .scan dir at' cause := by
  unfold scan at hscan
  split at hscan
  next at' cause _ => exact ⟨at', cause, (Except.error.inj hscan).symm⟩
  next => cases hscan

theorem pairwise_of_scan {t : Toolchain} {sources : List Path}
    (hscan : scan d t dir = .ok sources) : sources.Pairwise fun p q => p.le q = true := by
  unfold scan at hscan
  split at hscan
  next => cases hscan
  next files hfiles =>
    obtain rfl := Except.ok.inj hscan
    exact Path.pairwise_mergeSort _

variable {hidden : Hiding} {d₁ d₂ : Disk}

/-- The files below a directory that shows are the same, in some order. -/
theorem regularFiles_perm (h₁ : d₁.WellFormed) (h₂ : d₂.WellFormed)
    (halike : Disk.Alike hidden d₁ d₂) (hclear : d₁.Clear hidden)
    (hway : ∀ l ∈ dir.way d₁.workingDirectory, hidden.Shows l)
    (hbelow : ∀ l, dir.place d₁.workingDirectory <+: l → hidden.Shows l) :
    (∃ e, regularFiles d₁ dir = .error e ∧ regularFiles d₂ dir = .error e) ∨
      ∃ ps qs, regularFiles d₁ dir = .ok ps ∧ regularFiles d₂ dir = .ok qs ∧ ps.Perm qs ∧
        ∀ p ∈ ps, ∀ q ∈ ps, p.components = q.components → p = q := by
  unfold regularFiles Disk.linkEntry
  rw [← halike.follow hclear hway false, ← halike.follow hclear hway true]
  have hsame : d₁.follow true dir = d₁.follow false dir :=
    Disk.follow_congr rfl (fun _ _ => rfl) (hclear.linkFree hway)
  rw [hsame]
  cases hfollow : d₁.follow false dir with
  | error e => exact .inl ⟨_, rfl, rfl⟩
  | ok pl =>
    have hends := h₁.endsAt_of_follow (hclear.linkFree hway) hfollow
    have hplace : dir.place d₁.workingDirectory = pl.location := by
      rw [hends.location, Path.resolve_parts, Path.place]
    simp only [bind, Except.bind, Except.mapError]
    cases hentry : pl.entry with
    | none => exact .inl ⟨_, rfl, rfl⟩
    | some e =>
      cases e with
      | file content executable =>
        refine .inr ⟨_, _, rfl, rfl, .refl _, fun p hp q hq _ => ?_⟩
        rw [List.mem_singleton.1 hp, List.mem_singleton.1 hq]
      | link target =>
        exact .inr ⟨_, _, rfl, rfl, .refl _, fun p hp => absurd hp List.not_mem_nil⟩
      | special =>
        exact .inr ⟨_, _, rfl, rfl, .refl _, fun p hp => absurd hp List.not_mem_nil⟩
      | directory =>
        have hperm : (d₁.below pl.location).Perm (d₂.below pl.location) := by
          refine Disk.below_perm h₁ h₂ fun l _ => halike.lookup_of_shows (hbelow _ ?_)
          rw [hplace]
          exact List.prefix_append ..
        have hreach : outOfReach? dir (d₁.below pl.location) = outOfReach? dir (d₂.below pl.location) :=
          outOfReach?_eq_of_perm h₁ hperm
        unfold filesBelow
        rw [hreach]
        cases outOfReach? dir (d₂.below pl.location) with
        | some p => exact .inl ⟨_, rfl, rfl⟩
        | none =>
          exact .inr ⟨_, _, rfl, rfl, hperm.filterMap _, fun p hp q hq => eq_of_mem_filesOf h₁ hp hq⟩

/-- Disks that are alike where a directory shows have the same sources in it. -/
theorem scan_eq (h₁ : d₁.WellFormed) (h₂ : d₂.WellFormed) (halike : Disk.Alike hidden d₁ d₂)
    (hclear : d₁.Clear hidden) (t : Toolchain)
    (hway : ∀ l ∈ dir.way d₁.workingDirectory, hidden.Shows l)
    (hbelow : ∀ l, dir.place d₁.workingDirectory <+: l → hidden.Shows l) :
    scan d₁ t dir = scan d₂ t dir := by
  unfold scan
  obtain ⟨e, hp, hq⟩ | ⟨ps, qs, hp, hq, hperm, hinj⟩ :=
    regularFiles_perm h₁ h₂ halike hclear hway hbelow
  · rw [hp, hq]
  · rw [hp, hq]
    have hfiltered := hperm.filter (isSource t)
    refine congrArg Except.ok (Path.mergeSort_eq_of_perm hfiltered fun p hp q hq => ?_)
    exact hinj p (List.mem_filter.1 hp).1 q (List.mem_filter.1 hq).1

/-! ## Directories that are there -/

theorem regularFiles_of_follow {l : Location} (hdir : d.follow true dir = .ok ⟨l, some .directory⟩) :
    regularFiles d dir = filesBelow d dir l := by
  obtain ⟨l', e, hentry, rfl | ⟨target, rfl⟩⟩ := Disk.linkEntry_of_follow hdir
  all_goals
    rw [regularFiles, hentry]
    simp only [bind, Except.bind, Except.mapError, hdir]

/-- In a directory a scan sorts what the table lists below it. -/
theorem scan_of_follow {l : Location} (hdir : d.follow true dir = .ok ⟨l, some .directory⟩)
    (hreach : outOfReach? dir (d.below l) = none) (t : Toolchain) :
    scan d t dir = .ok (((filesOf dir (d.below l)).filter (isSource t)).mergeSort Path.le) := by
  rw [scan, regularFiles_of_follow hdir, filesBelow, hreach]

section

variable (h : d.LeadsTo (dir.base d.workingDirectory) dir.steps) (hdir : dir ≠ "")
  (hrefused : dir.refusal? = none) (t : Toolchain) (hwell : d.WellFormed)
include h hdir hrefused hwell

/-- If no directories are below a directory, then its sources are the files in it. -/
theorem scan_of_leadsTo (hflat : ∀ l, dir.Inside d.workingDirectory l → d.lookup l ≠ some .directory) :
    scan d t dir = .ok (((filesOf dir (d.below (dir.place d.workingDirectory))).filter
      (isSource t)).mergeSort Path.le) := by
  refine scan_of_follow (h.follow hdir hrefused _) (outOfReach?_eq_none.2 ?_) t
  rintro ⟨names, e⟩ hmem
  cases e with
  | directory =>
    have hdown := hwell.mem_below_iff_descends.1 hmem
    exact absurd hdown.lookup_eq (hflat _ ⟨List.prefix_append .., by simpa using hdown.ne_nil⟩)
  | file content executable | link target | special => rfl

theorem scan_eq_nil (hempty : ∀ l, dir.Inside d.workingDirectory l → d.lookup l = none) :
    scan d t dir = .ok [] := by
  have hbelow : d.below (dir.place d.workingDirectory) = [] := by
    refine List.eq_nil_iff_forall_not_mem.2 fun ⟨l, e⟩ hmem => ?_
    obtain ⟨hl, hmem⟩ := Disk.mem_below.1 hmem
    have hlookup := (hwell.lookup_eq_some (by simp [hl])).2 hmem
    rw [hempty _ ⟨List.prefix_append .., by simpa using hl⟩] at hlookup
    cases hlookup
  have hflat (l : Location) (hl : dir.Inside d.workingDirectory l) : d.lookup l ≠ some .directory := by
    simp [hempty l hl]
  rw [scan_of_leadsTo h hdir hrefused t hwell hflat, hbelow, filesOf, List.filterMap_nil,
    List.filter_nil, List.mergeSort_nil]

/-- A file with the extension of sources is found. -/
theorem exists_scan_of_file
    (hflat : ∀ l, dir.Inside d.workingDirectory l → d.lookup l ≠ some .directory) {n : String}
    (hn : IsName n) (hextension : Path.extensionOf? n = some (Path.ofText t.sourceExtension))
    (hmarker : ∀ s, Path.text? n = some s → t.isMarker s = false) {content : Bytes} {executable : Bool}
    (hfile : d.lookup (dir.place d.workingDirectory ++ [n]) = some (.file content executable)) :
    ∃ sources, scan d t dir = .ok sources ∧ Path.join dir n ∈ sources := by
  refine ⟨_, scan_of_leadsTo h hdir hrefused t hwell hflat,
    (List.mergeSort_perm _ _).symm.subset ?_⟩
  have hname : Path.fileName? (Path.join dir n) = some n := by
    rw [Path.fileName?, Path.components_join hn, List.getLast?_concat]
  refine List.mem_filter.2 ⟨List.mem_filterMap.2 ⟨([n], .file content executable), ?_, rfl⟩, ?_⟩
  · exact Disk.mem_below.2 ⟨by simp, (hwell.lookup_eq_some (by simp)).1 hfile⟩
  · rw [isSource_eq_true, Path.extension?, hname, Option.bind_some]
    exact ⟨hextension, fun s hs => hmarker s hs⟩

end

end Build

end ServiceCall
