import ServiceCall.Build.Protoc
import ServiceCall.Proofs.Basic.Except
import ServiceCall.Proofs.Build.Scan
import ServiceCall.Proofs.Disk.Absolute
/-!
# The command line of the compiler

The compiler is called at most once in a build, with paths that are written from the root
(`Protoc.CommandLine`). What is written for a source goes on from what is written for the directory of
sources by the same names, so none of them can be taken for an option, and every source is inside the first
place where the compiler looks for files, if there is a text for that place (`Protoc.called_illegible`). A
path that cannot be written keeps the compiler from being called at all (`Protoc.course_of_run`).
-/

namespace ServiceCall

namespace Protoc

variable {d : Disk} {p q : Path}

/-! ## Paths on the command line -/

/-- A path, and what is written for it from the root. -/
structure Written (d : Disk) (p q : Path) : Prop where
  absolute : Path.absolute? (workingPath d) p = some q
  rooted : Path.Rooted d.workingDirectory p q

/-- The paths that go on the command line. -/
def namedPaths (unit : CompileRequest) : List Path :=
  Path.join unit.outputDir descriptorSetName :: unit.sourceRoot :: (unit.includePaths ++ unit.sources)

/-- An argument is an option with a path. The path stands there as it is if there is a text for it. -/
def Shows (named : String × Path) (arg : String) : Prop :=
  (∃ shown, arg = named.1 ++ shown) ∧ (named.2.HasText → arg = named.1 ++ named.2)

/-- The command line of a unit. `out` is where the descriptor set goes, `root` is the directory of the
sources, `roots` are the further directories, and each of `files` leads from the first to a source. -/
structure CommandLine (d : Disk) (unit : CompileRequest) (out root : Path) (roots : List Path)
    (files : List (List String)) (args : List String) : Prop where
  output : Written d (Path.join unit.outputDir "descriptors.bin") out
  sourceRoot : Written d unit.sourceRoot root
  includePaths : List.Forall₂ (Written d) unit.includePaths roots
  sources : unit.sources = files.map (·.foldl Path.join unit.sourceRoot)
  ordered : unit.sources.Pairwise fun p q => p.le q = true
  inside : ∀ names ∈ files, (∀ n ∈ names, IsName n) ∧
    Written d (names.foldl Path.join unit.sourceRoot) (names.foldl Path.join root) ∧
    (names.foldl Path.join root).components = root.components ++ names.map .name
  args_eq : ∃ options,
    List.Forall₂ Shows (("--descriptor_set_out=", out) :: (root :: roots).map ("--proto_path=", ·)) options ∧
    args = "--include_imports" :: options ++ files.map (·.foldl Path.join root)

theorem absolute_eq_ok : absolute d p = .ok q ↔ Path.absolute? (workingPath d) p = some q := by
  unfold absolute
  split
  next h => rw [h, Except.ok.injEq, Option.some.injEq]
  next h => simp [h]

theorem eq_of_absolute {e : IoError} (h : absolute d p = .error e) : e = .emptyPath := by
  unfold absolute at h
  split at h <;> cases h
  rfl

theorem isAbsolute_workingPath (d : Disk) : (workingPath d).isAbsolute = true :=
  Path.isAbsolute_append (p := "/") rfl _

theorem steps_intercalate {names : List String} (h : ∀ n ∈ names, IsName n) :
    Path.steps ("/".intercalate names) = names := by
  induction names with
  | nil => rfl
  | cons n rest ih =>
    have hn := Path.steps_of_isName (h n (.head _))
    by_cases hrest : rest = []
    · rw [hrest, String.intercalate_singleton, hn]
    · rw [String.intercalate_cons_of_ne_nil hrest, Path.steps_append_slash, hn,
        ih fun m hm => h m (.tail _ hm)]
      rfl

theorem steps_workingPath (h : d.WellFormed) : (workingPath d).steps = d.workingDirectory := by
  have hslash := Path.steps_append_slash "" ("/".intercalate d.workingDirectory)
  rw [String.empty_append] at hslash
  rw [workingPath, hslash, steps_intercalate fun n hn => h.isName h.workingDirectory hn]
  rfl

theorem written_of_absolute (h : d.WellFormed) (hq : Path.absolute? (workingPath d) p = some q) :
    Written d p q :=
  ⟨hq, Path.rooted_of_absolute? (isAbsolute_workingPath d) (steps_workingPath h) hq⟩

/-! ## Arguments -/

variable {unit : CompileRequest} {args : List String}

theorem shows_shownOption (option : String) (p : Path) : Shows (option, p) (shownOption option p) :=
  ⟨⟨_, rfl⟩, fun h => congrArg (option ++ ·) h.ofText_shown⟩

theorem arguments_eq_ok : arguments d unit = .ok args ↔ ∃ out root roots sources,
    absolute d (Path.join unit.outputDir descriptorSetName) = .ok out ∧
    absolute d unit.sourceRoot = .ok root ∧
    List.Forall₂ (fun p q => absolute d p = .ok q) unit.includePaths roots ∧
    List.Forall₂ (fun p q => absolute d p = .ok q) unit.sources sources ∧
    args = "--include_imports" :: shownOption "--descriptor_set_out=" out ::
      shownOption "--proto_path=" root :: (roots.map (shownOption "--proto_path=") ++ sources) := by
  unfold arguments descriptorSet
  simp only [Except.bind_eq_ok, Except.pure_eq_ok, List.mapM_eq_ok, eq_comm (a := args)]
  constructor
  · rintro ⟨out, hout, root, hroot, roots, hroots, sources, hsources, hargs⟩
    exact ⟨out, root, roots, sources, hout, hroot, hroots, hsources, hargs⟩
  · rintro ⟨out, root, roots, sources, hout, hroot, hroots, hsources, hargs⟩
    exact ⟨out, hout, root, hroot, roots, hroots, sources, hsources, hargs⟩

theorem exists_arguments_iff : (∃ args, arguments d unit = .ok args) ↔
    ∀ p ∈ namedPaths unit, Path.absolute? (workingPath d) p ≠ none := by
  have hwritten (p : Path) : Path.absolute? (workingPath d) p ≠ none ↔ ∃ q, absolute d p = .ok q := by
    simp only [absolute_eq_ok, Option.ne_none_iff_exists']
  simp only [hwritten, arguments_eq_ok, namedPaths, List.forall_mem_cons, List.forall_mem_append,
    ← List.exists_mapM_eq_ok, List.mapM_eq_ok]
  constructor
  · rintro ⟨args, out, root, roots, sources, hout, hroot, hroots, hsources, -⟩
    exact ⟨⟨out, hout⟩, ⟨root, hroot⟩, ⟨roots, hroots⟩, ⟨sources, hsources⟩⟩
  · rintro ⟨⟨out, hout⟩, ⟨root, hroot⟩, ⟨roots, hroots⟩, ⟨sources, hsources⟩⟩
    exact ⟨_, out, root, roots, sources, hout, hroot, hroots, hsources, rfl⟩

theorem eq_of_mapM {ps : List Path} {e : IoError} (h : ps.mapM (absolute d) = .error e) :
    e = .emptyPath := by
  obtain ⟨_, p, _, -, -, hp⟩ := List.mapM_eq_error.1 h
  exact eq_of_absolute hp

theorem eq_of_arguments {e : IoError} (h : arguments d unit = .error e) : e = .emptyPath := by
  obtain h | ⟨out, -, h⟩ := Except.bind_eq_error.1 h
  · exact eq_of_absolute h
  obtain h | ⟨root, -, h⟩ := Except.bind_eq_error.1 h
  · exact eq_of_absolute h
  obtain h | ⟨roots, -, h⟩ := Except.bind_eq_error.1 h
  · exact eq_of_mapM h
  obtain h | ⟨sources, -, h⟩ := Except.bind_eq_error.1 h
  · exact eq_of_mapM h
  · cases h

/-- A path that cannot be written keeps the compiler from being called. -/
theorem compile_of_unwritable (hp : p ∈ namedPaths unit) (hnone : Path.absolute? (workingPath d) p = none)
    (launch : Launcher) (program : Path) : compile launch program unit d = (.error .emptyPath, d) := by
  cases hargs : arguments d unit with
  | ok args => exact absurd hnone (exists_arguments_iff.1 ⟨args, hargs⟩ p hp)
  | error e =>
    obtain rfl := eq_of_arguments hargs
    unfold compile
    rw [hargs]
    cases hout : descriptorSet d unit with
    | ok out => rfl
    | error e =>
      obtain rfl := eq_of_absolute hout
      rfl

/-! ## How a build goes -/

/-- What is done with a launcher is one call. -/
def CallsOnce (program : Path) (args : List String) (d : Disk)
    (build : Launcher → Except BuildError (List Path) × List BuildStep × Disk) : Prop :=
  ∃ judge : Except IoError ProcessOutput → Except BuildError (List Path) × List BuildStep,
    ∀ launch, build launch = ((judge (launch program args d).1).1, (judge (launch program args d).1).2,
      (launch program args d).2)

/-- A compiler that can be called is called once. -/
theorem compile_of_arguments (hargs : arguments d unit = .ok args) :
    ∃ judge : Except IoError ProcessOutput → Except IoError CompileOutcome, ∀ launch program,
      compile launch program unit d =
        (judge (launch program args d).1, (launch program args d).2) := by
  obtain ⟨out, -, -, -, hout, -⟩ := arguments_eq_ok.1 hargs
  refine ⟨fun output => output.map fun output => ⟨output.status.isSuccess,
    if output.status.isSuccess then [out] else [],
    Diagnostic.ofReport (Utf8.lossy output.stderr)⟩, fun launch program => ?_⟩
  have hset : descriptorSet d unit = .ok out := hout
  unfold compile
  rw [hset, hargs]
  dsimp only
  rcases launch program args d with ⟨_ | _, _⟩ <;> rfl

/-- What a build makes of what a toolchain reports. -/
def conclude (unit : CompileRequest) :
    Except IoError CompileOutcome → Except BuildError (List Path) × List BuildStep
  | .error e => (.error (.toolchain e), [.compiled unit])
  | .ok outcome =>
    match Build.verdict outcome with
    | .error e => (.error e, [.compiled unit])
    | .ok artifacts => (.ok artifacts, .compiled unit :: outcome.diagnostics.map fun x => .warned x.text)

section

variable {program sourceDir binaryDir : Path} {includes sources : List Path}

theorem run_eq_conclude {t : Toolchain} (hscan : Build.scan d t sourceDir = .ok sources)
    (hsources : sources ≠ []) {report : Except IoError CompileOutcome} {d' : Disk}
    (hcompile : t.compile (Build.request sources sourceDir binaryDir includes) d = (report, d')) :
    Build.run t includes sourceDir binaryDir d =
      ((conclude (Build.request sources sourceDir binaryDir includes) report).1,
        (conclude (Build.request sources sourceDir binaryDir includes) report).2, d') := by
  obtain ⟨p, rest, rfl⟩ := List.exists_cons_of_ne_nil hsources
  rw [Build.run, hscan]
  dsimp only
  rw [hcompile]
  cases report with
  | error e => rfl
  | ok outcome =>
    unfold conclude
    dsimp only
    cases Build.verdict outcome <;> rfl

/-- The sources of a command line are those of the directory, written from the root. -/
theorem commandLine_of_arguments (h : d.WellFormed) {t : Toolchain}
    (hscan : Build.scan d t sourceDir = .ok sources)
    (hargs : arguments d (Build.request sources sourceDir binaryDir includes) = .ok args) :
    ∃ out root roots files, CommandLine d (Build.request sources sourceDir binaryDir includes)
      out root roots files args := by
  obtain ⟨out, root, roots, written, hout, hroot, hroots, hwritten, hargs⟩ := arguments_eq_ok.1 hargs
  choose! names hnames hpath using fun p hp => Build.exists_names_of_scan h hscan (p := p) hp
  have hsources : sources = (sources.map names).map (·.foldl Path.join sourceDir) := by
    rw [List.map_map]
    exact ((List.map_congr_left fun p hp => (hpath p hp).symm).trans (List.map_id sources)).symm
  have hinside : ∀ p ∈ sources, absolute d ((names p).foldl Path.join sourceDir) =
      .ok ((names p).foldl Path.join root) := fun p hp =>
    absolute_eq_ok.2 (Path.absolute?_foldl_join (hnames p hp) (absolute_eq_ok.1 hroot))
  have heq : written = (sources.map names).map (·.foldl Path.join root) := by
    refine Except.ok.inj ((List.mapM_eq_ok.2 hwritten).symm.trans (List.mapM_eq_ok.2 ?_))
    rw [List.map_map, List.forall₂_map_right_iff]
    exact List.forall₂_same.2 fun p hp => (congrArg _ (hpath p hp)).trans (hinside p hp)
  refine ⟨out, root, roots, sources.map names, ?_⟩
  exact {
    output := written_of_absolute h (absolute_eq_ok.1 hout)
    sourceRoot := written_of_absolute h (absolute_eq_ok.1 hroot)
    includePaths := hroots.imp fun _ _ hq => written_of_absolute h (absolute_eq_ok.1 hq)
    sources := hsources
    ordered := Build.pairwise_of_scan hscan
    inside := fun ns hns => by
      obtain ⟨p, hp, rfl⟩ := List.mem_map.1 hns
      exact ⟨hnames p hp, written_of_absolute h (absolute_eq_ok.1 (hinside p hp)),
        Path.components_foldl_join (hnames p hp) root⟩
    args_eq := by
      refine ⟨_, .cons (shows_shownOption _ out) (.cons (shows_shownOption _ root) ?_), heq ▸ hargs⟩
      rw [List.forall₂_map_left_iff, List.forall₂_map_right_iff]
      exact List.forall₂_same.2 fun p _ => shows_shownOption _ p }

/-- With arguments for its sources a build calls the compiler once. -/
theorem callsOnce_of_arguments
    (hscan : ∀ launch, Build.scan d (toolchain launch program) sourceDir = .ok sources)
    (hsources : sources ≠ [])
    (hargs : arguments d (Build.request sources sourceDir binaryDir includes) = .ok args) :
    CallsOnce program args d fun launch =>
      Build.run (toolchain launch program) includes sourceDir binaryDir d := by
  obtain ⟨judge, hjudge⟩ := compile_of_arguments hargs
  refine ⟨fun output => conclude (Build.request sources sourceDir binaryDir includes) (judge output), ?_⟩
  exact fun launch => run_eq_conclude (hscan launch) hsources (hjudge launch program)

/-- What keeps the sources from being found is all that becomes of a build. -/
theorem run_of_unscanned {t : Toolchain} {e : BuildError} (hscan : Build.scan d t sourceDir = .error e) :
    Build.run t includes sourceDir binaryDir d = (.error e, [], d) := by
  rw [Build.run, hscan]

/-- Without sources there is nothing to do. -/
theorem run_of_no_sources {t : Toolchain} (hscan : Build.scan d t sourceDir = .ok []) :
    Build.run t includes sourceDir binaryDir d = (.ok [], [], d) := by
  rw [Build.run, hscan]

end

section

variable (program : Path) (includes : List Path) (sourceDir binaryDir : Path) (d : Disk)

/-- How a build goes, whatever the launcher is. -/
inductive Course : Prop where
  /-- The sources cannot be looked for, and nothing is called. -/
  | unscanned {at' : Path} {cause : IoError}
      (hscan : ∀ launch,
        Build.scan d (toolchain launch program) sourceDir = .error (.scan sourceDir at' cause))
      (hrun : ∀ launch, Build.run (toolchain launch program) includes sourceDir binaryDir d =
        (.error (.scan sourceDir at' cause), [], d))
  /-- There is nothing to compile, and nothing is called. -/
  | idle (hscan : ∀ launch, Build.scan d (toolchain launch program) sourceDir = .ok [])
      (hrun : ∀ launch,
        Build.run (toolchain launch program) includes sourceDir binaryDir d = (.ok [], [], d))
  /-- There is a path that cannot be written from the root, and nothing is called. -/
  | unwritable {sources : List Path} {p : Path}
      (hscan : ∀ launch, Build.scan d (toolchain launch program) sourceDir = .ok sources)
      (hsources : sources ≠ [])
      (hp : p ∈ namedPaths (Build.request sources sourceDir binaryDir includes))
      (hnone : Path.absolute? (workingPath d) p = none)
      (hrun : ∀ launch, Build.run (toolchain launch program) includes sourceDir binaryDir d =
        (.error (.toolchain .emptyPath),
          [.compiled (Build.request sources sourceDir binaryDir includes)], d))
  /-- The compiler is called for the sources. -/
  | called {sources : List Path} {out root : Path} {roots : List Path} {files : List (List String)}
      {args : List String}
      (hscan : ∀ launch, Build.scan d (toolchain launch program) sourceDir = .ok sources)
      (hsources : sources ≠ [])
      (hline : CommandLine d (Build.request sources sourceDir binaryDir includes) out root roots files
        args)
      (honce : CallsOnce program args d fun launch =>
        Build.run (toolchain launch program) includes sourceDir binaryDir d)

end

/-- A build calls the compiler for the sources it finds, unless one of the paths cannot be written from the
root. -/
theorem course_of_run (h : d.WellFormed) (program : Path) (includes : List Path)
    (sourceDir binaryDir : Path) : Course program includes sourceDir binaryDir d := by
  -- the launcher has no part in the scan
  cases hscan : Build.scan d (toolchain (fun _ _ d => (.error .notFound, d)) program) sourceDir with
  | error e =>
    obtain ⟨at', cause, rfl⟩ := Build.exists_of_scan_eq_error hscan
    replace hscan (launch : Launcher) :
        Build.scan d (toolchain launch program) sourceDir = .error (.scan sourceDir at' cause) := hscan
    exact .unscanned hscan fun launch => run_of_unscanned (hscan launch)
  | ok sources =>
    replace hscan (launch : Launcher) :
        Build.scan d (toolchain launch program) sourceDir = .ok sources := hscan
    by_cases hsources : sources = []
    · subst hsources
      exact .idle hscan fun launch => run_of_no_sources (hscan launch)
    by_cases hall : ∀ p ∈ namedPaths (Build.request sources sourceDir binaryDir includes),
        Path.absolute? (workingPath d) p ≠ none
    · obtain ⟨args, hargs⟩ := exists_arguments_iff.2 hall
      obtain ⟨out, root, roots, files, hline⟩ :=
        commandLine_of_arguments h (hscan fun _ _ d => (.error .notFound, d)) hargs
      exact .called hscan hsources hline (callsOnce_of_arguments hscan hsources hargs)
    · push Not at hall
      obtain ⟨p, hp, hnone⟩ := hall
      refine .unwritable hscan hsources hp hnone fun launch => ?_
      exact run_eq_conclude (hscan launch) hsources (compile_of_unwritable hp hnone launch program)

/-- A source in a directory, both with names like options. -/
def hostile : Disk := ⟨["w"], [(["w"], .directory), (["w", "src"], .directory),
  (["w", "src", "-I"], .directory), (["w", "src", "-I", "@x.proto"], .file [] false)]⟩

/-- The compiler is called with paths that cannot be taken for anything else, or not at all. -/
theorem called_hostile :
    CallsOnce "protoc" ["--include_imports", "--descriptor_set_out=/w/bin/descriptors.bin",
        "--proto_path=/w/src/", "--proto_path=/w/..", "--proto_path=/up/", "/w/src/-I/@x.proto"] hostile
        (fun launch => Build.run (toolchain launch "protoc") ["..", "/up/./"] "./src//" "bin" hostile) ∧
      ∀ launch, (Build.run (toolchain launch "protoc") [""] "./src//" "bin" hostile).1 =
        .error (.toolchain .emptyPath) := by
  have hwell : hostile.WellFormed := ⟨by decide, by decide, by decide, by decide, rfl⟩
  have hfound (launch : Launcher) : Build.scan hostile (toolchain launch "protoc") "./src//" =
      .ok ["./src//-I/@x.proto"] := by
    have hscan : (Build.scan hostile (toolchain (fun _ _ d => (.error .notFound, d)) "protoc")
        "./src//").toOption = some ["./src//-I/@x.proto"] := by
      decide +kernel
    exact Except.toOption_eq_some.1 hscan
  constructor
  · cases course_of_run hwell "protoc" ["..", "/up/./"] "./src//" "bin" with
    | unscanned hscan => cases (hfound fun _ _ d => (.error .notFound, d)).symm.trans (hscan _)
    | idle hscan => cases (hfound fun _ _ d => (.error .notFound, d)).symm.trans (hscan _)
    | unwritable hscan hsources hp hnone hrun =>
      obtain rfl := Except.ok.inj ((hscan fun _ _ d => (.error .notFound, d)).symm.trans (hfound _))
      rw [Path.absolute?_eq_none] at hnone
      exact absurd (hnone ▸ hp) (by decide +kernel)
    | @called _ out root roots files _ hscan hsources hline honce =>
      obtain rfl := Except.ok.inj ((hscan fun _ _ d => (.error .notFound, d)).symm.trans (hfound _))
      have hwritten {p q : Path} (q' : Path) (h : Written hostile p q)
          (hq : Path.absolute? (workingPath hostile) p = some q') : q = q' :=
        Option.some.inj (h.absolute.symm.trans hq)
      obtain rfl := hwritten "/w/bin/descriptors.bin" hline.output (by decide +kernel)
      obtain rfl := hwritten "/w/src/" hline.sourceRoot (by decide +kernel)
      obtain _ | ⟨hparent, _ | ⟨hup, _ | _⟩⟩ := hline.includePaths
      obtain rfl := hwritten "/w/.." hparent (by decide +kernel)
      obtain rfl := hwritten "/up/" hup (by decide +kernel)
      -- the one source is written as it is found below what is written for the directory
      obtain ⟨names, rfl⟩ : ∃ names, files = [names] := by
        rw [← List.length_eq_one_iff, ← List.length_map, ← hline.sources]
        rfl
      have hpath : "./src//-I/@x.proto" = names.foldl Path.join "./src//" :=
        List.singleton_inj.1 hline.sources
      have hsource : Written hostile (names.foldl Path.join "./src//") (names.foldl Path.join "/w/src/") :=
        (hline.inside names (List.mem_singleton_self _)).2.1
      rw [← hpath] at hsource
      have hfile := hwritten "/w/src/-I/@x.proto" hsource (by decide +kernel)
      obtain ⟨options, hoptions, rfl⟩ := hline.args_eq
      obtain _ | ⟨⟨-, hout⟩, _ | ⟨⟨-, hroot⟩, _ | ⟨⟨-, hfirst⟩, _ | ⟨⟨-, hsecond⟩, _ | _⟩⟩⟩⟩ := hoptions
      rw [hout ⟨"/w/bin/descriptors.bin", by decide +kernel⟩, hroot ⟨"/w/src/", by decide +kernel⟩,
        hfirst ⟨"/w/..", by decide +kernel⟩, hsecond ⟨"/up/", by decide +kernel⟩, List.map_singleton,
        hfile] at honce
      exact honce
  · cases course_of_run hwell "protoc" [""] "./src//" "bin" with
    | unscanned hscan => cases (hfound fun _ _ d => (.error .notFound, d)).symm.trans (hscan _)
    | idle hscan => cases (hfound fun _ _ d => (.error .notFound, d)).symm.trans (hscan _)
    | unwritable hscan hsources hp hnone hrun => exact fun launch => congrArg Prod.fst (hrun launch)
    | called hscan hsources hline honce =>
      obtain ⟨q, -, hq⟩ := hline.includePaths.exists_right (List.mem_singleton_self "")
      cases hq.absolute

/-- A directory with a name that is no text, with a source in it, and a directory without sources. -/
def illegible : Disk := ⟨[], [(["s\xff"], .directory), (["s\xff", "a.proto"], .file [] false),
  (["none"], .directory)]⟩

/-- A directory that is no text is not named on the command line, and what is named instead does not hold
the source. Without sources a path that cannot be written does not matter. -/
theorem called_illegible :
    illegible.WellFormed ∧ absolute illegible "/s\xff" = .ok "/s\xff" ∧
      CallsOnce "protoc" ["--include_imports", "--descriptor_set_out=/bin/descriptors.bin",
        "--proto_path=/s\xef\xbf\xbd", "/s\xff/a.proto"] illegible
        (fun launch => Build.run (toolchain launch "protoc") [] "/s\xff" "/bin" illegible) ∧
      ¬ Path.components "/s\xef\xbf\xbd" <+: Path.components "/s\xff/a.proto" ∧
      absolute illegible "" = .error .emptyPath ∧
      ∀ launch, Build.run (toolchain launch "protoc") [""] "/none" "/bin" illegible = (.ok [], [], illegible) := by
  have hfound (launch : Launcher) : Build.scan illegible (toolchain launch "protoc") "/s\xff" =
      .ok ["/s\xff/a.proto"] := by
    have hscan : (Build.scan illegible (toolchain (fun _ _ d => (.error .notFound, d)) "protoc")
        "/s\xff").toOption = some ["/s\xff/a.proto"] := by
      decide +kernel
    exact Except.toOption_eq_some.1 hscan
  have hnone (launch : Launcher) : Build.scan illegible (toolchain launch "protoc") "/none" = .ok [] := by
    have hscan : (Build.scan illegible (toolchain (fun _ _ d => (.error .notFound, d)) "protoc")
        "/none").toOption = some [] := by
      decide +kernel
    exact Except.toOption_eq_some.1 hscan
  have hargs : (arguments illegible (Build.request ["/s\xff/a.proto"] "/s\xff" "/bin" [])).toOption =
      some ["--include_imports", "--descriptor_set_out=/bin/descriptors.bin",
        "--proto_path=/s\xef\xbf\xbd", "/s\xff/a.proto"] := by
    decide +kernel
  refine ⟨⟨by decide, by decide, by decide, by decide, rfl⟩, absolute_eq_ok.2 (by decide +kernel), ?_,
    by decide +kernel, rfl, fun launch => ?_⟩
  · exact callsOnce_of_arguments hfound (by simp) (Except.toOption_eq_some.1 hargs)
  · exact run_of_no_sources (hnone launch)

end Protoc

end ServiceCall
