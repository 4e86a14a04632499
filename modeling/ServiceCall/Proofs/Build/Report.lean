import Mathlib.Tactic.ByContra
import ServiceCall.Build.Basic
import ServiceCall.Build.Protoc
import ServiceCall.Proofs.Basic.Except
import ServiceCall.Proofs.Text.Lines
/-!
# How a build goes

A build ends in one of five ways (`Build.Ends`): the sources cannot be listed, there are none, the
toolchain cannot be run, it reports a failure, or what it reports passes. A report passes exactly if it
is one of success without an error (`Build.verdict_cases`).

A build whose compiler is run and ends is judged by the exit status and by the lines of the report that
are not blank (`Protoc.judged_of_runs`): it succeeds if the status is one of success and every line is a
warning, each of which is passed on, and otherwise it fails with all lines. Such a report is read line by
line, so reports can be read one after the other, and what was read is read again in the same way when it
is written back (`Diagnostic.ofReport_composes`).
-/

namespace ServiceCall

namespace Build

section

variable (t : Toolchain) (includes : List Path) (sourceDir binaryDir : Path) (d : Disk)

/-- A build ends with a result, these steps and this disk. -/
inductive Ends : Except BuildError (List Path) → List BuildStep → Disk → Prop where
  | unscanned {e : BuildError} (hscan : scan d t sourceDir = .error e) : Ends (.error e) [] d
  | sourceless (hscan : scan d t sourceDir = .ok []) : Ends (.ok []) [] d
  | unlaunched {sources : List Path} {e : IoError} {d' : Disk}
      (hscan : scan d t sourceDir = .ok sources) (hsources : sources ≠ [])
      (hcompile : t.compile (request sources sourceDir binaryDir includes) d = (.error e, d')) :
      Ends (.error (.toolchain e)) [.compiled (request sources sourceDir binaryDir includes)] d'
  | refused {sources : List Path} {outcome : CompileOutcome} {d' : Disk}
      (hscan : scan d t sourceDir = .ok sources) (hsources : sources ≠ [])
      (hcompile : t.compile (request sources sourceDir binaryDir includes) d = (.ok outcome, d'))
      (hverdict : outcome.success = true → ∃ x ∈ outcome.diagnostics, x.severity = .error) :
      Ends (.error (.failed outcome.diagnostics))
        [.compiled (request sources sourceDir binaryDir includes)] d'
  | finished {sources : List Path} {outcome : CompileOutcome} {d' : Disk}
      (hscan : scan d t sourceDir = .ok sources) (hsources : sources ≠ [])
      (hcompile : t.compile (request sources sourceDir binaryDir includes) d = (.ok outcome, d'))
      (hsuccess : outcome.success = true) (hverdict : ∀ x ∈ outcome.diagnostics, x.severity ≠ .error) :
      Ends (.ok outcome.artifacts) (.compiled (request sources sourceDir binaryDir includes) ::
        (outcome.diagnostics.map (·.text)).map .warned) d'

end

variable {t : Toolchain} {includes : List Path} {sourceDir binaryDir : Path} {d d' : Disk}
  {result : Except BuildError (List Path)} {builds : List BuildStep}

/-- A report passes exactly if it is one of success without an error. -/
theorem verdict_cases (outcome : CompileOutcome) :
    (verdict outcome = .ok outcome.artifacts ∧ outcome.success = true ∧
        ∀ x ∈ outcome.diagnostics, x.severity ≠ .error) ∨
      verdict outcome = .error (.failed outcome.diagnostics) ∧
        (outcome.success = true → ∃ x ∈ outcome.diagnostics, x.severity = .error) := by
  have hseverity (s : Severity) : s = .warning ↔ s ≠ .error := by cases s <;> simp
  have hpasses : (outcome.success && outcome.diagnostics.all (·.severity = .warning)) = true ↔
      outcome.success = true ∧ ∀ x ∈ outcome.diagnostics, x.severity ≠ .error := by
    simp only [Bool.and_eq_true, List.all_eq_true, decide_eq_true_eq, hseverity]
  unfold verdict
  split
  next h => exact .inl ⟨rfl, hpasses.1 h⟩
  next h =>
    refine .inr ⟨rfl, fun hsuccess => ?_⟩
    by_contra hnone
    exact h (hpasses.2 ⟨hsuccess, fun x hx heq => hnone ⟨x, hx, heq⟩⟩)

theorem ends_of_run (h : run t includes sourceDir binaryDir d = (result, builds, d')) :
    Ends t includes sourceDir binaryDir d result builds d' := by
  unfold run at h
  split at h
  next e hscan =>
    cases h
    exact .unscanned hscan
  next hscan =>
    cases h
    exact .sourceless hscan
  next sources hne hscan =>
    have hsources : sources ≠ [] := fun hnil => hne (hnil ▸ rfl)
    dsimp only at h
    split at h
    next e d₁ hcompile =>
      cases h
      exact .unlaunched hscan hsources hcompile
    next outcome d₁ hcompile =>
      obtain ⟨hverdict, hsuccess, hclean⟩ | ⟨hverdict, herror⟩ := verdict_cases outcome
      · rw [hverdict] at h
        cases h
        rw [← Function.comp_def, ← List.map_map]
        exact .finished hscan hsources hcompile hsuccess hclean
      · rw [hverdict] at h
        cases h
        exact .refused hscan hsources hcompile herror

end Build

/-! ## Reports -/

open Text (inkedLines)

theorem Diagnostic.ofReport_eq (report : String) :
    ofReport report = (inkedLines report.toList).map ofLine := by
  rw [ofReport, Text.filter_trimRight_lines]

theorem Diagnostic.text_ofLine (l : List Char) : (ofLine l).text.toList = l := String.toList_ofList

theorem Diagnostic.severity_ofLine {l : List Char} :
    (ofLine l).severity ≠ .error ↔ warningMark <:+: l := by
  rw [← Text.holds_iff, ofLine]
  dsimp only
  split
  next h => simp [h]
  next h => simp [h]

theorem Diagnostic.render_map_ofLine (ls : List (List Char)) :
    render (ls.map ofLine) = "\n".intercalate (ls.map String.ofList) := by
  rw [render, List.map_map]
  rfl

namespace Diagnostic

/-- Of reports with a line feed between them the diagnostics of the first come first. -/
theorem ofReport_feed (a b : String) : ofReport (a ++ "\n" ++ b) = ofReport a ++ ofReport b := by
  have hchars : (a ++ "\n" ++ b).toList = a.toList ++ '\n' :: b.toList := by simp
  rw [ofReport_eq, ofReport_eq, ofReport_eq, hchars, Text.inkedLines_append_feed, List.map_append]

theorem ofReport_intercalate_feed (reports : List String) :
    ofReport ("\n".intercalate reports) = reports.flatMap ofReport := by
  induction reports with
  | nil => rfl
  | cons a reports ih =>
    rw [List.flatMap_cons, ← ih]
    cases reports with
    | nil => exact (List.append_nil (ofReport a)).symm
    | cons b reports => rw [String.intercalate_cons_cons, ofReport_feed]

/-- The text of a diagnostic is a report of just this diagnostic. -/
theorem ofReport_text {report : String} {x : Diagnostic} (h : x ∈ ofReport report) :
    ofReport x.text = [x] := by
  rw [ofReport_eq] at h
  obtain ⟨l, hl, rfl⟩ := List.mem_map.1 h
  rw [ofReport_eq, text_ofLine, Text.inkedLines_of_mem hl, List.map_singleton]

/-- What was read and is written back is read again with the same severities, files and texts. -/
theorem ofReport_render (report : String) : ofReport (render (ofReport report)) = ofReport report :=
  calc ofReport (render (ofReport report))
    _ = (ofReport report).flatMap fun x => ofReport x.text := by
      rw [render, ofReport_intercalate_feed, List.flatMap_map]
    _ = (ofReport report).flatMap fun x => [x] := List.flatMap_congr fun x hx => ofReport_text hx
    _ = ofReport report := List.flatMap_singleton' _

/-- Two reports with a line feed between them are read one after the other, whatever they end and start
with, and reading a report again after it was written back changes nothing. -/
theorem ofReport_composes : (∀ a b, ofReport (a ++ "\n" ++ b) = ofReport a ++ ofReport b) ∧
    ∀ report, ofReport (render (ofReport report)) = ofReport report :=
  ⟨ofReport_feed, ofReport_render⟩

end Diagnostic

namespace Protoc

/-- The compiler is run for a unit and ends with an output, and leaves a disk. -/
def Runs (launch : Launcher) (program : Path) (unit : CompileRequest) (d : Disk)
    (output : ProcessOutput) (after : Disk) : Prop :=
  ∃ args, arguments d unit = .ok args ∧ launch program args d = (.ok output, after)

/-- The lines of what a process has written to its error stream, without the blank ones. -/
def reportLines (output : ProcessOutput) : List (List Char) :=
  inkedLines (Utf8.lossy output.stderr).toList

/-- What a build of a unit does by the output of the compiler that was run: `out` is where the
descriptor set goes. -/
structure Judged (unit : CompileRequest) (out : Path) (output : ProcessOutput)
    (result : Except BuildError (List Path)) (steps : List BuildStep) : Prop where
  succeeds : (∃ artifacts, result = .ok artifacts) ↔
    output.status = .code 0 ∧ ∀ l ∈ reportLines output, Diagnostic.warningMark <:+: l
  passed : ∀ artifacts, result = .ok artifacts → artifacts = [out] ∧
    steps = .compiled unit :: (reportLines output).map fun l => .warned (String.ofList l)
  /-- All lines are carried and can be told apart in the message. -/
  failed : ∀ e, result = .error e → steps = [.compiled unit] ∧
    ∃ ds, e = .failed ds ∧ ds.map (·.text.toList) = reportLines output ∧
      e.message = "Compilation failed:\n" ++
        "\n".intercalate ((reportLines output).map String.ofList) ∧
      Text.lines e.message.toList = "Compilation failed:".toList :: reportLines output

variable {launch : Launcher} {program : Path} {d after : Disk} {output : ProcessOutput}

/-- A compiler that is run reports whether it succeeded, and a diagnostic for each line. -/
theorem compile_of_runs {unit : CompileRequest} (h : Runs launch program unit d output after) :
    ∃ out, descriptorSet d unit = .ok out ∧ compile launch program unit d =
      (.ok ⟨output.status.isSuccess, if output.status.isSuccess then [out] else [],
        (reportLines output).map Diagnostic.ofLine⟩, after) := by
  obtain ⟨args, hargs, hlaunch⟩ := h
  obtain ⟨out, hout, -⟩ := Except.bind_eq_ok.1 hargs
  refine ⟨out, hout, ?_⟩
  rw [compile, hout, hargs]
  dsimp only
  rw [hlaunch]
  dsimp only
  rw [Diagnostic.ofReport_eq, reportLines]

theorem message_failed (ls : List (List Char)) :
    (BuildError.failed (ls.map Diagnostic.ofLine)).message =
      "Compilation failed:\n" ++ "\n".intercalate (ls.map String.ofList) :=
  congrArg ("Compilation failed:\n" ++ ·) (Diagnostic.render_map_ofLine ls)

theorem lines_message (output : ProcessOutput) :
    Text.lines (BuildError.failed ((reportLines output).map Diagnostic.ofLine)).message.toList =
      "Compilation failed:".toList :: reportLines output := by
  have hheading : "Compilation failed:\n".toList = "Compilation failed:".toList ++ ['\n'] := by decide
  have hchars : (BuildError.failed ((reportLines output).map Diagnostic.ofLine)).message.toList =
      "Compilation failed:".toList ++ '\n' :: ['\n'].intercalate (reportLines output) := by
    have hid : String.toList ∘ String.ofList = id := funext fun l => String.toList_ofList
    have hfeed : "\n".toList = ['\n'] := by decide
    rw [message_failed, String.toList_append,
      String.toList_intercalate, List.map_map, hid, List.map_id, hheading, hfeed, List.append_assoc,
      List.singleton_append]
  rw [hchars]
  exact Text.lines_heading (by decide) (by decide) _

/-- A build whose compiler is run succeeds exactly if the compiler does and has nothing but warnings to
say. It then gives the descriptor set and a warning for each line that is not blank; otherwise it warns of
nothing and fails with all of these lines, each on one line of the message. -/
theorem judged_of_runs {includes sources : List Path} {sourceDir binaryDir : Path}
    (hscan : Build.scan d (toolchain launch program) sourceDir = .ok sources) (hsources : sources ≠ [])
    (hruns : Runs launch program (Build.request sources sourceDir binaryDir includes) d output after) :
    ∃ out result steps, absolute d (Path.join binaryDir "descriptors.bin") = .ok out ∧
      Build.run (toolchain launch program) includes sourceDir binaryDir d = (result, steps, after) ∧
      Judged (Build.request sources sourceDir binaryDir includes) out output result steps := by
  obtain ⟨out, hout, hcompile⟩ := compile_of_runs hruns
  have hsuccess : output.status.isSuccess = true ↔ output.status = .code 0 := decide_eq_true_iff
  have hclean : (∀ x ∈ (reportLines output).map Diagnostic.ofLine, x.severity ≠ .error) ↔
      ∀ l ∈ reportLines output, Diagnostic.warningMark <:+: l := by
    rw [List.forall_mem_map]
    exact forall₂_congr fun l _ => Diagnostic.severity_ofLine
  rcases hrun : Build.run (toolchain launch program) includes sourceDir binaryDir d with
    ⟨result, steps, d'⟩
  cases Build.ends_of_run hrun with
  | unscanned h => cases hscan.symm.trans h
  | sourceless h => exact absurd (Except.ok.inj (hscan.symm.trans h)) hsources
  | unlaunched h _ hcompile' =>
    obtain rfl := Except.ok.inj (hscan.symm.trans h)
    cases hcompile.symm.trans hcompile'
  | refused h _ hcompile' hverdict =>
    obtain rfl := Except.ok.inj (hscan.symm.trans h)
    cases hcompile.symm.trans hcompile'
    refine ⟨out, _, _, hout, rfl, ⟨?_, fun artifacts h => (nomatch h), fun e h => ?_⟩⟩
    · refine iff_of_false (by simp) fun ⟨hstatus, hlines⟩ => ?_
      obtain ⟨x, hx, herror⟩ := hverdict (hsuccess.2 hstatus)
      exact hclean.2 hlines x hx herror
    · obtain rfl := Except.error.inj h
      refine ⟨rfl, _, rfl, ?_, message_failed _, lines_message output⟩
      rw [List.map_map]
      exact (List.map_congr_left fun l _ => Diagnostic.text_ofLine l).trans (List.map_id _)
  | finished h _ hcompile' hstatus hverdict =>
    obtain rfl := Except.ok.inj (hscan.symm.trans h)
    cases hcompile.symm.trans hcompile'
    refine ⟨out, _, _, hout, rfl, ⟨?_, fun artifacts h => ?_, fun e h => nomatch h⟩⟩
    · exact iff_of_true ⟨_, rfl⟩ ⟨hsuccess.1 hstatus, hclean.1 hverdict⟩
    · obtain rfl := Except.ok.inj h
      refine ⟨if_pos hstatus, ?_⟩
      rw [List.map_map, List.map_map]
      rfl

/-- A disk with one source. -/
def oneSource : Disk := ⟨[], [(["src"], .directory), (["src", "a.proto"], .file [] false)]⟩

/-- A compiler that writes a report and exits. -/
def reporting (status : Nat) (report : String) : Launcher := fun _ _ d =>
  (.ok ⟨.code status, [], utf8 report⟩, d)

/-- The compiler is run for the source of the disk. -/
theorem runs_oneSource (status : Nat) (report : String) :
    Build.scan oneSource (toolchain (reporting status report) "protoc") "src" = .ok ["src/a.proto"] ∧
      Runs (reporting status report) "protoc" (Build.request ["src/a.proto"] "src" "bin" []) oneSource
        ⟨.code status, [], utf8 report⟩ oneSource := by
  have hscan : (Build.scan oneSource (toolchain (reporting 0 "") "protoc") "src").toOption =
      some ["src/a.proto"] := by
    decide +kernel
  have hargs : (arguments oneSource (Build.request ["src/a.proto"] "src" "bin" [])).toOption =
      some ["--include_imports", "--descriptor_set_out=/bin/descriptors.bin", "--proto_path=/src",
        "/src/a.proto"] := by
    decide +kernel
  exact ⟨Except.toOption_eq_some.1 hscan, _, Except.toOption_eq_some.1 hargs, rfl⟩

/-- Warnings pass, and an error is reported with the warnings. -/
theorem judged_oneSource :
    (∃ steps, Build.run (toolchain (reporting 0 "a.proto: warning: unused\r\n\n") "protoc") [] "src"
        "bin" oneSource = (.ok ["/bin/descriptors.bin"], steps, oneSource) ∧
      steps.tail = [.warned "a.proto: warning: unused"]) ∧
    ∃ e steps, Build.run (toolchain (reporting 0 "a.proto: warning: unused\n a.proto:1: bad \n")
        "protoc") [] "src" "bin" oneSource = (.error e, steps, oneSource) ∧
      e.message = "Compilation failed:\na.proto: warning: unused\n a.proto:1: bad" := by
  have hpath : (absolute oneSource (Path.join "bin" "descriptors.bin")).toOption =
      some "/bin/descriptors.bin" := by
    decide +kernel
  constructor
  · obtain ⟨hscan, hruns⟩ := runs_oneSource 0 "a.proto: warning: unused\r\n\n"
    obtain ⟨out, result, steps, hout, hrun, hjudged⟩ :=
      judged_of_runs hscan (by decide) hruns
    have hlines : reportLines ⟨.code 0, [], utf8 "a.proto: warning: unused\r\n\n"⟩ =
        ["a.proto: warning: unused".toList] := by
      decide +kernel
    obtain ⟨artifacts, rfl⟩ := hjudged.succeeds.2 ⟨rfl, by rw [hlines]; decide⟩
    obtain ⟨rfl, hsteps⟩ := hjudged.passed artifacts rfl
    obtain rfl := Option.some.inj ((Except.toOption_eq_some.2 hout).symm.trans hpath)
    refine ⟨steps, hrun, ?_⟩
    rw [hsteps, hlines]
    rfl
  · obtain ⟨hscan, hruns⟩ := runs_oneSource 0 "a.proto: warning: unused\n a.proto:1: bad \n"
    obtain ⟨out, result, steps, hout, hrun, hjudged⟩ :=
      judged_of_runs hscan (by decide) hruns
    have hlines : reportLines
        ⟨.code 0, [], utf8 "a.proto: warning: unused\n a.proto:1: bad \n"⟩ =
          ["a.proto: warning: unused".toList, " a.proto:1: bad".toList] := by
      decide +kernel
    cases result with
    | ok artifacts =>
      have hclean := (hjudged.succeeds.1 ⟨artifacts, rfl⟩).2
      rw [hlines] at hclean
      exact absurd (hclean _ (by simp)) (by decide : ¬ Diagnostic.warningMark <:+: " a.proto:1: bad".toList)
    | error e =>
      obtain ⟨-, ds, rfl, -, hmessage, -⟩ := hjudged.failed e rfl
      refine ⟨_, steps, hrun, hmessage.trans ?_⟩
      rw [hlines]
      decide

end Protoc

end ServiceCall
