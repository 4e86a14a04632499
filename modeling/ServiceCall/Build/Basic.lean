import ServiceCall.Disk.Basic
import ServiceCall.Text.Blank
/-!
# Building the generated sources

A build scans a directory for sources and hands them to a toolchain as one unit. Without
sources there is nothing to do and nothing is run. Every error the toolchain reports, and
a toolchain that does not succeed, fails the build with all diagnostics; otherwise each of
them becomes a warning.
-/

namespace ServiceCall

/-! ## Diagnostics

What a compiler says about the sources, one diagnostic for every line of its report that
is not blank. `render` writes diagnostics back as lines.
-/

inductive Severity where
  | error
  | warning
  deriving DecidableEq, Repr

/-- One message of a compiler. -/
structure Diagnostic where
  severity : Severity
  /-- The source the message is about, as it is named there, if it names one. -/
  file : Option String
  /-- The message as it was printed. -/
  text : String
  deriving DecidableEq, Repr

namespace Text

/-- The lines of a text. A line ends at a line feed, or at its end if something is left; a
carriage return before the line feed belongs to the line's end. -/
def lines : List Char → List (List Char)
  | [] => []
  | c :: rest =>
    if c = '\n' then [] :: lines rest
    else if c = '\r' ∧ rest.head? = some '\n' then
      match rest with
      | _ :: rest => [] :: lines rest
      | [] => [[c]]
    else match rest, lines rest with
      | [], _ => [[c]]
      | _, [] => [[c]]
      | _, line :: more => (c :: line) :: more

/-- The text before the first place where `word` stands. -/
def before? (word : List Char) : List Char → Option (List Char)
  | [] => if word.isEmpty then some [] else none
  | c :: rest =>
    if word.isPrefixOf (c :: rest) then some [] else (before? word rest).map (c :: ·)

/-- The text holds the word. -/
def holds (word s : List Char) : Bool := (before? word s).isSome

end Text

namespace Diagnostic

/-- The word that makes a line a warning. -/
def warningMark : List Char := "warning:".toList

/-- What ends the name of a source. -/
def sourceEnd : List Char := ".proto".toList

/-- The diagnostic of a line. -/
def ofLine (line : List Char) : Diagnostic where
  severity := if Text.holds warningMark line then .warning else .error
  file := (Text.before? (sourceEnd ++ [':']) line).map fun s => String.ofList (s ++ sourceEnd)
  text := String.ofList line

/-- The diagnostics of a report. -/
def ofReport (report : String) : List Diagnostic :=
  (((Text.lines report.toList).map Text.trimRight).filter (!·.isEmpty)).map ofLine

/-- Diagnostics as lines. -/
def render (ds : List Diagnostic) : String := "\n".intercalate (ds.map (·.text))

end Diagnostic

/-! ## Builds -/

/-- One unit of compilation. -/
structure CompileRequest where
  sources : List Path
  /-- The directory the sources were found in. -/
  sourceRoot : Path
  outputDir : Path
  includePaths : List Path
  encoding : String
  deriving DecidableEq, Repr

/-- What a toolchain reports. -/
structure CompileOutcome where
  success : Bool
  /-- The files this run has written. -/
  artifacts : List Path
  diagnostics : List Diagnostic
  deriving DecidableEq, Repr

/-- A compiler. -/
structure Toolchain where
  /-- The extension of the files it compiles. -/
  sourceExtension : String
  /-- Names of files that stand beside sources and are none. -/
  isMarker : String → Bool
  compile : CompileRequest → Disk → Except IoError CompileOutcome × Disk

/-- Why a build fails. -/
inductive BuildError where
  | failed (diagnostics : List Diagnostic)
  | toolchain (cause : IoError)
  /-- The directory cannot be scanned because of something at a path. -/
  | scan (dir path : Path) (cause : IoError)
  deriving DecidableEq, Repr

def BuildError.message : BuildError → String
  | failed ds => "Compilation failed:\n" ++ Diagnostic.render ds
  | toolchain cause => "Failed to run the toolchain: '" ++ cause.message ++ "'"
  | scan dir path cause =>
    "Failed to scan sources in '" ++ dir.shown ++ "': 'IO error for operation on " ++ path.shown ++
      ": " ++ cause.message ++ "'"

/-- What a build does with a toolchain. -/
inductive BuildStep where
  | compiled (request : CompileRequest)
  | warned (text : String)
  deriving DecidableEq, Repr

namespace Build

/-- The files in a listing of what is below a directory. -/
def filesOf (dir : Path) (below : List (Location × Entry)) : List Path :=
  below.filterMap fun (names, e) => if e.isFile then some (names.foldl Path.join dir) else none

/-- What is listed below a directory is a directory with too long a path to be opened by it, unlike the
one around it. -/
def isOutOfReach (dir : Path) (x : Location × Entry) : Bool :=
  x.2.isDirectory && Disk.maxPathLength < (x.1.foldl Path.join dir).length &&
    (x.1.dropLast.foldl Path.join dir).length ≤ Disk.maxPathLength

/-- A directory in a listing that cannot be opened. It is not said in which order directories are
opened; of several it is the first one in the order of paths. -/
def outOfReach? (dir : Path) (below : List (Location × Entry)) : Option Path :=
  (((below.filter (isOutOfReach dir)).map fun x => x.1.foldl Path.join dir).mergeSort Path.le).head?

/-- The files below the directory at a location. -/
def filesBelow (d : Disk) (dir : Path) (at' : Location) : Except (Path × IoError) (List Path) :=
  match outOfReach? dir (d.below at') with
  | some p => .error (p, .nameTooLong)
  | none => .ok (filesOf dir (d.below at'))

/-- The files below a directory, links not followed. A link at the directory itself is
followed, and a file there stands for itself. An error comes with the path that it is about. -/
def regularFiles (d : Disk) (dir : Path) : Except (Path × IoError) (List Path) := do
  let (_, here) ← (d.linkEntry dir).mapError (dir, ·)
  match here with
  | .file _ _ => return [dir]
  | .directory | .link _ =>
    let place ← (d.follow true dir).mapError (dir, ·)
    match place.entry with
    | none => .error (dir, .notFound)
    | some .directory => filesBelow d dir place.location
    | some _ => return []
  | .special => return []

/-- A file the toolchain takes for a source. A name that is no text is never that of a marker. -/
def isSource (t : Toolchain) (p : Path) : Bool :=
  p.extension? = some (Path.ofText t.sourceExtension) &&
    match p.fileName?.bind Path.text? with
    | some name => !t.isMarker name
    | none => true

/-- The sources in a directory, in the order of paths. -/
def scan (d : Disk) (t : Toolchain) (dir : Path) : Except BuildError (List Path) :=
  match regularFiles d dir with
  | .error (path, e) => .error (.scan dir path e)
  | .ok files => .ok ((files.filter (isSource t)).mergeSort Path.le)

/-- The unit of the sources found in a directory. -/
def request (sources : List Path) (sourceDir binaryDir : Path) (includes : List Path) :
    CompileRequest :=
  ⟨sources, sourceDir, binaryDir, includes, "UTF-8"⟩

/-- What becomes of a toolchain's report. -/
def verdict (outcome : CompileOutcome) : Except BuildError (List Path) :=
  if outcome.success && outcome.diagnostics.all (·.severity = .warning) then .ok outcome.artifacts
  else .error (.failed outcome.diagnostics)

/-- Compiles the sources of a directory: the artifacts or an error, the steps on the way, and
the disk after them. -/
def run (t : Toolchain) (includes : List Path) (sourceDir binaryDir : Path) (d : Disk) :
    Except BuildError (List Path) × List BuildStep × Disk :=
  match scan d t sourceDir with
  | .error e => (.error e, [], d)
  | .ok [] => (.ok [], [], d)
  | .ok sources =>
    let unit := request sources sourceDir binaryDir includes
    match t.compile unit d with
    | (.error e, d) => (.error (.toolchain e), [.compiled unit], d)
    | (.ok outcome, d) =>
      match verdict outcome with
      | .error e => (.error e, [.compiled unit], d)
      | .ok artifacts =>
        (.ok artifacts, .compiled unit :: outcome.diagnostics.map fun x => .warned x.text, d)

end Build

end ServiceCall
