import ServiceCall.Build.Basic
import ServiceCall.Process
/-!
# The protoc toolchain

One run of the compiler writes one descriptor set. All paths on its command line are
absolute, so no file name can be taken for an option, and the diagnostics are read off
its error stream. The sources are named as they are; the other paths are shown inside an argument, so
what is no text in them is lost.
-/

namespace ServiceCall.Protoc

/-- The file the descriptor set is written to. -/
def descriptorSetName : String := "descriptors.bin"

/-- The working directory as a path. -/
def workingPath (d : Disk) : Path := "/" ++ "/".intercalate d.workingDirectory

/-- A path from the root, as the command line needs it. -/
def absolute (d : Disk) (p : Path) : Except IoError Path :=
  match Path.absolute? (workingPath d) p with
  | some p => .ok p
  | none => .error .emptyPath

/-- The path of the descriptor set of a request. -/
def descriptorSet (d : Disk) (r : CompileRequest) : Except IoError Path :=
  absolute d (Path.join r.outputDir descriptorSetName)

/-- An option with a path that is shown. -/
def shownOption (option : String) (p : Path) : String := option ++ Path.ofText p.shown

/-- The arguments of a run, texts of bytes. -/
def arguments (d : Disk) (r : CompileRequest) : Except IoError (List String) := do
  let out ← descriptorSet d r
  let root ← absolute d r.sourceRoot
  let includes ← r.includePaths.mapM (absolute d)
  let sources ← r.sources.mapM (absolute d)
  return "--include_imports" :: shownOption "--descriptor_set_out=" out ::
    shownOption "--proto_path=" root :: (includes.map (shownOption "--proto_path=") ++ sources)

/-- Runs the compiler on a request. -/
def compile (launch : Launcher) (program : Path) (r : CompileRequest) (d : Disk) :
    Except IoError CompileOutcome × Disk :=
  match descriptorSet d r, arguments d r with
  | .ok out, .ok args =>
    match launch program args d with
    | (.error e, d) => (.error e, d)
    | (.ok output, d) =>
      let success := output.status.isSuccess
      (.ok ⟨success, if success then [out] else [],
        Diagnostic.ofReport (Utf8.lossy output.stderr)⟩, d)
  | .error e, _ | _, .error e => (.error e, d)

/-- The toolchain of a compiler program. -/
def toolchain (launch : Launcher) (program : Path) : Toolchain where
  sourceExtension := "proto"
  isMarker _ := false
  compile := compile launch program

/-- The compiler can be run. -/
def isAvailable (launch : Launcher) (program : Path) (d : Disk) : Bool :=
  match launch program ["--version"] d with
  | (.ok output, _) => output.status.isSuccess
  | (.error _, _) => false

end ServiceCall.Protoc
