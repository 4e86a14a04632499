import ServiceCall.CommandLine.Run
import ServiceCall.Grpc.Proxy
import ServiceCall.Schema.Standard
import ServiceCall.Shell.Launch
/-!
# The program

Puts the files that a command line can reach on a disk, carries the command line out there,
writes back what has changed, and prints what comes of it. Scripts are run by the library's
own shell, and no peer is ever reached.
-/

namespace ServiceCall

/-- The variables of the environment that are asked for. -/
def variableNames : List String :=
  ["HOME", "XDG_CONFIG_HOME", "TMPDIR", "PROTOC", "NO_COLOR", "CLICOLOR", "CLICOLOR_FORCE"]

/-- The number of the user that runs the program, if the system tells it. -/
def userNumber? : IO (Option String) := do
  try
    let status ← IO.FS.readFile "/proc/self/status"
    let line? := (status.splitOn "\n").find? (·.startsWith "Uid:")
    return line?.bind fun line => (line.splitOn "\t")[1]?
  catch _ => return none

/-- The home directory that is on record for the user. -/
def recordedHome? : IO (Option Path) := do
  try
    let accounts := ((← IO.FS.readFile "/etc/passwd").splitOn "\n").map (·.splitOn ":")
    let number? ← userNumber?
    let account? := accounts.find? fun fields => fields[2]?.isSome && fields[2]? == number?
    return (account?.bind (·[5]?)).map Path.ofText
  catch _ => return none

/-- The environment. -/
def readEnvironment : IO Environment := do
  let mut vars : List (String × String) := []
  for name in variableNames do
    if let some value ← IO.getEnv name then
      vars := Json.insertMember name (Octets.ofText value) vars
  return ⟨vars, ← recordedHome?⟩

/-- How deep below the working directory files are looked for. -/
def searchDepth : Nat := 32

/-- Puts what stands below a directory on a disk, down to a depth. -/
def gather (base : String) (d : Disk) : Nat → IO Disk
  | 0 => return d
  | depth + 1 => do
    let mut d := d
    for name in ← names (if base.isEmpty then "." else base) do
      let place := if base.isEmpty then name else base ++ "/" ++ name
      let path := Path.ofText place
      match ← kind place with
      | some .dir => d ← gather place (d.createDirectories path).2 depth
      | some .file =>
        let content ← IO.FS.readBinFile place
        d := (d.write path content.toList).toOption.getD d
      | _ => pure ()
    return d
where
  /-- The names in a directory. -/
  names (place : String) : IO (List String) := do
    let here ← IO.FS.realPath place
    return (← here.readDir).toList.map (·.fileName)
  /-- What a path leads to. -/
  kind (place : String) : IO (Option IO.FS.FileType) := do
    try
      let found ← IO.FS.realPath place
      return some (← found.metadata).type
    catch _ => return none

/-- Puts one file on a disk, if it is there. -/
def gatherFile (path : Path) (d : Disk) : IO Disk := do
  try
    let content ← IO.FS.readBinFile path.shown
    let parent := "/".intercalate ((path.splitOn "/").dropLast)
    return ((d.createDirectories parent).2.write path content.toList).toOption.getD d
  catch _ => return d

/-- Writes what one disk has and another one lacks. -/
def writeBack (before after : Disk) : IO Unit := do
  for (location, entry) in after.entries do
    unless before.lookup location = some entry do
      let place := Path.shown ("/" ++ "/".intercalate location)
      match entry with
      | .directory => IO.FS.createDirAll place
      | .file content _ => IO.FS.writeBinFile place (ByteArray.mk content.toArray)
      | .link _ | .special => pure ()

/-- The disk that a command line is carried out on. -/
def readDisk (env : Environment) (l : CommandLine) : IO Disk := do
  let here ← IO.currentDir
  let location := ((Path.ofText (toString here)).splitOn "/").filter (!·.isEmpty)
  let empty : Disk := ⟨location, []⟩
  let d := (empty.createDirectories ("/" ++ "/".intercalate location)).2
  let d ← gather "" d searchDepth
  let settings := (Configuration.settingsFile env l).toOption.toList
  (settings ++ [Description.filePath l.address]).foldlM (fun d path => gatherFile path d) d

/-! ## Words

What is said where a text is refused by a part that this library does not have: readers of JSON and of
addresses, and connections. The words are its own.
-/

/-- What is said of a text that is not understood. -/
def notUnderstood : Json.Wording := fun _ => "the text is not what is asked for"

/-- The peer that is never reached. -/
def farPeer : Grpc.Peer Unit := .unreachable "no connection" fun _ => "this is no path"

/-- What a command line is carried out with. -/
def surroundings (env : Environment) : CommandLine.Surroundings Unit where
  environment := env
  settingsWording := notUnderstood
  web := Description.offline fun _ => "no connection"
  launch := Shell.launch env.vars
  reportWording := notUnderstood
  host := Pool.standard
  factory := .ok (Grpc.connecting (fun _ => "this is no address") fun _ => farPeer)

/-- Carries out a command line. -/
def carryOut (l : CommandLine) : IO CommandLine.Outcome := do
  let env ← readEnvironment
  let before ← readDisk env l
  let (result, after, _) := CommandLine.run (surroundings env) l before ()
  writeBack before after
  let coloured := Display.isColoured env (← (← IO.getStdout).isTty)
  return .ofResult coloured result

/-- Prints an outcome. -/
def report (o : CommandLine.Outcome) : IO UInt32 := do
  IO.print o.output
  IO.eprint o.errors
  return UInt32.ofNat o.exitCode

end ServiceCall

def main (args : List String) : IO UInt32 := do
  match ServiceCall.CommandLine.parse args with
  | .error e => ServiceCall.report (.ofUsage e)
  | .ok l => ServiceCall.report (← ServiceCall.carryOut l)
