import ServiceCall.Configuration
import ServiceCall.Description.Declarations
import ServiceCall.Process
import ServiceCall.Text.Blank
import ServiceCall.Workspace
/-!
# Descriptions of services

The description of a service is retrieved and stored, and a generator turns it into sources.
-/

namespace ServiceCall

/-! ## Generators

A generator turns the stored description into sources and reports what it declares. A
command generator is a program: it is run with its own arguments, the mode, the output
directory and the document, and reports on its output stream.
-/

/-- The input of a generator. -/
structure GenerateRequest where
  /-- Where the description came from. -/
  address : String
  /-- The stored description. -/
  document : Path
  /-- Where the sources go. -/
  outputDir : Path
  deriving DecidableEq, Repr

/-- Why a generator gives no report. -/
inductive GenerateError where
  | launch (program : String) (cause : IoError)
  | rejected (status : ExitStatus) (stderr : String)
  /-- The report is not understood, which the reader of JSON puts in its own words. -/
  | invalidModel (category : Json.Category) (cause : String)
  | other (message : String)
  deriving DecidableEq, Repr

/-- The text of an error. -/
def GenerateError.message : GenerateError → String
  | launch program cause =>
    "Failed to launch generator '" ++ program ++ "': '" ++ cause.message ++ "'"
  | rejected status stderr => "Generator exited with " ++ status.text ++ ": " ++ stderr
  | invalidModel _ cause => "Generator reported an unreadable model: '" ++ cause ++ "'"
  | other message => message

/-- A generator. -/
abbrev Generator := GenerateRequest → Disk → Except GenerateError Declarations × Disk

namespace GeneratorCommand

/-- The arguments of a run, texts of bytes. -/
def fullArguments (g : GeneratorCommand) (r : GenerateRequest) : List String :=
  g.arguments.map Octets.ofText ++ ["-client", "-d", r.outputDir, r.document]

/-- What a finished run says. -/
def report (wording : Json.Wording) (output : ProcessOutput) : Except GenerateError Declarations :=
  if output.status.isSuccess then
    (Declarations.read output.stdout).mapError fun c => .invalidModel c (wording output.stdout)
  else .error (.rejected output.status (trim (Utf8.lossy output.stderr)))

/-- The generator of a command. -/
def generator (launch : Launcher) (wording : Json.Wording) (g : GeneratorCommand) : Generator :=
  fun r d =>
    match launch g.program (g.fullArguments r) d with
    | (.error e, d) => (.error (.launch g.program.shown e), d)
    | (.ok output, d) => (report wording output, d)

end GeneratorCommand

/-! ## Retrieving a description

The document at an address is copied into the workspace and handed to the generator. An
address is a web address, which is fetched, or names a file, with or without `file://` in
front. The generator only runs once the document is stored.
-/

/-- Why a description yields no sources. -/
inductive DescriptionError where
  | unreachable (address : String) (cause : IoError)
  | store (address : String) (cause : IoError)
  | malformed (address : String) (cause : GenerateError)
  | generator (address : String) (cause : GenerateError)
  deriving DecidableEq, Repr

namespace DescriptionError

def message : DescriptionError → String
  | unreachable a cause => "Descriptor '" ++ a ++ "' is unreachable: '" ++ cause.message ++ "'"
  | store a cause =>
    "Failed to store descriptor '" ++ a ++ "' in the workspace: '" ++ cause.message ++ "'"
  | malformed a cause =>
    "Descriptor '" ++ a ++ "' was rejected by the generator: '" ++ cause.message ++ "'"
  | generator a cause => "Generator failed on descriptor '" ++ a ++ "': '" ++ cause.message ++ "'"

/-- The document was never there, as opposed to there and then refused. -/
def isUnreachable : DescriptionError → Bool
  | unreachable _ _ => true
  | _ => false

/-- The error a generator's failure becomes. A description it refuses is malformed; a
generator that does not work is told apart. -/
def ofGenerate (address : String) (e : GenerateError) : DescriptionError :=
  match e with
  | .rejected _ _ | .other _ => .malformed address e
  | .launch _ _ | .invalidModel _ _ => .generator address e

end DescriptionError

namespace Description

/-- An address on the web. -/
def isWebAddress (address : String) : Bool :=
  "http://".toList.isPrefixOf address.toList || "https://".toList.isPrefixOf address.toList

/-- What an address without its scheme is. One scheme in front is left out. -/
def withoutScheme (address : String) : String :=
  let scheme := "file://".toList
  if scheme.isPrefixOf address.toList then String.ofList (address.toList.drop scheme.length)
  else address

/-- The file an address names. -/
def filePath (address : String) : Path := Path.ofText (withoutScheme address)

/-- The way documents are fetched from the web. -/
abbrev Fetcher := String → Except IoError Bytes

/-- No address can be reached, which the client for the web puts in its own words. -/
def offline (wording : String → String) : Fetcher := fun address => .error (.other (wording address))

/-- The document at an address. -/
def fetch (web : Fetcher) (address : String) (d : Disk) : Except IoError Bytes :=
  if isWebAddress address then web address else d.read (filePath address)

/-- Copies the document at an address to its place in the workspace. -/
def retrieve (web : Fetcher) (address : String) (w : Workspace) (d : Disk) :
    Except DescriptionError Disk :=
  match fetch web address d with
  | .error e => .error (.unreachable address e)
  | .ok bytes =>
    match d.write w.document bytes with
    | .error e => .error (.store address e)
    | .ok d => .ok d

/-- The request for a workspace. -/
def request (address : String) (w : Workspace) : GenerateRequest :=
  ⟨address, w.document, w.sourceDir⟩

/-- A run of a generator: the request and the disk it was made on. -/
structure Generated where
  request : GenerateRequest
  disk : Disk

/-- Retrieves the document and generates its sources: the report or an error, the run of the
generator if there was one, and the disk afterwards. -/
def generate (web : Fetcher) (g : Generator) (address : String) (w : Workspace) (d : Disk) :
    Except DescriptionError Declarations × Option Generated × Disk :=
  match retrieve web address w d with
  | .error e => (.error e, none, d)
  | .ok stored =>
    let r := request address w
    let (result, after) := g r stored
    (result.mapError (DescriptionError.ofGenerate address), some ⟨r, stored⟩, after)

end Description

end ServiceCall
