import ServiceCall.Shell.Expansion
/-!
# Redirections

A redirection opens a file, a document or another descriptor's stream under a descriptor.
All names of files are expanded before the first one is opened, and the text of a document
when its turn comes; the first that cannot be opened ends it.
-/

namespace ServiceCall.Shell.Redirection

/-- A redirection whose target is known. -/
inductive Target where
  | file (descriptor : Nat) (opening : Opening) (path : String)
  | duplicate (descriptor : Nat) (source : Option Nat)
  | document (descriptor : Nat) (text : Word)

/-- The text that ought to name a descriptor does not, which ends the shell. -/
def noDescriptor : Act α := do
  modify fun s => { s with line := s.readLine }
  Act.fail "Syntax error: Bad fd number"

/-- Expands the target of a redirection. -/
def target (i : Interpreter) : Redirect → Act Target
  | .file descriptor opening w => do
    return .file descriptor opening (← Expansion.text i .value w)
  | .duplicate descriptor source => return .duplicate descriptor source
  | .duplicateWord descriptor w => do
    match (← Expansion.text i .value w).toList with
    | ['-'] => return .duplicate descriptor none
    | [c] => if isDigit c then return .duplicate descriptor (digit? c) else noDescriptor
    | _ => noDescriptor
  | .document descriptor index => do
    return .document descriptor (((← get).documents.lookup index).getD [])

/-- Why a file cannot be opened for reading. -/
def readReason : IoError → String
  | .notFound | .notDirectory => "No such file"
  | e => e.reason

/-- Why a file cannot be opened for writing. -/
def writeReason : IoError → String
  | .notFound | .notDirectory => "Directory nonexistent"
  | e => e.reason

/-- The descriptor that a path of the system stands for. -/
def descriptorOf? (path : String) : Option Nat :=
  match path with
  | "/dev/stdin" => some 0
  | "/dev/stdout" => some 1
  | "/dev/stderr" => some 2
  | _ =>
    match ["/dev/fd/", "/proc/self/fd/"].find? fun dir => dir.toList.isPrefixOf path.toList with
    | some dir =>
      match path.toList.drop dir.length with
      | [c] => digit? c
      | _ => none
    | none => none

/-- What a file opens as, and the disk after that. -/
def opened (s : State) (opening : Opening) (path : String) : Except IoError (Stream × Disk) := do
  if path = "/dev/null" then return (.null, s.disk)
  match descriptorOf? path with
  | some n =>
    match s.stream? n with
    | some (_, t) => return (t, s.disk)
    | none => throw .notFound
  | none =>
    let place ← s.disk.follow true path
    match opening, place.entry with
    | .read, none => throw .notFound
    | .read, some .directory => return (.directory, s.disk)
    | _, some .special => throw .noDevice
    | .read, some _ => return (.file place.location 0 false true false, s.disk)
    | _, some .directory => throw .isDirectory
    | .write, entry | .replace, entry =>
      if opening = .write ∧ s.hasOption 'C' ∧ entry.isSome then throw .alreadyExists
      let disk ← s.disk.write path []
      return (.file place.location 0 false false true, disk)
    | opening, entry =>
      let disk ← if entry.isSome then pure s.disk else s.disk.write path []
      return (.file place.location 0 (opening = .append) (opening = .readWrite) true, disk)

/-- Leads a descriptor to where another one leads, or closes it. -/
def duplicated (s : State) (descriptor : Nat) (source : Option Nat) : Option State :=
  let others := s.descriptors.filter (·.1 ≠ descriptor)
  match source with
  | none => some { s with descriptors := others }
  | some n =>
    (s.descriptors.lookup n).map fun t => { s with descriptors := (descriptor, t) :: others }

/-- A file opened under a descriptor; what went wrong otherwise. -/
def openFile (s : State) (descriptor : Nat) (opening : Opening) (path : String) :
    Except String State :=
  match descriptorOf? path with
  | some n =>
    match duplicated s descriptor (some n) with
    | some s => .ok s
    | none => .error ("cannot open " ++ path ++ ": No such file")
  | none =>
    match opened s opening path with
    | .ok (t, disk) => .ok ({ s with disk }.opening descriptor t)
    | .error e =>
      match opening with
      | .read => .error ("cannot open " ++ path ++ ": " ++ readReason e)
      | _ => .error ("cannot create " ++ path ++ ": " ++ writeReason e)

/-- Opens a target. Tells whether that worked; if not, it has been complained of. -/
def openTarget (i : Interpreter) : Target → Act Bool
  | .document descriptor w => do
    try
      let text ← Expansion.text i .document w
      modify fun s => s.opening descriptor (.source text.toList)
      return true
    catch stop => if stop = .failed then return false else throw stop
  | .duplicate descriptor source => do
    match duplicated (← get) descriptor source with
    | some s =>
      set s
      return true
    | none =>
      Act.complain (toString (source.getD 0) ++ ": Bad file descriptor")
      return false
  | .file descriptor opening path => do
    match openFile (← get) descriptor opening path with
    | .ok s =>
      set s
      return true
    | .error message =>
      Act.complain message
      return false

/-- Opens all redirections. Tells whether that worked; if not, it has been complained of. -/
def openAll (i : Interpreter) (rs : List Redirect) : Act Bool := do
  let targets ← rs.mapM (target i)
  targets.foldlM (fun isGood t => if isGood then openTarget i t else return false) true

/-- Carries out a step with redirections, which end with it. -/
def within (i : Interpreter) (rs : List Redirect) (body : Act Unit) (otherwise : Act Unit) :
    Act Unit := do
  if rs.isEmpty then body
  else Act.restoring (fun old s => { s with descriptors := old.descriptors }) do
    if ← openAll i rs then body else otherwise

end ServiceCall.Shell.Redirection
