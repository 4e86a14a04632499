import ServiceCall.Disk.Path
/-!
# The disk

A disk is a finite table from locations to directories, files, symbolic links and special
files, and a working directory for relative paths. A location is the list of names from the
root, which is itself always a directory. Every operation is a function of the disk: it
either fails with an error and leaves no trace, or gives the disk after it. What an
operation does is said through `lookup`, the view of a disk.
-/

namespace ServiceCall

/-- The names on the way from the root. -/
abbrev Location := List String

/-- Why the system refuses an operation. -/
inductive IoError where
  | notFound
  | badExecutable
  | badDescriptor
  | permissionDenied
  | alreadyExists
  | notDirectory
  | isDirectory
  | invalidArgument
  | nameTooLong
  | notEmpty
  | tooManyLinks
  | noDevice
  | nulInPath
  | nulInArgument
  | emptyPath
  | notUtf8
  | other (message : String)
  deriving DecidableEq, Repr

namespace IoError

/-- The text of an error without its number. -/
def reason : IoError → String
  | notFound => "No such file or directory"
  | badExecutable => "Exec format error"
  | badDescriptor => "Bad file descriptor"
  | permissionDenied => "Permission denied"
  | alreadyExists => "File exists"
  | notDirectory => "Not a directory"
  | isDirectory => "Is a directory"
  | invalidArgument => "Invalid argument"
  | nameTooLong => "File name too long"
  | notEmpty => "Directory not empty"
  | tooManyLinks => "Too many levels of symbolic links"
  | noDevice => "No such device or address"
  | nulInPath => "file name contained an unexpected NUL byte"
  | nulInArgument => "nul byte found in provided data"
  | emptyPath => "cannot make an empty path absolute"
  | notUtf8 => "stream did not contain valid UTF-8"
  | other message => message

/-- The number the system gives an error; what it is not asked about has none. -/
def number? : IoError → Option Nat
  | notFound => some 2
  | noDevice => some 6
  | badExecutable => some 8
  | badDescriptor => some 9
  | permissionDenied => some 13
  | alreadyExists => some 17
  | notDirectory => some 20
  | isDirectory => some 21
  | invalidArgument => some 22
  | nameTooLong => some 36
  | notEmpty => some 39
  | tooManyLinks => some 40
  | nulInPath | nulInArgument | emptyPath | notUtf8 | other _ => none

/-- The text of an error. -/
def message (e : IoError) : String :=
  match e.number? with
  | some n => e.reason ++ " (os error " ++ toString n ++ ")"
  | none => e.reason

end IoError

/-- What a location holds. -/
inductive Entry where
  | directory
  | file (content : Bytes) (executable : Bool)
  | link (target : Path)
  /-- A special file, such as a socket: it is there, but cannot be opened. Pipes and devices, which wait
  for a writer or have no content of their own, are not told apart from it. -/
  | special
  deriving DecidableEq, Repr, Inhabited

namespace Entry

def isDirectory : Entry → Bool
  | .directory => true
  | _ => false

def isFile : Entry → Bool
  | .file _ _ => true
  | _ => false

end Entry

/-- A disk. -/
structure Disk where
  workingDirectory : Location
  entries : List (Location × Entry)
  deriving Repr, Inhabited

namespace Disk

/-! ## The table -/

/-- What a table holds at a location. -/
def find? (at' : Location) : List (Location × Entry) → Option Entry
  | [] => none
  | (l, e) :: rest => if l = at' then some e else find? at' rest

/-- What the disk holds at a location. -/
def lookup (d : Disk) (at' : Location) : Option Entry :=
  if at' = [] then some .directory else find? at' d.entries

/-- The table with an entry at a location. -/
def put (at' : Location) (e : Entry) : List (Location × Entry) → List (Location × Entry)
  | [] => [(at', e)]
  | (l, f) :: rest => if l = at' then (at', e) :: rest else (l, f) :: put at' e rest

/-- The disk with an entry at a location. -/
def set (d : Disk) (at' : Location) (e : Entry) : Disk := { d with entries := put at' e d.entries }

/-- The disk without the entry of a location. -/
def erase (d : Disk) (at' : Location) : Disk :=
  { d with entries := d.entries.filter (·.1 ≠ at') }

theorem find?_put_self (at' : Location) (e : Entry) (t : List (Location × Entry)) :
    find? at' (put at' e t) = some e := by
  induction t with
  | nil => simp [put, find?]
  | cons x rest ih =>
    simp only [put]
    split
    · simp [find?]
    · rename_i h
      simp [find?, h, ih]

theorem find?_put_of_ne {at' l : Location} (h : l ≠ at') (e : Entry)
    (t : List (Location × Entry)) : find? l (put at' e t) = find? l t := by
  induction t with
  | nil => simp [put, find?, Ne.symm h]
  | cons x rest ih =>
    simp only [put]
    split
    · rename_i hx
      subst hx
      simp [find?, Ne.symm h]
    · simp [find?, ih]

theorem lookup_set_self (d : Disk) {at' : Location} (h : at' ≠ []) (e : Entry) :
    (d.set at' e).lookup at' = some e := by
  simp [lookup, set, h, find?_put_self]

theorem lookup_set_of_ne (d : Disk) {at' l : Location} (h : l ≠ at') (e : Entry) :
    (d.set at' e).lookup l = d.lookup l := by
  simp [lookup, set, find?_put_of_ne h]

/-! ## Following a path -/

/-- The parts of a path, a slash or dot at its end standing as a dot. -/
def parts (p : Path) : List String :=
  let all := Path.split p.toList
  let kept := all.filter fun part => part ≠ [] ∧ part ≠ ['.']
  let trailing := match all.getLast? with
    | some last => !kept.isEmpty && (last = [] || last = ['.'])
    | none => false
  (kept.map String.ofList) ++ (if trailing then ["."] else [])

/-- Where following a path ends: a location and what is there. -/
structure Place where
  location : Location
  entry : Option Entry
  deriving DecidableEq, Repr

/-- Walks down from a directory to the end of the parts or to a link that is followed, which is
every link on the way and one at the end if it is asked for. A missing last part is a place without
entry. -/
def walkTo (d : Disk) (follow : Bool)
    (onLink : Location → Path → List String → Except IoError Place) (at' : Location) :
    List String → Except IoError Place
  | [] => .ok ⟨at', some .directory⟩
  | part :: rest =>
    if part = "." then walkTo d follow onLink at' rest
    else if part = ".." then walkTo d follow onLink at'.dropLast rest
    else if 255 < part.length then .error .nameTooLong
    else
      let next := at' ++ [part]
      match d.lookup next with
      | none => if rest = [] then .ok ⟨next, none⟩ else .error .notFound
      | some .directory => walkTo d follow onLink next rest
      | some (.file content executable) =>
        if rest = [] then .ok ⟨next, some (.file content executable)⟩ else .error .notDirectory
      | some (.link target) =>
        if rest = [] ∧ !follow then .ok ⟨next, some (.link target)⟩ else onLink at' target rest
      | some .special => if rest = [] then .ok ⟨next, some .special⟩ else .error .notDirectory

/-- Walks down from a directory. A link that is followed is replaced by its target, as long as it is
not one too many. -/
def walk (d : Disk) (follow : Bool) : Nat → Location → List String → Except IoError Place
  | 0 => walkTo d follow fun _ _ _ => .error .tooManyLinks
  | links + 1 => walkTo d follow fun at' target rest =>
    if target.isEmpty then .error .notFound
    else walk d follow links (if Path.isAbsolute target then [] else at') (parts target ++ rest)

/-- The longest path the system takes, in bytes. -/
def maxPathLength : Nat := 4095

/-- Follows a path from the working directory or the root. -/
def follow (d : Disk) (links : Bool) (p : Path) : Except IoError Place :=
  if p.toList.contains '\x00' then .error .nulInPath
  else if p.isEmpty then .error .notFound
  else if maxPathLength < p.length then .error .nameTooLong
  else d.walk links 40 (if Path.isAbsolute p then [] else d.workingDirectory) (parts p)

/-- What a path leads to. -/
def entry (d : Disk) (p : Path) : Except IoError Entry := do
  match (← d.follow true p).entry with
  | some e => .ok e
  | none => .error .notFound

/-- What a path leads to, a link at its end standing for itself. -/
def linkEntry (d : Disk) (p : Path) : Except IoError (Location × Entry) := do
  let place ← d.follow false p
  match place.entry with
  | some e => .ok (place.location, e)
  | none => .error .notFound

/-- The path leads to a directory. -/
def isDirectory (d : Disk) (p : Path) : Bool :=
  match d.entry p with
  | .ok .directory => true
  | _ => false

/-- The path leads to something. -/
def pathExists (d : Disk) (p : Path) : Bool :=
  match d.entry p with
  | .ok _ => true
  | .error _ => false

/-! ## Files -/

/-- The content of a file. -/
def read (d : Disk) (p : Path) : Except IoError Bytes := do
  match ← d.entry p with
  | .file content _ => .ok content
  | .directory => .error .isDirectory
  | .link _ => .error .notFound
  | .special => .error .noDevice

/-- The disk after writing a file, which is created if it is missing. -/
def write (d : Disk) (p : Path) (content : Bytes) : Except IoError Disk := do
  let place ← d.follow true p
  match place.entry with
  | none => .ok (d.set place.location (.file content false))
  | some (.file _ executable) => .ok (d.set place.location (.file content executable))
  | some .special => .error .noDevice
  | some _ => .error .isDirectory

/-- The disk with a file's permission to run. -/
def setExecutable (d : Disk) (p : Path) (executable : Bool) : Except IoError Disk := do
  let place ← d.follow true p
  match place.entry with
  | none => .error .notFound
  | some (.file content _) => .ok (d.set place.location (.file content executable))
  | some _ => .ok d

/-- The disk after removing a file or link. -/
def remove (d : Disk) (p : Path) : Except IoError Disk := do
  let place ← d.follow false p
  match place.entry with
  | none => .error .notFound
  | some .directory => .error .isDirectory
  | some _ => .ok (d.erase place.location)

/-- The disk with a symbolic link, whose place must be free. -/
def makeLink (d : Disk) (p target : Path) : Except IoError Disk := do
  let place ← d.follow false p
  match place.entry with
  | none => .ok (d.set place.location (.link target))
  | some _ => .error .alreadyExists

/-! ## Directories -/

/-- The disk with a directory at the end of a list of parts, whose place must be free. -/
def makeDirectoryAt (d : Disk) (base : Location) (todo : List String) : Except IoError Disk := do
  let place ← d.walk false 40 base todo
  match place.entry with
  | none => .ok (d.set place.location .directory)
  | some _ => .error .alreadyExists

/-- The list of parts leads to a directory. -/
def isDirectoryAt (d : Disk) (base : Location) (todo : List String) : Bool :=
  match d.walk true 40 base todo with
  | .ok ⟨_, some .directory⟩ => true
  | _ => false

/-- Creates the directory of a reversed list of parts, and first its ancestors as far as they
are missing. What was created stays even if a later directory cannot be. -/
def makeDirectories (d : Disk) (base : Location) : List String → Except IoError Unit × Disk
  | [] => (.ok (), d)
  | part :: up =>
    let todo := (part :: up).reverse
    match d.makeDirectoryAt base todo with
    | .ok d => (.ok (), d)
    | .error .notFound =>
      match makeDirectories d base up with
      | (.error e, d) => (.error e, d)
      | (.ok (), d) =>
        match d.makeDirectoryAt base todo with
        | .ok d => (.ok (), d)
        | .error e => if d.isDirectoryAt base todo then (.ok (), d) else (.error e, d)
    | .error e => if d.isDirectoryAt base todo then (.ok (), d) else (.error e, d)

/-- Creates a directory with its ancestors. The empty path is a directory already. -/
def createDirectories (d : Disk) (p : Path) : Except IoError Unit × Disk :=
  if p.isEmpty then (.ok (), d)
  else if p.toList.contains '\x00' then (.error .nulInPath, d)
  else if maxPathLength < p.length then (.error .nameTooLong, d)
  else
    let base := if Path.isAbsolute p then [] else d.workingDirectory
    d.makeDirectories base ((parts p).filter (· ≠ ".")).reverse

/-- Creates one directory. -/
def makeDirectory (d : Disk) (p : Path) : Except IoError Disk :=
  if p.toList.contains '\x00' then .error .nulInPath
  else if p.isEmpty then .error .notFound
  else if maxPathLength < p.length then .error .nameTooLong
  else
    let base := if Path.isAbsolute p then [] else d.workingDirectory
    d.makeDirectoryAt base ((parts p).filter (· ≠ "."))

/-! ## Trees -/

/-- What stands below a location, each with the names that lead there from it. -/
def below (d : Disk) (at' : Location) : List (Location × Entry) :=
  d.entries.filterMap fun (l, e) =>
    if at'.length < l.length ∧ l.take at'.length = at' then some (l.drop at'.length, e) else none

/-- The names in a directory with what they hold. -/
def children (d : Disk) (at' : Location) : List (String × Entry) :=
  (d.below at').filterMap fun
    | ([name], e) => some (name, e)
    | _ => none

theorem mem_below {d : Disk} {at' l : Location} {e : Entry} :
    (l, e) ∈ d.below at' ↔ l ≠ [] ∧ (at' ++ l, e) ∈ d.entries := by
  simp only [below, List.mem_filterMap]
  constructor
  · rintro ⟨⟨l', e'⟩, hm, h⟩
    split at h
    · rename_i hl
      simp only [Option.some.injEq, Prod.mk.injEq] at h
      obtain ⟨rfl, rfl⟩ := h
      have hcat : at' ++ l'.drop at'.length = l' := by
        have h := List.take_append_drop at'.length l'
        rw [hl.2] at h
        exact h
      refine ⟨?_, by rw [hcat]; exact hm⟩
      intro hnil
      have hle : l'.length ≤ at'.length := List.drop_eq_nil_iff.mp hnil
      exact absurd hl.1 (Nat.not_lt.mpr hle)
    · simp at h
  · rintro ⟨hne, hm⟩
    refine ⟨(at' ++ l, e), hm, ?_⟩
    have : 0 < l.length := List.length_pos_iff.mpr hne
    simp [this]

end Disk

end ServiceCall
