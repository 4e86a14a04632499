import ServiceCall.Shell.Utility.Basic
/-!
# Programs about paths

Names of files, and where paths lead.
-/

namespace ServiceCall.Shell.Utility

/-- A text without the slashes at its end, unless it has nothing else. -/
def withoutSlashes (s : List Char) : List Char :=
  let rest := (s.reverse.dropWhile (· = '/')).reverse
  if rest.isEmpty ∧ !s.isEmpty then ['/'] else rest

/-- The last part of a path. -/
def lastPart (path : String) : String :=
  let s := withoutSlashes path.toList
  if s = ['/'] then "/" else String.ofList (s.reverse.takeWhile (· ≠ '/')).reverse

/-- A path without its last part. -/
def withoutLast (path : String) : String :=
  let s := withoutSlashes path.toList
  let up := s.reverse.dropWhile (· ≠ '/')
  if up.isEmpty then "." else String.ofList (withoutSlashes up.reverse)

/-- A name without an ending, unless that is all of it. -/
def withoutEnding (name ending : String) : String :=
  let n := name.length - ending.length
  if 0 < n ∧ name.toList.drop n = ending.toList then String.ofList (name.toList.take n) else name

/-- The end of a line of a list: a line break, or a zero byte if that was asked for. -/
def lineEnd (g : Given) : List Char := if g.has "z" then ['\x00'] else ['\n']

/-- Writes a name as a line of a list. -/
def list (g : Given) (s : String) : Work Unit := Work.put (s.toList ++ lineEnd g)

/-- The last parts of paths. -/
def basename : Utility := withOptions ⟨"as:z", [("multiple", "a", .nothing),
    ("suffix", "s", .required), ("zero", "z", .nothing)]⟩ false 1 fun _ name g => do
  let isMany := g.has "a" || g.has "s"
  match g.operands, isMany with
  | [], _ => misuse name 1 "missing operand"
  | paths, true =>
    for p in paths do list g (withoutEnding (lastPart p) ((g.value? "s").getD ""))
    return .code 0
  | [p], false =>
    list g (lastPart p)
    return .code 0
  | [p, ending], false =>
    list g (withoutEnding (lastPart p) ending)
    return .code 0
  | _ :: _ :: extra :: _, false => misuse name 1 ("extra operand " ++ quoted extra)

/-- Paths without their last parts. -/
def dirname : Utility := forEachOperand ⟨"z", [("zero", "z", .nothing)]⟩ fun _ g p => do
  list g (withoutLast p)
  return 0

/-- The path that a path leads to; how many parts at its end may be missing is given. -/
def canonical (d : Disk) (mayMiss : Nat) (p : Path) : Except IoError Path := do
  match d.follow true p with
  | .ok place =>
    if place.entry.isNone ∧ mayMiss = 0 then throw .notFound else return Location.path place.location
  | .error e =>
    if mayMiss ≤ 1 ∨ e ≠ .notFound then throw e
    else
      let base := if Path.isAbsolute p then [] else d.workingDirectory
      return Location.path (base ++ (Disk.parts p).filter (· ≠ "."))

/-- What symbolic links hold, or where paths lead. -/
def readlink : Utility := forEachOperand ⟨"femnqsvz", [("canonicalize", "f", .nothing),
    ("canonicalize-existing", "e", .nothing), ("canonicalize-missing", "m", .nothing),
    ("no-newline", "n", .nothing), ("zero", "z", .nothing)]⟩ fun name g path => do
  let d := (← get).disk
  let result := match g.last? ["f", "e", "m"] with
    | some "e" => canonical d 0 path
    | some "m" => canonical d 2 path
    | some _ => canonical d 1 path
    | none =>
      match d.linkEntry path with
      | .ok (_, .link target) => .ok target
      | .ok _ => .error .invalidArgument
      | .error e => .error e
  match result with
  | .ok s =>
    if g.has "n" then Work.put s.toList else list g s
    return 0
  | .error e => if g.has "v" then complaint name (bare path ++ ": " ++ e.reason) else return 1

/-- Where paths lead. -/
def realpath : Utility := forEachOperand ⟨"emLPqsz", [("canonicalize-existing", "e", .nothing),
    ("canonicalize-missing", "m", .nothing), ("quiet", "q", .nothing), ("strip", "s", .nothing),
    ("no-symlinks", "s", .nothing), ("zero", "z", .nothing)]⟩ fun name g path => do
  let mayMiss := match g.last? ["e", "m"] with
    | some "e" => 0
    | some _ => 2
    | none => 1
  match canonical (← get).disk mayMiss path with
  | .ok s =>
    list g s
    return 0
  | .error e => if g.has "q" then return 1 else complaint name (bare path ++ ": " ++ e.reason)

/-- The working directory. -/
def pwd : Utility := plain ⟨"LP", [("logical", "L", .nothing), ("physical", "P", .nothing)]⟩
  fun name g => do
    unless g.operands.isEmpty do Work.complain (name ++ ": ignoring non-option arguments")
    Work.say (Location.path (← get).disk.workingDirectory)
    return 0

end ServiceCall.Shell.Utility
