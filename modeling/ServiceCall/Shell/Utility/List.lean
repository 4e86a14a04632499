import ServiceCall.Shell.Pattern
import ServiceCall.Shell.Utility.Path
/-!
# Listing directories

The names in directories, and the paths below them.
-/

namespace ServiceCall.Shell.Utility

/-- The names in a directory in the order of their bytes. -/
def sortedChildren (d : Disk) (l : Location) : List (String × Entry) :=
  (d.children l).mergeSort fun a b => a.1 ≤ b.1

/-! ## Names -/

/-- The sign behind a name that tells what it is. -/
def classSign (g : Given) (e : Entry) : String :=
  match e with
  | .directory => if g.has "F" ∨ g.has "p" then "/" else ""
  | .file _ executable => if g.has "F" ∧ executable then "*" else ""
  | .link _ => if g.has "F" then "@" else ""
  | .special => if g.has "F" then "=" else ""

/-- A line of a long list; links, owner, size and time are not kept apart. -/
def longLine (name : String) (e : Entry) : String :=
  let (rights, size, target) := match e with
    | .directory => ("drwxr-xr-x", 4096, "")
    | .file content x => (if x then "-rwxr-xr-x" else "-rw-r--r--", content.length, "")
    | .link t => ("lrwxrwxrwx", t.length, " -> " ++ t)
    | .special => ("srwxr-xr-x", 0, "")
  rights ++ " 1 root root " ++ toString size ++ " Jan  1  1970 " ++ name ++ target

/-- Writes names, one a line. -/
def listNames (g : Given) (es : List (String × Entry)) : Work Unit := do
  let es := if g.has "r" then es.reverse else es
  if g.has "m" then
    unless es.isEmpty do
      Work.say (", ".intercalate (es.map fun (n, e) => n ++ classSign g e))
  else
    for (n, e) in es do
      Work.say (if g.has "l" then longLine n e else n ++ classSign g e)

/-- What a directory shows of its content. -/
def listed (g : Given) (d : Disk) (l : Location) : List (String × Entry) :=
  let dots := if g.has "a" then [(".", Entry.directory), ("..", .directory)] else []
  let isShown (n : String) : Bool := g.has "a" || g.has "A" || n.toList.head? ≠ some '.'
  dots ++ (sortedChildren d l).filter fun (n, _) => isShown n

/-- Writes the content of a directory, and of those below it if that is asked for. -/
def listDirectory (g : Given) (d : Disk) (isHeaded : Bool) :
    Nat → Bool → String → Location → Work Unit
  | 0, _, _, _ => return ()
  | fuel + 1, isFirst, path, l => do
    if isHeaded then Work.say ((if isFirst then "" else "\n") ++ path ++ ":")
    let es := listed g d l
    if g.has "l" then Work.say "total 0"
    listNames g es
    if g.has "R" then
      for (n, e) in es do
        if e.isDirectory ∧ n ≠ "." ∧ n ≠ ".." then
          listDirectory g d isHeaded fuel false (path ++ "/" ++ n) (l ++ [n])

/-- Lists files and the contents of directories. -/
def ls : Utility := withOptions ⟨"aAbBcCdDfFgGhHiI:klLmnNopqQrRsStT:uUvw:xXZ1",
    [("all", "a", .nothing), ("almost-all", "A", .nothing), ("directory", "d", .nothing),
    ("classify", "F", .optional), ("recursive", "R", .nothing), ("reverse", "r", .nothing),
    ("color", "color", .optional)]⟩ true 2 fun _ name g => do
  let d := (← get).disk
  let paths := if g.operands.isEmpty then ["."] else g.operands
  let found ← paths.foldlM (fun (acc : Nat × List (String × Location × Entry)) path => do
    let (status, found) := acc
    let link? := (d.linkEntry path).toOption
    match d.follow true path, link? with
    | .ok ⟨l, some .directory⟩, _ => return (status, found ++ [(path, l, .directory)])
    | .ok ⟨l, some e⟩, some (_, .link t) =>
      return (status, found ++ [(path, l, if g.has "l" then .link t else e)])
    | .ok ⟨l, some e⟩, _ => return (status, found ++ [(path, l, e)])
    | .ok ⟨l, none⟩, some (_, e) => return (status, found ++ [(path, l, e)])
    | .ok ⟨_, none⟩, none =>
      Work.complain (name ++ ": cannot access " ++ named path ++ ": " ++ IoError.notFound.reason)
      return (2, found)
    | .error e, _ =>
      Work.complain (name ++ ": cannot access " ++ named path ++ ": " ++ e.reason)
      return (2, found)) (0, [])
  let sorted := found.2.mergeSort fun a b => a.1 ≤ b.1
  let isLeaf (e : Entry) : Bool := g.has "d" || !e.isDirectory
  let leaves := sorted.filter fun (_, _, e) => isLeaf e
  let dirs := sorted.filter fun (_, _, e) => !isLeaf e
  listNames g (leaves.map fun (n, _, e) => (n, e))
  let isHeaded := 1 < paths.length || g.has "R"
  let dirs := if g.has "r" then dirs.reverse else dirs
  let _ ← dirs.foldlM (fun isFirst (path, l, _) => do
    listDirectory g d isHeaded 100 isFirst path l
    return false) leaves.isEmpty
  return .code found.1

/-! ## Paths below directories -/

namespace Find

/-- What is asked of a path, and what is done with it. -/
inductive Test where
  | name (pattern : String) (folds : Bool)
  | path (pattern : String)
  | kind (letters : List Char)
  | empty
  | executable
  | truth (b : Bool)
  | print (isZero : Bool)
  | delete
  | execute (isMany : Bool) (command : List String)
  | quit
  | prune
  | not (a : Test)
  | both (a b : Test)
  | either (a b : Test)

/-- The bounds on how deep paths are looked for, and whether directories come last. -/
structure Depth where
  least : Nat
  most : Option Nat
  isPost : Bool

/-- The test does something, so that paths need not be written as well. -/
def Test.acts : Test → Bool
  | print _ | delete | execute _ _ | quit => true
  | not a => a.acts
  | both a b | either a b => a.acts || b.acts
  | _ => false

/-- What is read of an expression: tests, bounds and the words left. -/
abbrev Parsed := Except String (Test × Depth × List String)

/-- The command of an execution, up to its end. -/
def commandWords : List String → List String → Option (Bool × List String × List String)
  | _, [] => none
  | acc, ";" :: rest => some (false, acc.reverse, rest)
  | "\x7b\x7d" :: acc, "+" :: rest => some (true, acc.reverse, rest)
  | acc, w :: rest => commandWords (w :: acc) rest

mutual

/-- Alternatives. -/
def alternatives : Nat → Depth → List String → Parsed
  | 0, _, _ => .error "expression too long"
  | fuel + 1, d, ws => do
    let (a, d, ws) ← conjunction fuel d ws
    match ws with
    | w :: rest =>
      if w = "-o" ∨ w = "-or" then do
        let (b, d, ws) ← alternatives fuel d rest
        return (.either a b, d, ws)
      else return (a, d, ws)
    | [] => return (a, d, [])

/-- Tests that must all hold. -/
def conjunction : Nat → Depth → List String → Parsed
  | 0, _, _ => .error "expression too long"
  | fuel + 1, d, ws => do
    let (a, d, ws) ← single fuel d ws
    let ends (w : String) : Bool := w = "-o" || w = "-or" || w = ")"
    match ws with
    | [] => return (a, d, [])
    | w :: rest =>
      if ends w then return (a, d, ws)
      else
        let rest := if w = "-a" ∨ w = "-and" then rest else ws
        let (b, d, ws) ← conjunction fuel d rest
        return (.both a b, d, ws)

/-- One test. -/
def single : Nat → Depth → List String → Parsed
  | 0, _, _ => .error "expression too long"
  | fuel + 1, d, ws => do
    match ws with
    | [] => return (.truth true, d, [])
    | "!" :: rest | "-not" :: rest =>
      let (a, d, ws) ← single fuel d rest
      return (.not a, d, ws)
    | "(" :: rest =>
      let (a, d, ws) ← alternatives fuel d rest
      match ws with
      | ")" :: ws => return (a, d, ws)
      | _ =>
        throw "invalid expression; I was expecting to find a ')' somewhere but did not see one."
    | "-print" :: rest => return (.print false, d, rest)
    | "-print0" :: rest => return (.print true, d, rest)
    | "-delete" :: rest => return (.delete, { d with isPost := true }, rest)
    | "-depth" :: rest => return (.truth true, { d with isPost := true }, rest)
    | "-quit" :: rest => return (.quit, d, rest)
    | "-prune" :: rest => return (.prune, d, rest)
    | "-empty" :: rest => return (.empty, d, rest)
    | "-executable" :: rest => return (.executable, d, rest)
    | "-true" :: rest => return (.truth true, d, rest)
    | "-false" :: rest => return (.truth false, d, rest)
    | "-exec" :: rest =>
      match commandWords [] rest with
      | some (isMany, command, rest) => return (.execute isMany command, d, rest)
      | none => throw "missing argument to \x60-exec'"
    | [w] =>
      if ["-name", "-iname", "-path", "-wholename", "-type", "-maxdepth",
          "-mindepth"].contains w then
        throw ("missing argument to \x60" ++ w ++ "'")
      else throw ("unknown predicate \x60" ++ w ++ "'")
    | w :: v :: rest =>
      let count : Except String Nat :=
        match natural? v with
        | some n => return n
        | none => throw ("Expected a positive decimal integer argument to " ++ w ++ ", but got " ++
            quoted v)
      match w with
      | "-name" => return (.name v false, d, rest)
      | "-iname" => return (.name v true, d, rest)
      | "-path" | "-wholename" => return (.path v, d, rest)
      | "-type" => return (.kind v.toList, d, rest)
      | "-maxdepth" => return (.truth true, { d with most := some (← count) }, rest)
      | "-mindepth" => return (.truth true, { d with least := ← count }, rest)
      | _ => throw ("unknown predicate \x60" ++ w ++ "'")

end

/-- A path that was found. -/
structure Found where
  path : String
  depth : Nat
  location : Location
  entry : Entry

/-- What testing a path has led to. -/
structure State where
  status : Nat
  /-- The paths that commands wait for, by the commands. -/
  waiting : List (List String × List String)
  isPruned : Bool
  isEnded : Bool

/-- Runs a command; tells whether it succeeded. -/
def runs (start : Starter) (command : List String) : Work Bool := do
  match command with
  | [] => return false
  | name :: _ =>
    match ← startOrRead start name command with
    | .ok status => return status.isSuccess
    | .error e =>
      Work.complain ("find: " ++ quoted name ++ ": " ++ e.reason)
      return false

/-- The text with a path in place of each pair of braces. -/
def filled (path w : String) : String := path.intercalate (w.splitOn "\x7b\x7d")

/-- Tests a path. -/
def test (start : Starter) (f : Found) : Test → State → Work (Bool × State)
  | .name p folds, s =>
    let lower (t : List Char) : List Char := if folds then t.map Char.toLower else t
    return (Pattern.isMatch (unmarked (lower p.toList)) (lower (lastPart f.path).toList), s)
  | .path p, s => return (Pattern.isMatch (unmarked p.toList) f.path.toList, s)
  | .kind letters, s =>
    let letter := match f.entry with
      | .directory => 'd'
      | .file _ _ => 'f'
      | .link _ => 'l'
      | .special => 's'
    return (letters.contains letter, s)
  | .empty, s => do
    let d := (← get).disk
    return (match f.entry with
      | .directory => (d.below f.location).isEmpty
      | .file content _ => content.isEmpty
      | .link _ | .special => false, s)
  | .executable, s => return (match f.entry with
      | .file _ x => x
      | _ => true, s)
  | .truth b, s => return (b, s)
  | .print isZero, s => do
    Work.put (f.path.toList ++ [if isZero then '\x00' else '\n'])
    return (true, s)
  | .delete, s => do
    let d := (← get).disk
    if f.entry.isDirectory ∧ !(d.below f.location).isEmpty then
      Work.complain ("find: cannot delete " ++ quoted f.path ++ ": " ++ IoError.notEmpty.reason)
      return (false, { s with status := 1 })
    else
      unless f.location = d.workingDirectory do
        modify fun w => { w with disk := w.disk.erase f.location }
      return (true, s)
  | .execute true command, s =>
    let old := (s.waiting.lookup command).getD []
    return (true, { s with
      waiting := (command, old ++ [f.path]) :: s.waiting.filter (·.1 ≠ command) })
  | .execute false command, s => do
    return (← runs start (command.map (filled f.path)), s)
  | .quit, s => return (true, { s with isEnded := true })
  | .prune, s => return (true, { s with isPruned := true })
  | .not a, s => do
    let (b, s) ← test start f a s
    return (!b, s)
  | .both a b, s => do
    let (x, s) ← test start f a s
    if x ∧ !s.isEnded then test start f b s else return (x, s)
  | .either a b, s => do
    let (x, s) ← test start f a s
    if x ∨ s.isEnded then return (x, s) else test start f b s

/-- Goes through a path and those below it. -/
def visit (start : Starter) (t : Test) (b : Depth) : Nat → Found → State → Work State
  | 0, _, s => return s
  | fuel + 1, f, s => do
    if s.isEnded then return s
    let look (s : State) : Work State := do
      if f.depth < b.least ∨ s.isEnded then return s
      else return (← test start f t s).2
    let deeper : Bool := match b.most with
      | some n => f.depth < n
      | none => true
    let d := (← get).disk
    let s ← if b.isPost then pure s else look { s with isPruned := false }
    let children := if f.entry.isDirectory ∧ deeper ∧ !s.isPruned then
      sortedChildren d f.location else []
    let s ← children.foldlM (fun s (n, e) =>
      visit start t b fuel ⟨Path.join f.path n, f.depth + 1, f.location ++ [n], e⟩ s)
      { s with isPruned := false }
    if b.isPost then look s else return s

end Find

/-- Looks for paths below directories. -/
def find : Utility := fun start args => do
  let name := args.headD ""
  let rest := (args.drop 1).dropWhile fun a => a = "-H" || a = "-L" || a = "-P"
  let starts (a : String) : Bool := a.toList.head? = some '-' || a = "!" || a = "("
  let paths := rest.takeWhile (!starts ·)
  let words := rest.drop paths.length
  let paths := if paths.isEmpty then ["."] else paths
  match Find.alternatives (4 * words.length + 8) ⟨0, none, false⟩ words with
  | .error message =>
    Work.complain (name ++ ": " ++ message)
    return .code 1
  | .ok (_, _, w :: _) =>
    Work.complain (name ++ ": paths must precede expression: \x60" ++ w ++ "'")
    return .code 1
  | .ok (t, bounds, []) =>
    let t := if t.acts then t else .both t (.print false)
    let s ← paths.foldlM (fun (s : Find.State) path => do
      match (← get).disk.linkEntry path with
      | .error e =>
        Work.complain (name ++ ": " ++ quoted path ++ ": " ++ e.reason)
        return { s with status := 1 }
      | .ok (location, entry) => Find.visit start t bounds 200 ⟨path, 0, location, entry⟩ s)
      ⟨0, [], false, false⟩
    let status ← s.waiting.reverse.foldlM (fun status (command, paths) => do
      if ← Find.runs start (command ++ paths) then return status else return 1) s.status
    return .code status

end ServiceCall.Shell.Utility
