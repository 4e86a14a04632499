import ServiceCall.Shell.Arithmetic
import ServiceCall.Shell.Utility.Path
/-!
# Programs that change files

Copying, moving, removing and making files, directories and links, and permissions.
-/

namespace ServiceCall.Shell.Utility

/-! ## Trees -/

/-- The disk without what stands at a location and below it. -/
def withoutTree (d : Disk) (at' : Location) : Disk :=
  let below := (d.below at').map fun (names, _) => at' ++ names
  (below.foldl Disk.erase d).erase at'

/-- The disk with a copy of what stands at a location and below it. -/
def withCopy (d : Disk) (source target : Location) (e : Entry) : Disk :=
  (d.below source).foldl (fun c (names, entry) => c.set (target ++ names) entry) (d.set target e)

/-- What stands at a path, a link at its end followed or not. -/
def placeOf (d : Disk) (follow : Bool) (path : String) : Except IoError (Location × Entry) := do
  let place ← d.follow follow path
  match place.entry with
  | some e => return (place.location, e)
  | none => throw .notFound

/-- The path below a directory that keeps the name of another one. -/
def inside (dir source : String) : String := Path.join dir (lastPart source)

/-- Copying or moving: from where to where. -/
structure Transfer where
  source : String
  target : String

/-- What a program that takes sources and a target is asked for. -/
def transfers (name : String) (g : Given) : Work (Except ExitStatus (List Transfer)) := do
  let d := (← get).disk
  let isDirectory (p : String) : Bool := d.isDirectory p
  let into (dir : String) (sources : List String) : List Transfer :=
    sources.map fun s => ⟨s, inside dir s⟩
  match g.value? "t", g.operands with
  | _, [] => return .error (← misuse name 1 "missing file operand")
  | some dir, sources =>
    if isDirectory dir then return .ok (into dir sources)
    else
      Work.complain (name ++ ": target directory " ++ named dir ++ ": " ++
        (if d.pathExists dir then IoError.notDirectory else .notFound).reason)
      return .error (.code 1)
  | none, [source] =>
    return .error (← misuse name 1 ("missing destination file operand after " ++ named source))
  | none, [source, target] =>
    return .ok [if isDirectory target ∧ !g.has "T" then ⟨source, inside target source⟩
      else ⟨source, target⟩]
  | none, paths =>
    let dir := paths.getLast?.getD ""
    if isDirectory dir then return .ok (into dir paths.dropLast)
    else
      Work.complain (name ++ ": target " ++ named dir ++ ": " ++
        (if d.pathExists dir then IoError.notDirectory else .notFound).reason)
      return .error (.code 1)

/-- Says what was done, if that is asked for. -/
def tell (g : Given) (line : String) : Work Unit := do
  if g.has "v" then Work.say line

/-! ## Copying -/

/-- The place for a file at a path. A path with a slash at its end is none for a new one. -/
def creation (d : Disk) (path : String) : Except IoError Disk.Place := do
  let bare := String.ofList (withoutSlashes path.toList)
  match d.follow true path with
  | .error .notFound =>
    match d.follow true bare with
    | .ok ⟨_, none⟩ => if bare = path then throw .notFound else throw .notDirectory
    | _ => throw .notFound
  | result => result

/-- Copies one file, directory or link. -/
def copyOne (name : String) (g : Given) (t : Transfer) : Work Nat := do
  let d := (← get).disk
  let isDeep := g.has "r" || g.has "R" || g.has "a"
  let follows := !(isDeep || g.has "P" || g.has "d") || g.has "L"
  let arrow := named t.source ++ " -> " ++ named t.target
  match placeOf d follows t.source with
  | .error e => complaint name ("cannot stat " ++ named t.source ++ ": " ++ e.reason)
  | .ok (location, .directory) =>
    if !isDeep then
      complaint name ("-r not specified; omitting directory " ++ named t.source)
    else match d.follow true t.target with
      | .error e =>
        complaint name ("cannot create directory " ++ named t.target ++ ": " ++ e.reason)
      | .ok place =>
        if location.isPrefixOf place.location then
          complaint name ("cannot copy a directory, " ++ named t.source ++ ", into itself, " ++
            named t.target)
        else match place.entry with
          | some (.file _ _) | some (.link _) | some .special =>
            complaint name ("cannot overwrite non-directory " ++ named t.target ++
              " with directory " ++ named t.source)
          | _ =>
            modify fun w => { w with disk := withCopy w.disk location place.location .directory }
            tell g arrow
            return 0
  | .ok (_, .link target) =>
    match ← Work.change fun d => d.makeLink t.target target with
    | .ok () => return 0
    | .error e =>
      complaint name ("cannot create symbolic link " ++ named t.target ++ ": " ++ e.reason)
  | .ok (_, .special) =>
    complaint name ("cannot open " ++ named t.source ++ " for reading: " ++ IoError.noDevice.reason)
  | .ok (location, .file content executable) =>
    match creation d t.target with
    | .error e =>
      complaint name ("cannot create regular file " ++ named t.target ++ ": " ++ e.reason)
    | .ok place =>
      if place.location = location then
        complaint name (named t.source ++ " and " ++ named t.target ++ " are the same file")
      else match place.entry with
        | some .directory =>
          complaint name ("cannot overwrite directory " ++ named t.target ++
            " with non-directory")
        | some old =>
          unless g.has "n" do
            let isRunnable := match old with
              | .file _ x => x
              | _ => executable
            let keeps := g.has "p" || g.has "a"
            let x := if keeps then executable else isRunnable
            modify fun w => { w with disk := w.disk.set place.location (.file content x) }
            tell g arrow
          return 0
        | none =>
          modify fun w => { w with disk := w.disk.set place.location (.file content executable) }
          tell g arrow
          return 0

/-- Copies files. -/
def cp : Utility := withOptions ⟨"abdfiHlLnPprRst:TuvxZS:", [("archive", "a", .nothing),
    ("force", "f", .nothing), ("no-clobber", "n", .nothing), ("recursive", "r", .nothing),
    ("target-directory", "t", .required), ("no-target-directory", "T", .nothing),
    ("verbose", "v", .nothing), ("update", "u", .optional), ("preserve", "p", .optional),
    ("dereference", "L", .nothing), ("no-dereference", "P", .nothing)]⟩ true 1 fun _ name g => do
  match ← transfers name g with
  | .error status => return status
  | .ok ts => return .code (← Work.worst ts (copyOne name g))

/-! ## Moving -/

/-- Moves one file, directory or link. -/
def moveOne (name : String) (g : Given) (t : Transfer) : Work Nat := do
  let d := (← get).disk
  let route := named t.source ++ " to " ++ named t.target
  match placeOf d false t.source with
  | .error e => complaint name ("cannot stat " ++ named t.source ++ ": " ++ e.reason)
  | .ok (location, e) =>
    let finish (target : Location) : Work Nat := do
      modify fun w => { w with
        disk := withoutTree (withCopy (withoutTree w.disk target) location target e) location }
      tell g ("renamed " ++ named t.source ++ " -> " ++ named t.target)
      return 0
    let target := if e.isDirectory then d.follow false t.target
      else (creation d t.target).bind fun _ => d.follow false t.target
    match target with
    | .error err => complaint name ("cannot move " ++ route ++ ": " ++ err.reason)
    | .ok place =>
      if place.location = location then
        complaint name (named t.source ++ " and " ++ named t.target ++ " are the same file")
      else if location.isPrefixOf place.location then
        complaint name ("cannot move " ++ named t.source ++ " to a subdirectory of itself, " ++
          named t.target)
      else match e, place.entry with
        | .directory, some .directory =>
          if (d.below place.location).isEmpty then finish place.location
          else complaint name ("cannot overwrite " ++ named t.target ++ ": Directory not empty")
        | .directory, some _ =>
          complaint name ("cannot overwrite non-directory " ++ named t.target ++
            " with directory " ++ named t.source)
        | _, some .directory =>
          complaint name ("cannot overwrite directory " ++ named t.target ++
            " with non-directory " ++ named t.source)
        | _, some _ => if g.has "n" then return 0 else finish place.location
        | .directory, none => finish place.location
        | _, none =>
          if t.target.toList.getLast? = some '/' then
            complaint name ("cannot move " ++ route ++ ": Not a directory")
          else finish place.location

/-- Moves files. -/
def mv : Utility := withOptions ⟨"bfint:TuvS:Z", [("force", "f", .nothing),
    ("no-clobber", "n", .nothing), ("target-directory", "t", .required),
    ("no-target-directory", "T", .nothing), ("verbose", "v", .nothing),
    ("update", "u", .optional)]⟩ true 1 fun _ name g => do
  match ← transfers name g with
  | .error status => return status
  | .ok ts => return .code (← Work.worst ts (moveOne name g))

/-! ## Removing -/

/-- The path ends in a part that no directory can be removed by. -/
def isDotted (path : String) : Bool :=
  let last := (withoutSlashes path.toList).reverse.takeWhile (· ≠ '/')
  last = ['.'] || last = ['.', '.']

/-- Removes one file or, if that is asked for, a tree. -/
def removeOne (name : String) (g : Given) (path : String) : Work Nat := do
  let d := (← get).disk
  let isDeep := g.has "r" || g.has "R"
  let refuse (reason : String) : Work Nat :=
    complaint name ("cannot remove " ++ named path ++ ": " ++ reason)
  if isDeep ∧ isDotted path then
    complaint name ("refusing to remove '.' or '..' directory: skipping " ++ named path)
  else match placeOf d false path with
    | .error .notFound => if g.has "f" then return 0 else refuse IoError.notFound.reason
    | .error .notDirectory =>
      if g.has "f" then return 0 else refuse IoError.notDirectory.reason
    | .error e => refuse e.reason
    | .ok (location, .directory) =>
      if isDeep ∨ (g.has "d" ∧ (d.below location).isEmpty) then
        modify fun w => { w with disk := withoutTree w.disk location }
        tell g ("removed directory " ++ named path)
        return 0
      else refuse (if g.has "d" then IoError.notEmpty else .isDirectory).reason
    | .ok (location, _) =>
      modify fun w => { w with disk := w.disk.erase location }
      tell g ("removed " ++ named path)
      return 0

/-- Removes files and trees. -/
def rm : Utility := withOptions ⟨"dfiIrRv", [("force", "f", .nothing), ("dir", "d", .nothing),
    ("recursive", "r", .nothing), ("verbose", "v", .nothing)]⟩ true 1 fun _ name g => do
  if g.operands.isEmpty then
    if g.has "f" then return .code 0 else misuse name 1 "missing operand"
  else return .code (← Work.worst g.operands (removeOne name g))

/-- A directory and those that its path leads through, the innermost first. -/
def upward (path : String) : List String :=
  let parts := (path.splitOn "/").filter (!·.isEmpty)
  let lead := if path.toList.head? = some '/' then "/" else ""
  ((List.range parts.length).map fun n => lead ++ "/".intercalate (parts.take (n + 1))).reverse

/-- Removes empty directories. -/
def rmdir : Utility := forEachOperand ⟨"pv", [("parents", "p", .nothing),
    ("verbose", "v", .nothing)]⟩ fun name g path => do
  let dirs := if g.has "p" then upward path else [path]
  dirs.foldlM (fun status dir => do
    if status ≠ 0 then return status
    let d := (← get).disk
    let refuse (e : IoError) : Work Nat :=
      let kind := if dir = path then "" else "directory "
      complaint name ("failed to remove " ++ kind ++ named dir ++ ": " ++ e.reason)
    match placeOf d false dir with
    | .error e => refuse e
    | .ok (location, .directory) =>
      if (d.below location).isEmpty then
        modify fun w => { w with disk := w.disk.erase location }
        return 0
      else refuse .notEmpty
    | .ok _ => refuse .notDirectory) 0

/-! ## Making -/

/-- Makes directories; with `-p` also those that their paths lead through. -/
def mkdir : Utility := forEachOperand ⟨"pvm:Z", [("parents", "p", .nothing),
    ("verbose", "v", .nothing), ("mode", "m", .required)]⟩ fun name g path => do
  let refuse (e : IoError) : Work Nat :=
    complaint name ("cannot create directory " ++ named path ++ ": " ++ e.reason)
  let told (dir : String) : Work Unit := tell g (name ++ ": created directory " ++ named dir)
  if g.has "p" then
    let before := (← get).disk
    let (result, disk) := before.createDirectories path
    modify fun w => { w with disk }
    match result with
    | .error e =>
      -- the first part that is in the way is named
      let isFile (dir : String) : Bool := match before.entry dir with
        | .ok e => !e.isDirectory
        | .error _ => false
      let shown := ((upward path).reverse.find? isFile).getD path
      complaint name ("cannot create directory " ++ named shown ++ ": " ++ e.reason)
    | .ok () =>
      for dir in (upward path).reverse do
        unless before.pathExists dir do told dir
      if path.isEmpty then refuse .notFound else return 0
  else match ← Work.change fun d => d.makeDirectory path with
    | .ok () =>
      told path
      return 0
    | .error e => refuse e

/-- Creates files that are missing. -/
def touch : Utility := withOptions ⟨"acd:fhmr:t:", [("no-create", "c", .nothing),
    ("date", "d", .required), ("reference", "r", .required)]⟩ true 1 fun _ name g => do
  if g.operands.isEmpty then misuse name 1 "missing file operand"
  else return .code (← Work.worst g.operands fun path => do
    let d := (← get).disk
    if g.has "c" ∨ d.pathExists path then return 0
    else if path.toList.getLast? = some '/' then
      complaint name ("setting times of " ++ named path ++ ": No such file or directory")
    else match ← Work.change fun d => d.write path [] with
      | .ok () => return 0
      | .error e => complaint name ("cannot touch " ++ named path ++ ": " ++ e.reason))

/-- Makes one link: a symbolic one, or another file with the same content. -/
def linkOne (name : String) (g : Given) (t : Transfer) : Work Nat := do
  let isSymbolic := g.has "s"
  let d := (← get).disk
  let refuse (e : IoError) : Work Nat :=
    let made := if isSymbolic then "symbolic link " ++ named t.target
      else if e = .alreadyExists then "hard link " ++ named t.target
      else "hard link " ++ named t.target ++ " => " ++ named t.source
    complaint name ("failed to create " ++ made ++ ": " ++ e.reason)
  let replaces : Bool := g.has "f" && !d.isDirectory t.target
  let free (d : Disk) : Disk :=
    if replaces then
      match placeOf d false t.target with
      | .ok (location, _) => d.erase location
      | .error _ => d
    else d
  if isSymbolic then
    match ← Work.change fun d =>
      (free d).makeLink t.target t.source with
    | .ok () =>
      tell g (named t.target ++ " -> " ++ named t.source)
      return 0
    | .error e => refuse e
  else match placeOf d false t.source with
    | .error e => complaint name ("failed to access " ++ named t.source ++ ": " ++ e.reason)
    | .ok (_, .directory) => complaint name (t.source ++ ": hard link not allowed for directory")
    | .ok (_, e) =>
      match (free d).follow false t.target with
      | .error err => refuse err
      | .ok ⟨_, some _⟩ => refuse .alreadyExists
      | .ok ⟨location, none⟩ =>
        modify fun w => { w with disk := (free w.disk).set location e }
        tell g (named t.target ++ " => " ++ named t.source)
        return 0

/-- Makes links. -/
def ln : Utility := withOptions ⟨"fisnPLrt:TvbS:", [("force", "f", .nothing),
    ("symbolic", "s", .nothing), ("no-dereference", "n", .nothing),
    ("target-directory", "t", .required), ("no-target-directory", "T", .nothing),
    ("verbose", "v", .nothing)]⟩ true 1 fun _ name g => do
  let g := match g.operands, g.value? "t" with
    | [source], none => { g with operands := [source, "."] }
    | _, _ => g
  match ← transfers name g with
  | .error status => return status
  | .ok ts => return .code (← Work.worst ts (linkOne name g))

/-! ## Permissions -/

/-- What a mode does to the permission to run; none if it is no mode. -/
def modeEffect? (mode : String) : Option (Bool → Bool) :=
  let isOctal (c : Char) : Bool := '0' ≤ c && c ≤ '7'
  let digits := mode.toList
  if !digits.isEmpty && digits.all isOctal then
    let n := Arithmetic.value 8 digits
    if n < 4096 then some fun _ => n % 2 = 1 || n / 8 % 2 = 1 || n / 64 % 2 = 1 else none
  else
    (mode.splitOn ",").foldl (fun (acc : Option (Bool → Bool)) clause =>
      let isWho (c : Char) : Bool := "ugoa".toList.contains c
      match acc, clause.toList.dropWhile isWho with
      | some f, op :: rights =>
        if !("+-=".toList.contains op) || !rights.all (fun c => "rwxXst".toList.contains c) then
          none
        else
          let names := rights.contains 'x'
          match op with
          | '+' => some fun x => f x || names
          | '-' => some fun x => f x && !names
          | _ =>
            let isForOthers : Bool :=
              match clause.toList.takeWhile isWho with
              | [] => false
              | who => !(who.contains 'a' || who.contains 'u')
            some fun x => if isForOthers then f x || names else names
      | _, _ => none) (some id)

/-- Changes permissions. -/
def chmod : Utility := fun start args =>
  -- a mode that takes a permission away looks like an option
  let isMode (a : String) : Bool :=
    match a.toList with
    | '-' :: cs => !cs.isEmpty && cs.all fun c => "rwxXstugo,+=-".toList.contains c
    | _ => false
  let args := match args.span fun a => !(isMode a || a = "--") with
    | (before, mode :: after) =>
      if mode = "--" then args
      else if before.all fun a => a.toList.head? = some '-' || a = before.headD "" then
        before ++ "--" :: mode :: after
      else args
    | _ => args
  withOptions ⟨"cfRv", [("recursive", "R", .nothing), ("verbose", "v", .nothing),
      ("quiet", "f", .nothing), ("silent", "f", .nothing), ("changes", "c", .nothing)]⟩ true 1
    (fun _ name g => do
      match g.operands with
      | [] => misuse name 1 "missing operand"
      | [mode] => misuse name 1 ("missing operand after " ++ quoted mode)
      | mode :: paths =>
        match modeEffect? mode with
        | none => misuse name 1 ("invalid mode: " ++ quoted mode)
        | some f => return .code (← Work.worst paths fun path => do
            let d := (← get).disk
            match placeOf d true path with
            | .error e => complaint name ("cannot access " ++ named path ++ ": " ++ e.reason)
            | .ok (location, e) =>
              let below := if g.has "R" then
                (d.below location).map fun (names, e) => (location ++ names, e) else []
              for (l, e) in (location, e) :: below do
                if let .file content x := e then
                  modify fun w => { w with disk := w.disk.set l (.file content (f x)) }
              return 0)) start args

/-- Checks that paths lead somewhere, and changes nothing that can be seen. -/
def chown : Utility := withOptions ⟨"cfhRv", [("recursive", "R", .nothing)]⟩ true 1
  fun _ name g => do
    match g.operands with
    | [] => misuse name 1 "missing operand"
    | [owner] => misuse name 1 ("missing operand after " ++ quoted owner)
    | owner :: paths =>
      let user := owner.toList.takeWhile fun c => c ≠ ':' && c ≠ '.'
      if !(user.isEmpty || user.all isDigit || user = "root".toList) then
        return .code (← complaint name ("invalid user: " ++ quoted owner))
      return .code (← Work.worst paths fun path => do
        match placeOf (← get).disk true path with
        | .ok _ => return 0
        | .error e => complaint name ("cannot access " ++ named path ++ ": " ++ e.reason))

/-- Copies files with permissions, or makes directories. -/
def install : Utility := withOptions ⟨"bcCdDg:m:o:pst:Tv", [("directory", "d", .nothing),
    ("mode", "m", .required), ("target-directory", "t", .required),
    ("no-target-directory", "T", .nothing), ("verbose", "v", .nothing)]⟩ true 1
  fun _ name g => do
    if g.has "d" then
      for path in g.operands do
        modify fun w => { w with disk := (w.disk.createDirectories path).2 }
      return .code 0
    else
      if g.has "D" then
        let dir := match g.value? "t", g.operands.getLast? with
          | some dir, _ => dir
          | none, some target => withoutLast target
          | none, none => "."
        modify fun w => { w with disk := (w.disk.createDirectories dir).2 }
      match ← transfers name g with
      | .error status => return status
      | .ok ts =>
        return .code (← Work.worst ts fun t => do
          let status ← copyOne name g t
          let x := match (g.value? "m").bind modeEffect? with
            | some f => f false
            | none => true
          let _ ← Work.change fun d => d.setExecutable t.target x
          return status)

/-- Sets the length of files. -/
def truncate : Utility := withOptions ⟨"cos:r:", [("size", "s", .required),
    ("no-create", "c", .nothing), ("reference", "r", .required)]⟩ true 1 fun _ name g => do
  match g.value? "s", g.operands with
  | none, _ => misuse name 1 "you must specify either '--size' or '--reference'"
  | some _, [] => misuse name 1 "missing file operand"
  | some size, paths =>
    let n := digitsValue (size.toList.filter isDigit)
    return .code (← Work.worst paths fun path => do
      let d := (← get).disk
      if g.has "c" ∧ !d.pathExists path then return 0
      let old := match d.read path with
        | .ok content => content
        | .error _ => []
      let n := match size.toList.head? with
        | some '+' => old.length + n
        | some '-' => old.length - n
        | _ => n
      match ← Work.change fun d => d.write path (old.take n ++ List.replicate (n - old.length) 0) with
      | .ok () => return 0
      | .error e => complaint name ("cannot open " ++ named path ++ " for writing: " ++ e.reason))

/-- Makes a new file or directory and tells its name. -/
def mktemp : Utility := withOptions ⟨"dp:qtu", [("directory", "d", .nothing),
    ("tmpdir", "p", .optional), ("dry-run", "u", .nothing), ("quiet", "q", .nothing),
    ("suffix", "suffix", .required)]⟩ true 1 fun _ name g => do
  let w ← get
  if 1 < g.operands.length then return ← misuse name 1 "too many templates"
  let isOpen := !g.operands.isEmpty && !g.has "p" && !g.has "t"
  let form := g.operands.headD "tmp.XXXXXXXXXX"
  let marks := (form.toList.reverse.takeWhile (· = 'X')).length
  if marks < 3 then
    Work.complain (name ++ ": too few X's in template " ++ quoted form)
    return .code 1
  let dir := match g.value? "p" with
    | some dir => if dir.isEmpty then (w.environment.lookup "TMPDIR").getD "/tmp" else dir
    | none => (w.environment.lookup "TMPDIR").getD "/tmp"
  let stem := String.ofList (form.toList.take (form.length - marks))
  let base := if isOpen then stem else dir ++ "/" ++ stem
  let filled (n : Nat) : String :=
    let ds := Nat.toDigits 36 n
    base ++ String.ofList (List.replicate (marks - ds.length) 'a' ++
      ds.map fun c => if c.isAlphanum then c else 'z')
  let path := ((List.range 36).map filled).find? fun p => !w.disk.pathExists p
  let path := path.getD (filled 0)
  let made ← if g.has "u" then pure (.ok ())
    else Work.change fun d =>
      if g.has "d" then d.makeDirectory path else d.write path []
  match made with
  | .ok () =>
    Work.say path
    return .code 0
  | .error e =>
    let kind := if g.has "d" then "directory" else "file"
    let shown := if isOpen then form else dir ++ "/" ++ form
    Work.complain (name ++ ": failed to create " ++ kind ++ " via template " ++ quoted shown ++
      ": " ++ e.reason)
    return .code 1

end ServiceCall.Shell.Utility
