import ServiceCall.Shell.Utility.Path
/-!
# Programs that show texts

Files one after another, their lines numbered, turned round or side by side, and their
beginnings and ends.
-/

namespace ServiceCall.Shell.Utility

/-- A number in a column of some width. -/
def column (width n : Nat) : List Char :=
  let ds := Nat.toDigits 10 n
  List.replicate (width - ds.length) ' ' ++ ds

/-- Lines with their ends; the last one has one only if the text does. -/
def ended (s : List Char) : List (List Char) :=
  let (ls, isWhole) := Octets.lines s
  let n := ls.length
  ls.zipIdx.map fun (l, i) => if isWhole ∨ i + 1 < n then l ++ ['\n'] else l

/-! ## Whole files -/

/-- A character with signs for one that cannot be seen. -/
def visible (c : Char) : List Char :=
  let low (n : Nat) : List Char :=
    if n < 32 then ['^', Char.ofNat (n + 64)] else if n = 127 then ['^', '?'] else [Char.ofNat n]
  if c.toNat < 128 then low c.toNat else 'M' :: '-' :: low (c.toNat - 128)

/-- A line as `cat` shows it; whether it has an end is known. -/
def shown (g : Given) (line : List Char) (isWhole : Bool) : List Char :=
  let marksEnds := g.has "A" || g.has "E" || g.has "e"
  let marksTabs := g.has "A" || g.has "T" || g.has "t"
  let marksAll := g.has "A" || g.has "v" || g.has "e" || g.has "t"
  let line := line.flatMap fun c =>
    if c = '\t' then (if marksTabs then ['^', 'I'] else [c])
    else if marksAll then visible c else [c]
  if isWhole then line ++ (if marksEnds then ['$', '\n'] else ['\n']) else line

/-- The lines that `cat` shows, a row of empty ones as one if that is asked for. -/
def catLines (g : Given) : Nat → Bool → List (List Char) → List (List Char)
  | _, _, [] => []
  | n, wasEmpty, line :: rest =>
    let isWhole := line.getLast? = some '\n'
    let body := if isWhole then line.dropLast else line
    if body.isEmpty ∧ wasEmpty ∧ g.has "s" then catLines g n true rest
    else
      let isNumbered := if g.has "b" then !body.isEmpty else g.has "n"
      let lead := if isNumbered then column 6 n ++ ['\t'] else []
      (lead ++ shown g body isWhole) ::
        catLines g (if isNumbered then n + 1 else n) body.isEmpty rest

/-- Writes files one after another. -/
def cat : Utility := plain ⟨"AbeEnstTuv", [("show-all", "A", .nothing),
    ("number-nonblank", "b", .nothing), ("show-ends", "E", .nothing), ("number", "n", .nothing),
    ("squeeze-blank", "s", .nothing), ("show-tabs", "T", .nothing),
    ("show-nonprinting", "v", .nothing)]⟩ fun name g => do
  let (status, ts) ← texts name g.operands
  let text := ts.flatMap (·.2)
  Work.put (if g.options.isEmpty then text else (catLines g 1 false (ended text)).flatten)
  return status

/-- Writes the lines of files from the last to the first. -/
def tac : Utility := plain ⟨"", []⟩ fun name g =>
  Work.worst (if g.operands.isEmpty then ["-"] else g.operands) fun path => do
    match ← textOf path with
    | .ok s =>
      Work.put (ended s).reverse.flatten
      return 0
    | .error .isDirectory =>
      complaint name (bare path ++ ": read error: " ++ IoError.invalidArgument.reason)
    | .error e =>
      complaint name ("failed to open " ++ named path ++ " for reading: " ++ e.reason)

/-- Writes the lines of files, each turned round. -/
def rev : Utility := plain ⟨"", []⟩ fun name g => do
  Work.worst (if g.operands.isEmpty then ["-"] else g.operands) fun path => do
    match ← textOf path with
    | .ok s =>
      for line in (Octets.lines s).1 do Work.put (line.reverse ++ ['\n'])
      return 0
    | .error .isDirectory =>
      complaint name (path ++ ": " ++ IoError.isDirectory.reason)
    | .error e => complaint name ("cannot open " ++ path ++ ": " ++ e.reason)

/-- Writes lines with numbers. -/
def nl : Utility := plain ⟨"b:d:f:h:i:l:n:ps:v:w:", [("body-numbering", "b", .required),
    ("number-width", "w", .required), ("number-separator", "s", .required),
    ("starting-line-number", "v", .required)]⟩ fun name g => do
  let (status, ts) ← texts name g.operands
  let width := ((g.value? "w").bind natural?).getD 6
  let separator := ((g.value? "s").getD "\t").toList
  let isNumbered (line : List Char) : Bool :=
    match g.value? "b" with
    | some "a" => true
    | some "n" => false
    | _ => !line.isEmpty
  let first := ((g.value? "v").bind natural?).getD 1
  let _ ← (Octets.lines (ts.flatMap (·.2))).1.foldlM (fun n line => do
    if isNumbered line then
      Work.put (column width n ++ separator ++ line ++ ['\n'])
      return n + 1
    else
      Work.put (List.replicate (width + separator.length) ' ' ++ line ++ ['\n'])
      return n) first
  return status

/-- Writes the input to the output and to files. -/
def tee : Utility := plain ⟨"aip", [("append", "a", .nothing)]⟩ fun name g => do
  match ← Work.takeInput with
  | .error e => complaint name ("read error: " ++ e.reason)
  | .ok s =>
    let status ← Work.worst g.operands fun path => do
      let old ← if g.has "a" then Work.readFile path else pure (.ok [])
      match ← Work.writeFile path ((old.toOption.getD []) ++ s) with
      | .ok () => return 0
      | .error e => complaint name (bare path ++ ": " ++ e.reason)
    Work.put s
    return status

/-- Columns joined line by line, up to the end of the longest. -/
def joinedRows (separators : List Char) : Nat → List (List (List Char)) → List (List Char)
  | 0, _ => []
  | fuel + 1, columns =>
    if columns.all (·.isEmpty) then []
    else
      let row := columns.zipIdx.flatMap fun (c, i) =>
        let lead := if i = 0 then [] else
          (separators[(i - 1) % separators.length]?).toList
        lead ++ c.headD []
      row :: joinedRows separators fuel (columns.map (·.drop 1))

/-- Writes files side by side, or the lines of each as one line. -/
def paste : Utility := plain ⟨"d:sz", [("delimiters", "d", .required),
    ("serial", "s", .nothing)]⟩ fun name g => do
  let paths := if g.operands.isEmpty then ["-"] else g.operands
  let (status, ts) ← paths.foldlM (fun (acc : Nat × List (String × List Char)) path => do
    let (status, ts) := acc
    if status ≠ 0 then return acc
    let (status, new) ← texts name [path]
    return (status, ts ++ new)) (0, [])
  let ts := if status = 0 then ts else []
  let columns := ts.map fun t => (Octets.lines t.2).1
  let separators := match ((g.value? "d").getD "\t").toList with
    | [] => []
    | '\\' :: 'n' :: rest => '\n' :: rest
    | '\\' :: 't' :: rest => '\t' :: rest
    | '\\' :: '0' :: rest => rest
    | ds => ds
  let rows := if g.has "s" then columns.flatMap fun c =>
      joinedRows separators 1 (c.map fun line => [line])
    else joinedRows separators ((columns.map (·.length)).foldl max 0) columns
  for row in rows do Work.put (row ++ ['\n'])
  return status

/-! ## Beginnings and ends -/

/-- A count with an ending that multiplies it. -/
def size? (s : String) : Option Nat :=
  let ds := s.toList.takeWhile isDigit
  let ending := String.ofList (s.toList.drop ds.length)
  let factor? : Option Nat := match ending with
    | "" => some 1
    | "b" => some 512
    | "k" | "K" | "KiB" => some 1024
    | "kB" | "KB" => some 1000
    | "m" | "M" | "MiB" => some 1048576
    | "MB" => some 1000000
    | "G" | "GiB" => some 1073741824
    | "GB" => some 1000000000
    | _ => none
  if ds.isEmpty then none else factor?.map (digitsValue ds * ·)

/-- Arguments with a count behind the first dash written as an option, unless a letter behind
it means nothing. -/
def withoutCount (args : List String) : Except Char (List String) :=
  match args with
  | name :: a :: rest =>
    match a.toList with
    | '-' :: c :: cs =>
      if isDigit c then
        let ds := (c :: cs).takeWhile isDigit
        match (c :: cs).drop ds.length with
        | [] => .ok (name :: "-n" :: String.ofList ds :: rest)
        | ['c'] => .ok (name :: "-c" :: String.ofList ds :: rest)
        | ['q'] => .ok (name :: "-q" :: "-n" :: String.ofList ds :: rest)
        | ['v'] => .ok (name :: "-v" :: "-n" :: String.ofList ds :: rest)
        | letter :: _ => .error letter
      else .ok args
    | _ => .ok args
  | _ => .ok args

/-- Which part of a text is shown: how many lines or bytes, counted with a sign or without. -/
structure Portion where
  isBytes : Bool
  sign : Option Char
  count : Nat

/-- The portion that a count asks for. -/
def portion? (isBytes : Bool) (v : String) : Option Portion :=
  let (sign, digits) := match v.toList with
    | '-' :: rest => (some '-', rest)
    | '+' :: rest => (some '+', rest)
    | rest => (none, rest)
  (size? (String.ofList digits)).map fun n => ⟨isBytes, sign, n⟩

/-- What is wrong with the value of an option, if it is a count. -/
def portionFault? (o : String × String) : Option Misuse :=
  let wrong (isBytes : Bool) (unit : String) : Option Misuse :=
    if (portion? isBytes o.2).isSome then none
    else some (.value ("invalid number of " ++ unit ++ ": " ++ quoted o.2))
  match o.1 with
  | "c" => wrong true "bytes"
  | "n" => wrong false "lines"
  | _ => none

/-- The portion that options ask for. -/
def portion (g : Given) : Portion :=
  let asked := (g.last? ["c", "n"]).bind fun key =>
    (g.value? key).bind (portion? (key = "c"))
  asked.getD ⟨false, none, 10⟩

namespace Portion

/-- The elements of a text that a portion counts. -/
def elements (p : Portion) (s : List Char) : List (List Char) :=
  if p.isBytes then s.map fun c => [c] else ended s

/-- The beginning of a text. -/
def start (p : Portion) (s : List Char) : List Char :=
  let es := p.elements s
  (es.take (if p.sign = some '-' then es.length - p.count else p.count)).flatten

/-- The end of a text. -/
def finish (p : Portion) (s : List Char) : List Char :=
  let es := p.elements s
  (es.drop (if p.sign = some '+' then p.count - 1 else es.length - p.count)).flatten

end Portion

/-- Shows a part of each file, under headings if there are many. -/
def showParts (part : List Char → List Char) (name : String) (g : Given) : Work Nat := do
  let paths := if g.operands.isEmpty then ["-"] else g.operands
  let isHeaded := match g.last? ["q", "v"] with
    | some "q" => false
    | some _ => true
    | none => 1 < paths.length
  let heading (isFirst : Bool) (path : String) : Work Unit := do
    if isHeaded then
      let shown := if path = "-" then "standard input" else path
      Work.put ((if isFirst then "" else "\n") ++ "==> " ++ shown ++ " <==\n").toList
  let (status, _) ← paths.foldlM (fun (status, isFirst) path => do
    match ← textOf path with
    | .ok s =>
      heading isFirst path
      Work.put (part s)
      return (status, false)
    | .error .isDirectory =>
      heading isFirst path
      let n ← complaint name ("error reading " ++ named path ++ ": " ++
        IoError.isDirectory.reason)
      return (n, false)
    | .error e =>
      let n ← complaint name ("cannot open " ++ named path ++ " for reading: " ++ e.reason)
      return (n, isFirst)) (0, true)
  return status

/-- A program that shows a portion of each file. -/
def portions (part : Portion → List Char → List Char) : Utility := fun start args =>
  match withoutCount args with
  | .error letter =>
    misuse (args.headD "") 1 ("invalid trailing option -- " ++ String.singleton letter)
  | .ok args =>
    withChecked ⟨"c:n:qvzfs:F", [("bytes", "c", .required), ("lines", "n", .required),
        ("quiet", "q", .nothing), ("silent", "q", .nothing), ("verbose", "v", .nothing)]⟩
      portionFault? true 1
      (fun _ name g => return .code (← showParts (part (portion g)) name g)) start args

/-- Shows the beginnings of files. -/
def head : Utility := portions Portion.start

/-- Shows the ends of files. -/
def tail : Utility := portions Portion.finish

end ServiceCall.Shell.Utility
