import ServiceCall.Shell.Regex
import ServiceCall.Shell.Utility.Show
/-!
# Searching lines

Lines of files that regular expressions match, with what stands around them.
-/

namespace ServiceCall.Shell.Utility

namespace Grep

/-- How lines are searched. -/
structure Search where
  patterns : List Regex
  folds : Bool
  isInverted : Bool
  /-- A match must be a word, or the whole line. -/
  isWord : Bool
  isLine : Bool

/-- The match does not stand inside a word. -/
def isFree (m : Regex.Match) : Bool :=
  let isInside (c? : Option Char) : Bool := (c?.map Regex.Place.isWordChar).getD false
  !isInside m.before.head? && !isInside m.after.head?

namespace Search

/-- The match of a pattern from a place on that the search allows. -/
def find (s : Search) (r : Regex) : List Char → List Char → Option Regex.Match
  | before, after =>
    let here := (r.matchHere s.folds before after).filter fun m =>
      (!s.isLine || (m.before.isEmpty && m.after.isEmpty)) && (!s.isWord || isFree m)
    match here, after with
    | some m, _ => some m
    | none, [] => none
    | none, c :: after => find s r (c :: before) after

/-- The first match of any pattern, the longest if many start there. -/
def first (s : Search) (before after : List Char) : Option Regex.Match :=
  (s.patterns.filterMap fun r => s.find r before after).foldl
    (fun (best : Option Regex.Match) m =>
      match best with
      | none => some m
      | some b =>
        if m.before.length < b.before.length ∨
          (m.before.length = b.before.length ∧ b.text.length < m.text.length)
        then some m else some b) none

/-- The line is one that is looked for. -/
def accepts (s : Search) (line : List Char) : Bool :=
  (s.first [] line).isSome != s.isInverted

/-- All matches in a line that are not empty. -/
def all (s : Search) : Nat → List Char → List Char → List (List Char)
  | 0, _, _ => []
  | fuel + 1, before, after =>
    match s.first before after with
    | none => []
    | some m =>
      if m.text.isEmpty then
        match m.after with
        | [] => []
        | c :: rest => all s fuel (c :: m.before) rest
      else m.text :: all s fuel (m.text.reverse ++ m.before) m.after

end Search

/-- What is written about files. -/
structure Report where
  search : Search
  isNamed : Bool
  isNumbered : Bool
  onlyMatches : Bool
  onlyCount : Bool
  /-- Only names of files are written: of those with a line, or of those without. -/
  namesWith : Option Bool
  isQuiet : Bool
  most : Option Nat
  /-- How many lines before and after a hit are shown, if that was asked for. -/
  around : Option (Nat × Nat)

namespace Report

/-- The lines that are looked for, by their numbers. -/
def hits (r : Report) (lines : List (List Char)) : List Nat :=
  let all := (lines.zipIdx.filter fun (l, _) => r.search.accepts l).map (·.2)
  match r.most with
  | some n => all.take n
  | none => all

/-- A line of the report; the mark tells a hit from a line around one. -/
def line (r : Report) (name : String) (n : Nat) (mark : String) (body : List Char) : List Char :=
  ((if r.isNamed then name ++ mark else "") ++
    (if r.isNumbered then toString (n + 1) ++ mark else "")).toList ++ body ++ ['\n']

/-- The report of the lines of a file. -/
def rows (r : Report) (name : String) (lines : List (List Char)) (hits : List Nat) : List Char :=
  if r.onlyMatches then
    hits.flatMap fun n =>
      let text := (lines[n]?).getD []
      if r.search.isInverted then []
      else (r.search.all (text.length + 2) [] text).flatMap (r.line name n ":")
  else
    let (before, after) := r.around.getD (0, 0)
    let last := match r.most, hits.getLast? with
      | some _, some n => n + after
      | _, _ => lines.length
    let shown := (List.range lines.length).filter fun n =>
      n ≤ last && hits.any fun h => h ≤ n + before && n ≤ h + after
    (shown.foldl (fun (acc : List (List Char) × Option Nat) n =>
      let gap := match acc.2 with
        | some p => if p + 1 < n ∧ r.around.isSome then ['-', '-', '\n'] else []
        | none => []
      let mark := if hits.contains n then ":" else "-"
      (r.line name n mark ((lines[n]?).getD []) :: gap :: acc.1, some n))
      ([], none)).1.reverse.flatten

/-- Reports on a file; tells whether it has a line that is looked for. -/
def file (r : Report) (name : String) (s : List Char) : Work Bool := do
  let lines := (Octets.lines s).1
  let hits := r.hits lines
  let isHit := !hits.isEmpty
  if !r.isQuiet then
    match r.namesWith with
    | some wanted => if isHit = wanted then Work.say name
    | none =>
      if r.onlyCount then
        Work.say ((if r.isNamed then name ++ ":" else "") ++ toString hits.length)
      else if isHit ∧ s.contains '\x00' then
        Work.say ("grep: " ++ name ++ ": binary file matches")
      else Work.put (r.rows name lines hits)
  return match r.namesWith with
    | some wanted => isHit = wanted
    | none => isHit

end Report

/-- The options. -/
def table : OptionTable := ⟨"EFGPe:f:iyvwxcLlm:oqsbHhnTZA:B:C:arRUzd:D:I",
  [("extended-regexp", "E", .nothing), ("fixed-strings", "F", .nothing),
    ("basic-regexp", "G", .nothing), ("regexp", "e", .required), ("file", "f", .required),
    ("ignore-case", "i", .nothing), ("invert-match", "v", .nothing), ("word-regexp", "w", .nothing),
    ("line-regexp", "x", .nothing), ("count", "c", .nothing),
    ("files-without-match", "L", .nothing), ("files-with-matches", "l", .nothing),
    ("max-count", "m", .required), ("only-matching", "o", .nothing), ("quiet", "q", .nothing),
    ("silent", "q", .nothing), ("no-messages", "s", .nothing), ("with-filename", "H", .nothing),
    ("no-filename", "h", .nothing), ("line-number", "n", .nothing),
    ("after-context", "A", .required), ("before-context", "B", .required),
    ("context", "C", .required), ("recursive", "r", .nothing), ("text", "a", .nothing),
    ("directories", "d", .required),
    ("include", "include", .required), ("exclude", "exclude", .required),
    ("color", "color", .optional), ("colour", "color", .optional)]⟩

/-- What is wrong with the value of an option. -/
def fault? (o : String × String) : Option Misuse :=
  if o.1 = "d" ∧ o.2 ∉ ["read", "recurse", "skip"] then
    some (.value ("invalid argument " ++ quoted o.2 ++ " for '--directories'\n" ++
      "Valid arguments are:\n  - 'read'\n  - 'recurse'\n  - 'skip'"))
  else none

/-- The patterns that options and operands give, and the operands left. -/
def patterns (g : Given) : Work (Except String (List String × List String)) := do
  let lines (s : String) : List String := s.splitOn "\n"
  let listed ← (g.values "f").foldlM (fun (acc : Except String (List String)) path => do
    match acc with
    | .error e => return .error e
    | .ok ps =>
      match ← textOf path with
      | .ok s => return .ok (ps ++ (Octets.lines s).1.map String.ofList)
      | .error e => return .error (path ++ ": " ++ e.reason)) (.ok [])
  return match listed with
    | .error e => .error e
    | .ok ps =>
      if g.has "e" ∨ g.has "f" then .ok ((g.values "e").flatMap lines ++ ps, g.operands)
      else .ok (lines (g.operands.headD ""), g.operands.drop 1)

/-- The way patterns are written. -/
def readPattern (g : Given) (p : String) : Except String Regex :=
  match g.last? ["E", "F", "G", "P"] with
  | some "F" => .ok (Regex.literal p.toList)
  | some "E" | some "P" => Regex.ofText .extended p.toList
  | _ =>
    match p.toList with
    | '[' :: ':' :: rest =>
      if rest.getLast? = some ']' ∧ rest.dropLast.getLast? = some ':' then
        .error "character class syntax is [[:space:]], not [:space:]"
      else Regex.ofText .basic p.toList
    | cs => Regex.ofText .basic cs

/-- The files that operands name; directories are gone through if that is asked for. -/
def files (g : Given) (operands : List String) : Work (List String) := do
  let d := (← get).disk
  if !(g.has "r" || g.has "R") then return if operands.isEmpty then ["-"] else operands
  else
    let fits (name : String) : Bool :=
      let isMatch (p : String) : Bool := Pattern.isMatch (unmarked p.toList) name.toList
      let wanted := g.values "include"
      (wanted.isEmpty || wanted.any isMatch) && !(g.values "exclude").any isMatch
    let under (path shown : String) : List String :=
      match d.follow true path with
      | .ok ⟨l, some .directory⟩ => (d.below l).filterMap fun (names, e) =>
          let name := names.getLast?.getD ""
          if e.isFile ∧ fits name then
            let below := "/".intercalate names
            some (if shown.isEmpty then below else Path.join shown below)
          else none
      | _ => [path]
    return if operands.isEmpty then under "." "" else operands.flatMap fun p => under p p

end Grep

/-- Writes the lines that match. -/
def grepAs (kind : List (String × String)) : Utility := fun _ args => do
  let name := if kind.isEmpty then args.headD "" else "grep"
  let usage : Work Unit := do
    Work.complain ("Usage: " ++ name ++ " [OPTION]... PATTERNS [FILE]...")
    tryHelp name
  -- a count stands for lines around
  let args := (args.drop 1).map fun a =>
    match a.toList with
    | '-' :: c :: cs => if (c :: cs).all isDigit then "-C" ++ String.ofList (c :: cs) else a
    | _ => a
  match Grep.table.read Grep.fault? true (args.length + 1) args with
  | .error m =>
    let (message, status) := match m with
      | .use message => (message, 2)
      | .value message => (message, 1)
    Work.complain (name ++ ": " ++ message)
    usage
    return .code status
  | .ok g =>
    let g := { g with options := kind ++ g.options }
    let fault (message : String) : Work ExitStatus := do
      Work.complain (name ++ ": " ++ message)
      return .code 2
    if g.has "version" then
      Work.say "grep (GNU grep) 3.8"
      return .code 0
    else if g.operands.isEmpty ∧ !g.has "e" ∧ !g.has "f" then
      usage
      return .code 2
    else
      let wrong := (["A", "B", "C"].flatMap g.values).find? fun v => (natural? v).isNone
      match wrong, (g.value? "m").map natural? with
      | some v, _ => fault (v ++ ": invalid context length argument")
      | none, some none => fault "invalid max count"
      | none, most =>
        match ← Grep.patterns g with
        | .error message => fault message
        | .ok (texts, operands) =>
          match texts.mapM (Grep.readPattern g) with
          | .error message => fault message
          | .ok patterns =>
            let number (key : String) : Nat :=
              ((g.value? key).bind natural?).getD (((g.value? "C").bind natural?).getD 0)
            let d := (← get).disk
            let isDeep := g.has "r" || g.has "R"
            let leadsDown : Bool := operands.isEmpty ||
              d.isDirectory (operands.headD "")
            let isNamed := match g.last? ["H", "h"] with
              | some key => key = "H"
              | none => 1 < operands.length || (isDeep && leadsDown)
            let report : Grep.Report :=
              { search := ⟨patterns, g.has "i" || g.has "y", g.has "v", g.has "w", g.has "x"⟩
                isNamed
                isNumbered := g.has "n"
                onlyMatches := g.has "o"
                onlyCount := g.has "c"
                namesWith := (g.last? ["l", "L"]).map (· = "l")
                isQuiet := g.has "q"
                most := most.bind id
                around := (g.last? ["A", "B", "C"]).map fun _ => (number "B", number "A") }
            let (isHit, isFaulty) ← (← Grep.files g operands).foldlM
              (fun (isHit, isFaulty) path => do
                match ← textOf path with
                | .ok s =>
                  let shown := if path = "-" then "(standard input)" else path
                  let isNew ← report.file shown s
                  return (isHit || isNew, isFaulty)
                | .error e =>
                  unless g.has "s" do Work.complain (name ++ ": " ++ path ++ ": " ++ e.reason)
                  return (isHit, true)) (false, false)
            return .code (if isFaulty ∧ !(isHit ∧ g.has "q") then 2 else if isHit then 0 else 1)

/-- Writes the lines that match. -/
def grep : Utility := grepAs []

end ServiceCall.Shell.Utility
