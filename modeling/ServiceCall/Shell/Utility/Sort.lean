import ServiceCall.Shell.Utility.Path
/-!
# Sorted lines

Lines in the order of their bytes or of parts of them, and rows of equal lines.
-/

namespace ServiceCall.Shell.Utility

/-- How two texts are compared. -/
structure Comparison where
  isNumeric : Bool
  isReversed : Bool
  foldsCase : Bool
  skipsBlanks : Bool
  /-- Only letters, digits and blanks count. -/
  isPlain : Bool

/-- A part of a line: from a field and a character in it to a field and a character in it. -/
structure SortKey where
  startField : Nat
  startChar : Nat
  endField : Option Nat
  endChar : Nat
  comparison : Comparison

namespace Comparison

/-- What letters ask for. -/
def ofLetters (cs : List Char) : Comparison :=
  let has (c : Char) : Bool := cs.contains c
  ⟨has 'n' || has 'g' || has 'h', has 'r', has 'f', has 'b', has 'd'⟩

/-- No letter asked for anything. -/
def isDefault (c : Comparison) : Bool :=
  !(c.isNumeric || c.isReversed || c.foldsCase || c.skipsBlanks || c.isPlain)

/-- The number a text starts with, in millionths. -/
def number (s : List Char) : Int :=
  let s := s.dropWhile fun c => c = ' ' || c = '\t'
  let (isNegative, s) := match s with
    | '-' :: rest => (true, rest)
    | rest => (false, rest)
  let whole := s.takeWhile isDigit
  let fraction := match s.drop whole.length with
    | '.' :: rest => (rest.takeWhile isDigit).take 6
    | _ => []
  let n : Int := digitsValue (whole ++ fraction ++ List.replicate (6 - fraction.length) '0')
  if isNegative then -n else n

/-- The order of two texts. -/
def order (c : Comparison) (a b : List Char) : Ordering :=
  let o := if c.isNumeric then compare (number a) (number b)
    else
      let prepared (s : List Char) : List Char :=
        let s := if c.isPlain then
          s.filter fun d => d.isAlphanum || d = ' ' || d = '\t' else s
        if c.foldsCase then s.map Char.toUpper else s
      compare (String.ofList (prepared a)) (String.ofList (prepared b))
  if c.isReversed then o.swap else o

end Comparison

/-- Where the fields of a line start: behind a separator, or else at blanks. -/
def fieldStarts (separator : Option Char) (line : List Char) : List Nat :=
  let isBlank (c : Char) : Bool := c = ' ' || c = '\t'
  let isStart (before c : Char) : Bool :=
    match separator with
    | some s => before = s
    | none => isBlank c && !isBlank before
  let pairs := (line.zip (line.drop 1)).zipIdx
  let inner := (pairs.filter fun ((before, c), _) => isStart before c).map fun (_, i) => i + 1
  let atEnd : Bool := match separator, line.getLast? with
    | some s, some c => c = s
    | _, _ => false
  0 :: inner ++ (if atEnd then [line.length] else [])

/-- The part of a line that a key names. -/
def SortKey.part (k : SortKey) (separator : Option Char) (line : List Char) : List Char :=
  let starts := fieldStarts separator line
  let startOf (n : Nat) : Nat := (starts[n - 1]?).getD line.length
  let isBlank (c : Char) : Bool := c = ' ' || c = '\t'
  let skipped (i : Nat) : Nat :=
    if k.comparison.skipsBlanks then i + ((line.drop i).takeWhile isBlank).length else i
  let first := skipped (startOf k.startField) + (k.startChar - 1)
  let last := match k.endField with
    | none => line.length
    | some n =>
      if k.endChar = 0 then
        match starts[n]? with
        | some i => if separator.isSome then i - 1 else i
        | none => line.length
      else min line.length (skipped (startOf n) + k.endChar)
  (line.take last).drop first

/-- A field and a character in it, and the letters behind. -/
def keyPosition (s : List Char) : Except String (Nat × Nat × List Char) := do
  let ds := s.takeWhile isDigit
  if ds.isEmpty then throw ": invalid count at start of "
  match s.drop ds.length with
  | '.' :: rest =>
    let cs := rest.takeWhile isDigit
    return (digitsValue ds, digitsValue cs, rest.drop cs.length)
  | rest => return (digitsValue ds, 0, rest)

/-- The key that a text names. -/
def sortKey? (general : Comparison) (text : String) : Except String SortKey := do
  let start := text.toList.takeWhile (· ≠ ',')
  let finish := (text.toList.drop start.length).drop 1
  let position (place : String) (s : List Char) : Except String (Nat × Nat × List Char) :=
    (keyPosition s).mapError fun m =>
      "invalid number " ++ place ++ m ++ quoted (String.ofList s)
  let (f, c, letters) ← position "at field start" start
  if f = 0 then throw ("-: invalid field specification " ++ quoted text)
  let (endField, endChar, more) ←
    if finish.isEmpty then pure (none, 0, [])
    else do
      let (f, c, more) ← position "after ','" finish
      pure (some f, c, more)
  let own := Comparison.ofLetters (letters ++ more)
  return ⟨f, max c 1, endField, endChar, if own.isDefault then general else own⟩

/-- How lines are sorted. -/
structure Sorting where
  general : Comparison
  keys : List SortKey
  separator : Option Char
  isStable : Bool
  isUnique : Bool

namespace Sorting

/-- The order of two lines by the keys. -/
def byKeys (s : Sorting) (a b : List Char) : Ordering :=
  s.keys.foldl (fun o k =>
    o.then (k.comparison.order (k.part s.separator a) (k.part s.separator b))) .eq

/-- The order of two lines as wholes. -/
def byBytes (s : Sorting) (a b : List Char) : Ordering :=
  let o := compare (String.ofList a) (String.ofList b)
  if s.general.isReversed then o.swap else o

/-- The order of two lines. Lines with equal keys are compared as wholes, if that may be. -/
def order (s : Sorting) (a b : List Char) : Ordering :=
  if s.keys.isEmpty then s.byBytes a b
  else if s.isStable || s.isUnique then s.byKeys a b
  else (s.byKeys a b).then (s.byBytes a b)

/-- The lines in their order. -/
def sorted (s : Sorting) (lines : List (List Char)) : List (List Char) :=
  let all := lines.mergeSort fun a b => s.order a b != .gt
  if s.isUnique then
    (all.foldl (fun (acc : List (List Char)) l =>
      match acc with
      | p :: _ => if s.order p l == .eq then acc else l :: acc
      | [] => [l]) []).reverse
  else all

/-- The number and text of the first line that is out of order. -/
def disorder? (s : Sorting) (lines : List (List Char)) : Option (Nat × List Char) :=
  let isWrong (a b : List Char) : Bool :=
    match s.order a b with
    | .gt => true
    | .eq => s.isUnique
    | .lt => false
  ((lines.zip (lines.drop 1)).zipIdx.find? fun ((a, b), _) => isWrong a b).map
    fun ((_, b), i) => (i + 2, b)

/-- The sorting that options ask for. -/
def ofGiven (g : Given) : Except String Sorting := do
  let letters := (g.options.map (·.1)).flatMap (·.toList)
  let general := Comparison.ofLetters (letters.filter fun c => "bdfghnr".toList.contains c)
  let keys ← (g.values "k").mapM (sortKey? general)
  let separator ← match (g.value? "t").map (·.toList) with
    | none => pure none
    | some [] => throw "empty tab"
    | some [c] => pure (some c)
    | some ['\\', '0'] => pure (some '\x00')
    | some cs => throw ("multi-character tab " ++ quoted (String.ofList cs))
  let isPlain := { general with isReversed := false }.isDefault
  let keys := if keys.isEmpty ∧ !isPlain then [⟨1, 1, none, 0, general⟩] else keys
  return ⟨general, keys, separator, g.has "s", g.has "u"⟩

end Sorting

/-- The texts of files as one, each with a line break at its end; or what cannot be read. -/
def joinedTexts (paths : List String) : Work (Except String (List Char)) :=
  paths.foldlM (fun (acc : Except String (List Char)) path => do
    match acc with
    | .error m => return .error m
    | .ok s =>
      match ← textOf path with
      | .ok t =>
        return .ok (s ++ if t.isEmpty ∨ t.getLast? = some '\n' then t else t ++ ['\n'])
      | .error .isDirectory =>
        return .error ("read failed: " ++ bare path ++ ": " ++ IoError.isDirectory.reason)
      | .error e => return .error ("cannot read: " ++ bare path ++ ": " ++ e.reason)) (.ok [])

/-- Sorts lines. -/
def sort : Utility := withOptions ⟨"bdfgiMhnrRsVzmuco:k:t:S:T:C", [("reverse", "r", .nothing),
    ("numeric-sort", "n", .nothing), ("unique", "u", .nothing), ("ignore-case", "f", .nothing),
    ("ignore-leading-blanks", "b", .nothing), ("key", "k", .required), ("output", "o", .required),
    ("field-separator", "t", .required), ("stable", "s", .nothing), ("check", "c", .optional),
    ("merge", "m", .nothing), ("dictionary-order", "d", .nothing)]⟩ true 2 fun _ name g => do
  let fault (message : String) : Work ExitStatus := do
    Work.complain (name ++ ": " ++ message)
    return .code 2
  let paths := if g.operands.isEmpty then ["-"] else g.operands
  match Sorting.ofGiven g with
  | .error message => fault message
  | .ok sorting =>
    match ← joinedTexts paths with
    | .error message => fault message
    | .ok text =>
      let lines := (Octets.lines text).1
      if g.has "c" ∨ g.has "C" then
        match sorting.disorder? lines with
        | none => return .code 0
        | some (n, line) =>
          unless g.has "C" do
            Work.complain (name ++ ": " ++ paths.headD "-" ++ ":" ++ toString n ++
              ": disorder: " ++ String.ofList line)
          return .code 1
      else
        let out := (sorting.sorted lines).flatMap fun l => l ++ ['\n']
        match g.value? "o" with
        | none =>
          Work.put out
          return .code 0
        | some path =>
          match ← Work.writeFile path out with
          | .ok () => return .code 0
          | .error e => fault ("open failed: " ++ bare path ++ ": " ++ e.reason)

/-! ## Rows of equal lines -/

/-- Rows of elements that have the same key: the first of each with the number of all. -/
def rows [BEq κ] (key : α → κ) (xs : List α) : List (α × Nat) :=
  (xs.foldl (fun (acc : List (α × Nat)) x =>
    match acc with
    | (first, n) :: rest =>
      if key first == key x then (first, n + 1) :: rest else (x, 1) :: acc
    | [] => [(x, 1)]) []).reverse

/-- Writes one line of each row of equal lines. -/
def uniq : Utility := withOptions ⟨"cdDuif:s:w:z", [("count", "c", .nothing),
    ("repeated", "d", .nothing), ("unique", "u", .nothing), ("ignore-case", "i", .nothing),
    ("skip-fields", "f", .required), ("skip-chars", "s", .required),
    ("check-chars", "w", .required)]⟩ true 1 fun _ name g => do
  match g.operands with
  | _ :: _ :: extra :: _ => misuse name 1 ("extra operand " ++ quoted extra)
  | operands =>
    let path := operands.headD "-"
    match ← textOf path with
    | .error .isDirectory =>
      return .code (← complaint name ("error reading " ++ named path ++ ": " ++
        IoError.isDirectory.reason))
    | .error e => return .code (← complaint name (bare path ++ ": " ++ e.reason))
    | .ok s =>
      let isBlank (c : Char) : Bool := c = ' ' || c = '\t'
      let withoutField (l : List Char) : List Char := (l.dropWhile isBlank).dropWhile (!isBlank ·)
      let number (key : String) (none : Nat) : Nat := ((g.value? key).bind natural?).getD none
      let key (l : List Char) : List Char :=
        let l := (List.range (number "f" 0)).foldl (fun l _ => withoutField l) l
        let l := (l.drop (number "s" 0)).take (number "w" l.length)
        if g.has "i" then l.map Char.toLower else l
      let kept := (rows key (Octets.lines s).1).filter fun r =>
        (!g.has "d" || 1 < r.2) && (!g.has "u" || r.2 = 1)
      let out := kept.flatMap fun (l, n) =>
        (if g.has "c" then
          let ds := Nat.toDigits 10 n
          List.replicate (7 - ds.length) ' ' ++ ds ++ [' ']
        else []) ++ l ++ ['\n']
      match operands.drop 1 with
      | target :: _ =>
        match ← Work.writeFile target out with
        | .ok () => return .code 0
        | .error e => return .code (← complaint name (bare target ++ ": " ++ e.reason))
      | [] =>
        Work.put out
        return .code 0

end ServiceCall.Shell.Utility
