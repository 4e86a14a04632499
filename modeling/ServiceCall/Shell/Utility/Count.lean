import ServiceCall.Shell.Print
import ServiceCall.Shell.Utility.Show
/-!
# Counting

The lines, words and bytes of files, and rows of numbers.
-/

namespace ServiceCall.Shell.Utility

/-- What is counted in a text. -/
structure Counts where
  lines : Nat
  words : Nat
  bytes : Nat
  /-- The width of the widest line. -/
  width : Nat

namespace Counts

def zero : Counts := ⟨0, 0, 0, 0⟩

/-- The counts of two texts together. -/
def plus (a b : Counts) : Counts :=
  ⟨a.lines + b.lines, a.words + b.words, a.bytes + b.bytes, max a.width b.width⟩

/-- How many words a text has. -/
def countWords : Bool → List Char → Nat
  | _, [] => 0
  | isInside, c :: rest =>
    let isSpace := Arithmetic.isWhite c
    (if !isSpace ∧ !isInside then 1 else 0) + countWords (!isSpace) rest

/-- How wide a line is: a tab leads to the next multiple of eight. -/
def lineWidth (line : List Char) : Nat :=
  line.foldl (fun n c =>
    if c = '\t' then (n / 8 + 1) * 8 else if ' ' ≤ c ∧ c ≤ '~' then n + 1 else n) 0

/-- The counts of a text. -/
def ofText (s : List Char) : Counts where
  lines := s.count '\n'
  words := countWords false s
  bytes := s.length
  width := ((Octets.lines s).1.map lineWidth).foldl max 0

/-- The counts that options ask for. -/
def chosen (g : Given) (c : Counts) : List Nat :=
  let isAny := ["l", "w", "c", "m", "L"].any g.has
  let pick (isAsked : Bool) (n : Nat) : List Nat := if isAsked then [n] else []
  pick (g.has "l" || !isAny) c.lines ++ pick (g.has "w" || !isAny) c.words ++
    pick (g.has "m") c.bytes ++ pick (g.has "c" || !isAny) c.bytes ++ pick (g.has "L") c.width

end Counts

/-- Counts the lines, words and bytes of files. -/
def wc : Utility := plain ⟨"clLmw", [("bytes", "c", .nothing), ("chars", "m", .nothing),
    ("lines", "l", .nothing), ("words", "w", .nothing),
    ("max-line-length", "L", .nothing)]⟩ fun name g => do
  let paths := if g.operands.isEmpty then ["-"] else g.operands
  let d := (← get).disk
  -- columns are as wide as the sizes of the files may need
  let sizes : List (Option Nat) := paths.filterMap fun p =>
    if p = "-" then some none
    else match d.entry p with
      | .ok (.file content _) => some (some content.length)
      | .ok _ => some none
      | .error _ => none
  let sum := (sizes.filterMap id).foldl (· + ·) 0
  let isLone := paths.length = 1 ∧ (Counts.zero.chosen g).length = 1
  let width := if isLone then 1
    else max (toString sum).length (if sizes.any (·.isNone) then 7 else 1)
  let row (c : Counts) (label : String) : Work Unit :=
    Work.put ([' '].intercalate ((c.chosen g).map (column width)) ++
      (if label.isEmpty then [] else ' ' :: label.toList) ++ ['\n'])
  let (status, total) ← paths.foldlM (fun (status, total) path => do
    let label := if g.operands.isEmpty then "" else path
    match ← textOf path with
    | .ok s =>
      let c := Counts.ofText s
      row c label
      return (status, total.plus c)
    | .error e =>
      let n ← complaint name (bare path ++ ": " ++ e.reason)
      if e = .isDirectory then row .zero label
      return (n, total)) (0, Counts.zero)
  if 1 < paths.length then row total "total"
  return status

/-! ## Rows of numbers -/

/-- A decimal number: how many units of a power of ten, and how many places that has. -/
structure Decimal where
  units : Int
  places : Nat

namespace Decimal

/-- The decimal number that a text is. -/
def ofText? (s : String) : Option Decimal :=
  let (isNegative, s) := Print.signed s.toList
  let whole := s.takeWhile isDigit
  let (fraction, rest) := match s.drop whole.length with
    | '.' :: rest => (rest.takeWhile isDigit, rest.dropWhile isDigit)
    | rest => ([], rest)
  if (whole.isEmpty ∧ fraction.isEmpty) ∨ !rest.isEmpty then none
  else
    let n : Int := digitsValue (whole ++ fraction)
    some ⟨if isNegative then -n else n, fraction.length⟩

/-- The number in units with more places. -/
def scaled (d : Decimal) (places : Nat) : Int := d.units * Int.pow 10 (places - d.places)

/-- The text of a number of units, filled up with zeros to a width. -/
def text (places width : Nat) (n : Int) : String :=
  let ds := Nat.toDigits 10 n.natAbs
  let ds := List.replicate (places + 1 - ds.length) '0' ++ ds
  let body := if places = 0 then ds
    else ds.take (ds.length - places) ++ '.' :: ds.drop (ds.length - places)
  let sign := if n < 0 then ['-'] else []
  String.ofList (sign ++ List.replicate (width - sign.length - body.length) '0' ++ body)

end Decimal

/-- A bound on the length of a row of numbers. -/
def rowLimit : Nat := 100000

/-- Writes a row of numbers. -/
def seq : Utility := fun start args =>
  -- what looks like an option can be a number
  let isNumber (a : String) : Bool := (Decimal.ofText? a).isSome
  let args := match args.span fun a => !isNumber a with
    | (before, rest) => if rest.isEmpty then args else before ++ "--" :: rest
  withOptions ⟨"f:s:w", [("separator", "s", .required), ("equal-width", "w", .nothing),
      ("format", "f", .required)]⟩ false 1 (fun _ name g => do
    match g.operands with
    | [] => misuse name 1 "missing operand"
    | _ :: _ :: _ :: extra :: _ => misuse name 1 ("extra operand " ++ quoted extra)
    | operands =>
      match operands.find? fun a => !isNumber a with
      | some a => misuse name 1 ("invalid floating point argument: " ++ quoted a)
      | none =>
        let ds := operands.filterMap Decimal.ofText?
        let one : Decimal := ⟨1, 0⟩
        let (first, step, last) := match ds with
          | [last] => (one, one, last)
          | [first, last] => (first, one, last)
          | [first, step, last] => (first, step, last)
          | _ => (one, one, one)
        let places := max first.places step.places
        let wide := max places last.places
        let a := first.scaled wide
        let s := step.scaled wide
        let b := last.scaled wide
        if s = 0 then
          misuse name 1 ("invalid Zero increment value: " ++ quoted ((operands[1]?).getD ""))
        else
          let count := if 0 < s then (if b < a then 0 else ((b - a) / s).toNat + 1)
            else (if a < b then 0 else ((a - b) / (-s)).toNat + 1)
          let numbers : List Int := (List.range (min count rowLimit)).map fun (i : Nat) =>
            (a + s * (i : Int)) / Int.pow 10 (wide - places)
          let width := if g.has "w" then
              (numbers.map fun n => (Decimal.text places 0 n).length).foldl max 0
            else 0
          let shown := numbers.map (Decimal.text places width)
          unless shown.isEmpty do
            Work.say (((g.value? "s").getD "\n").intercalate shown)
          return .code 0) start args

end ServiceCall.Shell.Utility
