import ServiceCall.Number.Literal
/-!
# Patterns and fields

Characters that know whether they were quoted: as patterns, and as rows that are cut into fields.
-/

namespace ServiceCall.Shell

/-! ## Patterns

A pattern is a text in which unquoted stars, question marks and brackets stand for other
characters. `Pattern.isMatch` compares one with a whole text.
-/

/-- A character of an expanded word, and whether it stands for itself. -/
abbrev Marked := Char × Bool

/-- The characters of a text, none of which stands for itself only. -/
def unmarked (s : List Char) : List Marked := s.map fun c => (c, false)

namespace Pattern

/-- The characters that a bracket lists. -/
inductive Listed where
  | range (low high : Char)
  | named (name : String)
  deriving DecidableEq, Repr

/-- A step of a pattern. -/
inductive Step where
  | any
  | one
  | exactly (c : Char)
  | among (isNegated : Bool) (listed : List Listed)
  deriving DecidableEq, Repr

/-- The character belongs to a class of ASCII characters. -/
def isNamed (name : String) (c : Char) : Bool :=
  match name with
  | "alpha" => c.isAlpha
  | "digit" => isDigit c
  | "alnum" => c.isAlphanum
  | "upper" => c.isUpper
  | "lower" => c.isLower
  | "space" => " \t\n\x0b\x0c\r".toList.contains c
  | "blank" => c = ' ' || c = '\t'
  | "punct" => '!' ≤ c && c ≤ '~' && !c.isAlphanum
  | "xdigit" => isDigit c || ('a' ≤ c && c ≤ 'f') || ('A' ≤ c && c ≤ 'F')
  | "cntrl" => c < ' ' || c = '\x7f'
  | "print" => ' ' ≤ c && c ≤ '~'
  | "graph" => '!' ≤ c && c ≤ '~'
  | _ => false

def Listed.holds (c : Char) : Listed → Bool
  | range low high => low ≤ c && c ≤ high
  | named name => isNamed name c

/-- The names of the classes. -/
def classNames : List String :=
  ["alpha", "digit", "alnum", "upper", "lower", "space", "blank", "punct", "xdigit", "cntrl",
    "print", "graph"]

/-- A named class between colons, after an opening bracket. -/
def namedClass? (p : List Marked) : Option (String × List Marked) :=
  match p with
  | (':', _) :: rest =>
    let name := String.ofList ((rest.takeWhile fun m => m.1.isAlpha).map (·.1))
    match rest.dropWhile fun m => m.1.isAlpha with
    | (':', _) :: (']', _) :: rest =>
      if classNames.contains name then some (name, rest) else none
    | _ => none
  | _ => none

/-- What a bracket lists, up to the one that closes it; the first character is never that. -/
def listed : Nat → Bool → List Marked → Option (List Listed × List Marked)
  | 0, _, _ => none
  | _ + 1, _, [] => none
  | fuel + 1, isFirst, (c, q) :: rest =>
    if c = ']' ∧ !q ∧ !isFirst then some ([], rest)
    else
      let named? := if c = '[' ∧ !q then namedClass? rest else none
      match named? with
      | some (name, rest) => do
        let (ls, rest) ← listed fuel false rest
        return (.named name :: ls, rest)
      | none =>
        match rest with
        | ('-', false) :: (d, r) :: rest' =>
          if d = ']' ∧ !r then do
            let (ls, rest) ← listed fuel false rest
            return (.range c c :: ls, rest)
          else do
            let (ls, rest) ← listed fuel false rest'
            return (.range c d :: ls, rest)
        | _ => do
          let (ls, rest) ← listed fuel false rest
          return (.range c c :: ls, rest)

/-- The steps of a pattern. A bracket that nothing closes stands for itself. -/
def steps : Nat → List Marked → List Step
  | 0, _ => []
  | _ + 1, [] => []
  | fuel + 1, (c, q) :: rest =>
    if q then .exactly c :: steps fuel rest
    else if c = '*' then .any :: steps fuel rest
    else if c = '?' then .one :: steps fuel rest
    else if c = '[' then
      let (isNegated, inside) := match rest with
        | ('!', false) :: inside => (true, inside)
        | inside => (false, inside)
      match listed (inside.length + 1) true inside with
      | some (ls, rest) => .among isNegated ls :: steps fuel rest
      | none => .exactly c :: steps fuel rest
    else .exactly c :: steps fuel rest

/-- The steps of a text in which some characters are marked as standing for themselves. -/
def ofMarked (p : List Marked) : List Step := steps (p.length + 1) p

/-- The character fits a step that is no star. -/
def Step.fits (c : Char) : Step → Bool
  | any | one => true
  | exactly d => c = d
  | among isNegated listed => listed.any (·.holds c) != isNegated

/-- The text fits the steps as a whole. -/
def fits : List Step → List Char → Bool
  | [], s => s.isEmpty
  | .any :: p, s => fits p s || anyTail p s
  | _ :: _, [] => false
  | step :: p, c :: s => step.fits c && fits p s
where
  anyTail (p : List Step) : List Char → Bool
    | [] => false
    | _ :: s => fits p s || anyTail p s

/-- A star alone fits every text. -/
theorem fits_any (s : List Char) : fits [.any] s = true := by
  have tail : ∀ s : List Char, (s.isEmpty || fits.anyTail [] s) = true := by
    intro s
    induction s with
    | nil => simp
    | cons c s ih => simpa [fits.anyTail, fits] using ih
  simpa [fits] using tail s

/-- The text matches the pattern as a whole. -/
def isMatch (p : List Marked) (s : List Char) : Bool := fits (ofMarked p) s

/-- Some character of the pattern may stand for others. -/
def isMagic (p : List Marked) : Bool :=
  (ofMarked p).any fun
    | .exactly _ => false
    | _ => true

/-- The text without its shortest part at the start that fits, among the given sizes. -/
def cutStart (p : List Marked) (sizes : List Nat) (s : List Char) : List Char :=
  let steps := ofMarked p
  match sizes.find? fun n => fits steps (s.take n) with
  | some n => s.drop n
  | none => s

/-- The text without its part at the end that fits, the sizes of what is left tried in turn. -/
def cutEnd (p : List Marked) (sizes : List Nat) (s : List Char) : List Char :=
  let steps := ofMarked p
  match sizes.find? fun n => fits steps (s.drop n) with
  | some n => s.take n
  | none => s

end Pattern

/-! ## Fields

What a word expands to is a row of glyphs: characters that know whether they were quoted
and whether they may separate fields, and signs between them. `Glyph.fields` cuts a row
into fields at the separators that are in force.
-/

/-- A part of an expanded word. -/
inductive Glyph where
  | char (c : Char) (isQuoted separates : Bool)
  /-- Keeps a field that holds nothing else. -/
  | keep
  /-- The border between two fields. -/
  | border
  /-- Where the text of an expansion starts. -/
  | seam
  deriving DecidableEq, Repr

namespace Glyph

/-- The glyphs of a text that stands in the command itself. -/
def ofLiteral (isQuoted : Bool) (s : String) : List Glyph :=
  if isQuoted ∧ s.isEmpty then [keep] else s.toList.map fun c => char c isQuoted false

/-- The glyphs of the text of an expansion. -/
def ofValue (isQuoted : Bool) (s : String) : List Glyph :=
  if isQuoted then s.toList.map fun c => char c true false
  else seam :: s.toList.map fun c => char c false true

/-- The characters of a row, marked if they stand for themselves. -/
def marked (gs : List Glyph) : List Marked :=
  gs.filterMap fun
    | char c q _ => some (c, q)
    | border => some (' ', true)
    | keep | seam => none

/-- The text of a row. -/
def text (gs : List Glyph) : String := String.ofList ((marked gs).map (·.1))

/-- The separators when none are set. -/
def blanks : List Char := [' ', '\t', '\n']

/-- Where the cutting into fields stands. -/
structure Cut where
  /-- The fields so far and the one under way, each with the last first. -/
  done : List (List Marked)
  current : List Marked
  /-- The field under way is to be kept even without characters. -/
  isKept : Bool
  /-- Separators are being passed over; whether one that is no blank may still be. -/
  passing : Option Bool

namespace Cut

def start : Cut := ⟨[], [], false, none⟩

/-- Ends the field under way. -/
def finish (s : Cut) : Cut :=
  { s with done := s.current.reverse :: s.done, current := [], isKept := false }

/-- The field under way has nothing in it. -/
def isEmpty (s : Cut) : Bool := s.current.isEmpty && !s.isKept

/-- Meets a separator that no other one precedes. -/
def separate (s : Cut) (isBlank : Bool) : Cut :=
  if s.isEmpty ∧ isBlank then s else { s.finish with passing := some isBlank }

/-- One glyph further. -/
def step (separators : List Char) (s : Cut) : Glyph → Cut
  | .keep => { s with isKept := true, passing := none }
  | .seam => { s with passing := none }
  | .border => { s.finish with passing := none }
  | .char c q separates =>
    if separates && separators.contains c then
      let isBlank := c = '\x00' || blanks.contains c
      match s.passing with
      | none => s.separate isBlank
      | some mayPass =>
        if isBlank then s
        else if mayPass then { s with passing := some false }
        else { s with passing := none }.separate isBlank
    else { s with current := (c, q) :: s.current, passing := none }

/-- The fields. -/
def fields (s : Cut) : List (List Marked) :=
  (if s.isEmpty then s else s.finish).done.reverse

end Cut

/-- The fields of a row. -/
def fields (separators : List Char) (gs : List Glyph) : List (List Marked) :=
  (gs.foldl (Cut.step separators) Cut.start).fields

end Glyph

end ServiceCall.Shell
