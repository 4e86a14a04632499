import ServiceCall.Shell.Pattern
import ServiceCall.Shell.Print
import ServiceCall.Shell.Utility.Path
/-!
# Parts of lines and single characters

Bytes and fields cut out of lines, and characters replaced, deleted and squeezed.
-/

namespace ServiceCall.Shell.Utility

/-! ## Parts of lines -/

/-- A row of positions; without an end it goes on. -/
structure Span where
  first : Nat
  last : Option Nat

def Span.contains (r : Span) (n : Nat) : Bool :=
  r.first ≤ n && (match r.last with
    | some last => n ≤ last
    | none => true)

/-- One range of a list of positions. -/
def span? (isFields : Bool) (text : String) : Except String Span := do
  let invalid : Except String Span :=
    throw ("invalid " ++ (if isFields then "field value " else "byte/character position ") ++
      quoted text)
  let zero : Except String Span :=
    throw (if isFields then "fields are numbered from 1"
      else "byte/character positions are numbered from 1")
  let first := text.toList.takeWhile isDigit
  let rest := text.toList.drop first.length
  match rest with
  | [] =>
    if first.isEmpty ∨ digitsValue first = 0 then zero
    else return ⟨digitsValue first, some (digitsValue first)⟩
  | '-' :: last =>
    if !last.all isDigit then invalid
    else if first.isEmpty ∧ last.isEmpty then throw "invalid range with no endpoint: -"
    else
      let low := if first.isEmpty then 1 else digitsValue first
      if low = 0 then zero
      else if last.isEmpty then return ⟨low, none⟩
      else if digitsValue last < low then throw "invalid decreasing range"
      else return ⟨low, some (digitsValue last)⟩
  | _ => invalid

/-- The parts of a line between separators. -/
def splitAt (separator : Char) (line : List Char) : List (List Char) :=
  line.foldr (fun c acc =>
    if c = separator then [] :: acc
    else match acc with
      | [] => [[c]]
      | part :: parts => (c :: part) :: parts) [[]]

/-- What is cut out of lines. -/
structure Cutting where
  isFields : Bool
  isChosen : Nat → Bool
  separator : Char
  joint : List Char
  /-- Lines without a separator are left out. -/
  skipsOthers : Bool

/-- What is left of a line. -/
def Cutting.cut (k : Cutting) (line : List Char) : Option (List Char) :=
  let chosen (xs : List (List Char)) : List (List Char) :=
    (xs.zipIdx.filter fun (_, i) => k.isChosen (i + 1)).map (·.1)
  if k.isFields then
    let fields := splitAt k.separator line
    if fields.length ≤ 1 then (if k.skipsOthers then none else some line)
    else some (k.joint.intercalate (chosen fields))
  else some (chosen (line.map fun c => [c])).flatten

/-- What options ask to cut out. -/
def cutting (g : Given) : Except String Cutting := do
  let lists := g.options.filter fun o => ["b", "c", "f"].contains o.1
  match lists with
  | [] => throw "you must specify a list of bytes, characters, or fields"
  | _ :: _ :: _ => throw "only one list may be specified"
  | [(key, value)] =>
    let isFields := key = "f"
    let separator ← match (g.value? "d").map (·.toList) with
      | none => pure '\t'
      | some [] => pure '\x00'
      | some [c] => pure c
      | some _ => throw "the delimiter must be a single character"
    if !isFields ∧ g.has "d" then
      throw "an input delimiter may be specified only when operating on fields"
    if !isFields ∧ g.has "s" then
      throw ("suppressing non-delimited lines makes sense\n\tonly when operating on fields")
    let spans ← ((splitAt ',' value.toList).map String.ofList).mapM (span? isFields)
    let joint := (g.value? "output-delimiter").map (·.toList)
    return ⟨isFields, fun n => spans.any (·.contains n) != g.has "complement", separator,
      joint.getD (if isFields then [separator] else []), g.has "s"⟩

/-- Cuts parts out of lines. -/
def cut : Utility := withOptions ⟨"b:c:d:f:nsz", [("bytes", "b", .required),
    ("characters", "c", .required), ("delimiter", "d", .required), ("fields", "f", .required),
    ("only-delimited", "s", .nothing), ("complement", "complement", .nothing),
    ("output-delimiter", "output-delimiter", .required)]⟩ true 1 fun _ name g => do
  match cutting g with
  | .error message => misuse name 1 message
  | .ok k =>
    let (status, ts) ← texts name g.operands
    for (_, s) in ts do
      for line in (Octets.lines s).1 do
        if let some rest := k.cut line then Work.put (rest ++ ['\n'])
    return .code status

/-! ## Single characters -/

/-- A character, a backslash and what follows it standing for one. -/
def setChar (s : List Char) : Option (Char × Bool × List Char) :=
  match s with
  | [] => none
  | ['\\'] => some ('\\', false, [])
  | '\\' :: c :: rest =>
    if Print.isOctal c then
      let (d, rest) := Print.octal 3 (c :: rest)
      some (d, true, rest)
    else match if c = 'e' then none else Print.letter? c with
      | some d => some (d, true, rest)
      | none => some (c, true, rest)
  | c :: rest => some (c, false, rest)

/-- All characters of one byte. -/
def allChars : List Char := (List.range 256).map Char.ofNat

/-- A construct in brackets at the start of a set, with the text behind it. -/
inductive Construct where
  | named (name : String)
  | repeated (c : Char) (count : List Char)
  deriving DecidableEq, Repr

/-- The construct that a text starts with. -/
def construct? (s : List Char) : Option (Construct × List Char) :=
  match s with
  | '[' :: ':' :: rest =>
    let name := rest.takeWhile (· ≠ ':')
    match rest.drop name.length with
    | ':' :: ']' :: rest => some (.named (String.ofList name), rest)
    | _ => none
  | '[' :: '=' :: c :: '=' :: ']' :: rest => some (.repeated c ['1'], rest)
  | '[' :: rest =>
    match setChar rest with
    | some (c, _, '*' :: rest) =>
      let count := rest.takeWhile isDigit
      match rest.drop count.length with
      | ']' :: rest => some (.repeated c count, rest)
      | _ => none
    | _ => none
  | _ => none

/-- The characters of a set, in order; a repetition without a count fills it up to a length. -/
def charSet (length : Nat) : Nat → List Char → Except String (List Char)
  | 0, _ => .ok []
  | fuel + 1, s =>
    match construct? s with
    | some (.named name, rest) => do
      if Pattern.classNames.contains name then
        return allChars.filter (Pattern.isNamed name) ++ (← charSet length fuel rest)
      else throw ("invalid character class " ++ quoted name)
    | some (.repeated c count, rest) => do
      let rest ← charSet length fuel rest
      let base := if count.head? = some '0' then 8 else 10
      let n := Arithmetic.value base count
      return List.replicate (if n = 0 then length - rest.length else n) c ++ rest
    | none =>
      match setChar s with
      | none => .ok []
      | some (c, _, rest) =>
        let lone : Except String (List Char) := do return c :: (← charSet length fuel rest)
        match rest with
        | '-' :: after =>
          match setChar after with
          | none => lone
          | some (d, _, more) => do
            if d < c then
              throw ("range-endpoints of " ++ quoted (String.ofList (c :: '-' :: [d])) ++
                " are in reverse collating sequence order")
            return allChars.filter (fun x => c ≤ x && x ≤ d) ++ (← charSet length fuel more)
        | _ => lone

/-- The text with one character in place of each row of one of some characters. -/
def squeezed (set : List Char) (s : List Char) : List Char :=
  (s.foldl (fun (acc : List Char) c =>
    if acc.head? = some c ∧ set.contains c then acc else c :: acc) []).reverse

/-- What is done to the characters of a text. -/
def transliteration (g : Given) : Except String (List Char → List Char) := do
  let set (length : Nat) (s : String) : Except String (List Char) :=
    charSet length (s.length + 1) s.toList
  let complements := g.has "c" || g.has "C"
  let first ← set 0 (g.operands.headD "")
  let first := if complements then allChars.filter (!first.contains ·) else first
  let delete (s : List Char) : List Char := s.filter (!first.contains ·)
  match g.operands.drop 1 with
  | [] =>
    if g.has "d" then return delete else return squeezed first
  | second :: _ =>
    let second ← set first.length second
    if g.has "d" then return fun s => squeezed second (delete s)
    else if second.isEmpty ∧ !g.has "t" then
      throw "when not truncating set1, string2 must be non-empty"
    else
      let first := if g.has "t" then first.take second.length else first
      let last := second.getLast?.getD '\x00'
      let pairs := (first.zip (second ++
        List.replicate (first.length - second.length) last)).reverse
      let translate (c : Char) : Char := (pairs.lookup c).getD c
      return fun s =>
        let s := s.map translate
        if g.has "s" then squeezed second s else s

/-- Replaces, deletes and squeezes characters. -/
def tr : Utility := withOptions ⟨"cCdst", [("complement", "c", .nothing), ("delete", "d", .nothing),
    ("squeeze-repeats", "s", .nothing), ("truncate-set1", "t", .nothing)]⟩ false 1
  fun _ name g => do
    let least := if g.has "d" = g.has "s" then 2 else 1
    let most := if g.has "d" ∧ !g.has "s" then 1 else 2
    let explained (message explanation : String) : Work ExitStatus := do
      Work.complain (name ++ ": " ++ message)
      Work.complain explanation
      tryHelp name
      return .code 1
    match g.operands with
    | [] => misuse name 1 "missing operand"
    | operands =>
      if operands.length < least then
        explained ("missing operand after " ++ quoted (operands.headD ""))
          (if g.has "d" then "Two strings must be given when both deleting and squeezing repeats."
            else "Two strings must be given when translating.")
      else if most < operands.length then
        let extra := "extra operand " ++ quoted ((operands[most]?).getD "")
        if most = 1 ∧ operands.length = 2 then
          explained extra "Only one string may be given when deleting without squeezing repeats."
        else misuse name 1 extra
      else match transliteration g with
        | .error message =>
          Work.complain (name ++ ": " ++ message)
          return .code 1
        | .ok f =>
          match ← Work.takeInput with
          | .error e => return .code (← complaint name ("read error: " ++ e.reason))
          | .ok s =>
            Work.put (f s)
            return .code 0

end ServiceCall.Shell.Utility
