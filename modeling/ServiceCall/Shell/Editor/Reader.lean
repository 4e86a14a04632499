import ServiceCall.Shell.Editor.Basic
import ServiceCall.Shell.Print
import ServiceCall.Shell.Regex
/-!
# Reading editor scripts

The reader takes one character after another; what is wrong with a script is told with the
number of characters that had been taken.
-/

namespace ServiceCall.Shell.Editor

/-- What is wrong with a script, and how much of it was left. -/
structure Misreading where
  left : Nat
  message : String
  deriving Repr

/-- A step of the reader over the rest of a script. -/
abbrev Reading := StateT (List Char) (Except Misreading)

namespace Reading

def fail (message : String) : Reading α := do
  throw ⟨(← get).length, message⟩

def peek : Reading (Option Char) := return (← get).head?

/-- Takes the next character. -/
def next : Reading (Option Char) := modifyGet fun s => (s.head?, s.drop 1)

/-- Takes the characters that fit. -/
def takeWhile (fits : Char → Bool) : Reading (List Char) :=
  modifyGet fun s => (s.takeWhile fits, s.dropWhile fits)

def skipBlanks : Reading Unit := do
  let _ ← takeWhile Arithmetic.isWhite

/-- The number that comes next. -/
def number : Reading Nat := return digitsValue (← takeWhile isDigit)

/-- Takes the next character if it is a certain one. -/
def mark (c : Char) : Reading Bool := do
  if (← peek) = some c then
    let _ ← next
    return true
  else return false

/-! ## Texts between delimiters -/

/-- The text of a bracket up to its end, the opening character taken. -/
def bracketText : Nat → List Char → List Char × List Char
  | 0, s => ([], s)
  | _ + 1, [] => ([], [])
  | fuel + 1, '[' :: c :: rest =>
    if c = ':' ∨ c = '.' ∨ c = '=' then
      let inside := rest.takeWhile (· ≠ c)
      let (t, s) := bracketText fuel (rest.drop (inside.length + 1))
      ('[' :: c :: inside ++ c :: t, s)
    else
      let (t, s) := bracketText fuel (c :: rest)
      ('[' :: t, s)
  | _ + 1, ']' :: rest => ([']'], rest)
  | fuel + 1, '\\' :: 'n' :: rest =>
    let (t, s) := bracketText fuel rest
    ('\n' :: t, s)
  | fuel + 1, c :: rest =>
    let (t, s) := bracketText fuel rest
    (c :: t, s)

/-- A bracket whole; the first character inside is never its end. -/
def wholeBracket (s : List Char) : List Char × List Char :=
  let (lead, s) : List Char × List Char := match s with
    | '^' :: ']' :: s => (['^', ']'], s)
    | '^' :: s => (['^'], s)
    | ']' :: s => ([']'], s)
    | s => ([], s)
  let (t, s) := bracketText (s.length + 1) s
  ('[' :: lead ++ t, s)

/-- A text up to a delimiter, and the text behind it. A delimiter with a backslash stands for
itself. -/
def upTo (isRegex : Bool) (delimiter : Char) : Nat → List Char → Option (List Char × List Char)
  | 0, _ => none
  | _ + 1, [] => none
  | fuel + 1, c :: rest =>
    if c = delimiter then some ([], rest)
    else if c = '\\' then
      match rest with
      | [] => none
      | d :: rest =>
        (upTo isRegex delimiter fuel rest).map fun (t, s) =>
          if d = delimiter ∧ (isRegex ∨ d ≠ '&') then (d :: t, s)
          else if isRegex ∧ d = 'n' then ('\n' :: t, s)
          else (c :: d :: t, s)
    else if isRegex ∧ c = '[' then
      let (b, rest) := wholeBracket rest
      (upTo isRegex delimiter fuel rest).map fun (t, s) => (b ++ t, s)
    else (upTo isRegex delimiter fuel rest).map fun (t, s) => (c :: t, s)

/-- Takes a text up to a delimiter. -/
def delimited (isRegex : Bool) (delimiter : Char) (otherwise : String) :
    Reading (List Char) := do
  let s ← get
  match upTo isRegex delimiter (s.length + 1) s with
  | some (t, rest) =>
    set rest
    return t
  | none =>
    set ([] : List Char)
    fail otherwise

/-- A regular expression with letters for characters that cannot be seen. -/
def plainRegex : Nat → List Char → List Char
  | 0, s => s
  | _ + 1, [] => []
  | fuel + 1, '\\' :: c :: rest =>
    match if "tfvar".toList.contains c then Print.letter? c else none with
    | some d => d :: plainRegex fuel rest
    | none => '\\' :: c :: plainRegex fuel rest
  | fuel + 1, c :: rest => c :: plainRegex fuel rest

/-- The regular expression of a text; an empty text means the last one used. -/
def sought (d : Regex.Dialect) (text : List Char) (folds : Bool) : Reading Sought := do
  if text.isEmpty then return ⟨none, folds⟩
  else match Regex.ofText d (plainRegex (text.length + 1) text) with
    | .ok r => return ⟨some r, folds⟩
    | .error message => fail message

/-! ## Addresses -/

/-- An address, if one comes next. -/
def address (d : Regex.Dialect) : Reading (Option Address) := do
  let regex (delimiter : Char) : Reading (Option Address) := do
    let text ← delimited true delimiter "unterminated address regex"
    let flags ← takeWhile fun c => c = 'I' || c = 'M'
    return some (.holding (← sought d text (flags.contains 'I')))
  match ← peek with
  | some '$' =>
    let _ ← next
    return some .last
  | some '/' =>
    let _ ← next
    regex '/'
  | some '\\' =>
    let _ ← next
    match ← next with
    | some c => regex c
    | none => fail "unexpected \x60,'"
  | some c =>
    if isDigit c then
      let n ← number
      if ← mark '~' then return some (.every n (← number))
      else return some (.line n)
    else return none
  | none => return none

/-- Where a range ends. -/
def ending (d : Regex.Dialect) : Reading Ending := do
  if ← mark '+' then return .count (← number)
  else if ← mark '~' then return .multiple (← number)
  else match ← address d with
    | some a => return .address a
    | none =>
      let _ ← next
      fail "unexpected \x60,'"

/-- The lines a command is meant for. -/
def selection (d : Regex.Dialect) : Reading Selection := do
  let start ← address d
  skipBlanks
  let ending ← if start.isSome then
      if ← mark ',' then
        skipBlanks
        pure (some (← ending d))
      else pure none
    else pure none
  skipBlanks
  let isNegated ← mark '!'
  skipBlanks
  if isNegated then
    if ← mark '!' then fail "multiple \x60!'s"
  match start, ending with
  | some (.line 0), some (.address (.holding _)) => return ⟨start, ending, isNegated⟩
  | some (.line 0), _ => do
    let _ ← next
    fail "invalid usage of line address 0"
  | _, _ => return ⟨start, ending, isNegated⟩

/-! ## Commands -/

/-- The end of a command. -/
def endOfCommand : Reading Unit := do
  let _ ← takeWhile fun c => c = ' ' || c = '\t'
  match ← peek with
  | none => return ()
  | some c =>
    if c = '}' ∨ c = '#' then return ()
    else
      let _ ← next
      if c ≠ '\n' ∧ c ≠ ';' then fail "extra characters after command"

/-- A name up to the end of the line. -/
def restOfLine : Reading String := do
  let _ ← takeWhile fun c => c = ' ' || c = '\t'
  return String.ofList (← takeWhile (· ≠ '\n'))

/-- A label: up to the end of the line, or of the command. -/
def labelName : Reading String := do
  let _ ← takeWhile fun c => c = ' ' || c = '\t'
  return String.ofList (← takeWhile fun c => !(Arithmetic.isWhite c || c = ';' || c = '}'))

/-- The lines of a text, a backslash in front of each line break; other ones are left out. -/
def textLines : Nat → List Char → List Char × List Char
  | 0, s => ([], s)
  | _ + 1, [] => ([], [])
  | _ + 1, '\n' :: rest => ([], rest)
  | fuel + 1, '\\' :: c :: rest =>
    let (t, s) := textLines fuel rest
    (c :: t, s)
  | fuel + 1, c :: rest =>
    let (t, s) := textLines fuel rest
    (c :: t, s)

/-- Whether a backslash and a letter stand for a character that cannot be seen. -/
def withLetters : Nat → List Char → List Char
  | 0, s => s
  | _ + 1, [] => []
  | fuel + 1, '\\' :: c :: rest =>
    match if "nt".toList.contains c then Print.letter? c else none with
    | some d => if d = '\n' then '\\' :: d :: withLetters fuel rest else d :: withLetters fuel rest
    | none => '\\' :: c :: withLetters fuel rest
  | fuel + 1, c :: rest => c :: withLetters fuel rest

/-- The text of a command that adds lines. -/
def addedText : Reading (List Char) := do
  let _ ← takeWhile fun c => c = ' ' || c = '\t'
  let s ← get
  if s = ['\\'] then
    set ([] : List Char)
    return []
  let body : List Char ← match s with
    | [] => fail "expected \\ after \x60a', \x60c' or \x60i'"
    | '\\' :: rest =>
      match rest.dropWhile fun c => c = ' ' || c = '\t' with
      | '\n' :: after => pure after
      | _ => pure rest
    | s => pure s
  let body := withLetters (body.length + 1) body
  let (t, rest) := textLines (body.length + 1) body
  set rest
  return t ++ ['\n']

/-- The pieces of a replacement. -/
def pieces : Nat → List Char → List Piece
  | 0, _ => []
  | _ + 1, [] => []
  | fuel + 1, '&' :: rest => .group 0 :: pieces fuel rest
  | fuel + 1, '\\' :: c :: rest =>
    let rest := pieces fuel rest
    match c with
    | 'U' => .casing .upper :: rest
    | 'L' => .casing .lower :: rest
    | 'E' => .casing .plain :: rest
    | 'u' => .nextCasing .upper :: rest
    | 'l' => .nextCasing .lower :: rest
    | c =>
      if isDigit c then .group (c.toNat - '0'.toNat) :: rest
      else match if "afnrtv".toList.contains c then Print.letter? c else none with
        | some d => .text [d] :: rest
        | none => .text [c] :: rest
  | fuel + 1, c :: rest => .text [c] :: pieces fuel rest

/-- The flags of a substitution. -/
structure Flags where
  isGlobal : Bool
  prints : Bool
  folds : Bool
  number : Option Nat
  file : Option String

/-- Reads the flags of a substitution up to the end of the command. -/
def flags : Nat → Flags → Reading Flags
  | 0, f => return f
  | fuel + 1, f => do
    match ← peek with
    | none | some '}' | some '#' => return f
    | some c =>
      if isDigit c then
        let n ← number
        if n = 0 then fail "number option to \x60s' command may not be zero"
        if f.number.isSome then fail "multiple number options to \x60s' command"
        flags fuel { f with number := some n }
      else
        let _ ← next
        match c with
        | 'g' =>
          if f.isGlobal then fail "multiple \x60g' options to \x60s' command"
          flags fuel { f with isGlobal := true }
        | 'p' =>
          if f.prints then fail "multiple \x60p' options to \x60s' command"
          flags fuel { f with prints := true }
        | 'i' | 'I' => flags fuel { f with folds := true }
        | 'm' | 'M' | 'e' => flags fuel f
        | 'w' =>
          let path ← restOfLine
          if path.isEmpty then fail "missing filename in r/R/w/W commands"
          return { f with file := some path }
        | ' ' | '\t' => flags fuel f
        | '\n' | ';' => return f
        | _ => fail "unknown option to \x60s'"

/-- A substitution, its letter taken. -/
def substitution (d : Regex.Dialect) : Reading Substitution := do
  let unterminated := "unterminated \x60s' command"
  match ← next with
  | none => fail unterminated
  | some delimiter =>
    if delimiter = '\n' ∨ delimiter = '\\' then fail unterminated
    let regex ← delimited true delimiter unterminated
    let text ← delimited false delimiter unterminated
    let f ← flags ((← get).length + 1) ⟨false, false, false, none, none⟩
    let sought ← sought d regex f.folds
    let pieces := pieces (text.length + 1) text
    for piece in pieces do
      if let .group n := piece then
        if let some r := sought.regex? then
          if r.groups < n then
            fail ("invalid reference \\" ++ toString n ++ " on \x60s' command's RHS")
    return ⟨sought, pieces, f.number.getD 1, f.isGlobal, f.prints, f.file⟩

/-- The characters of a transliteration. -/
def plainChars (s : List Char) : List Char :=
  match s with
  | '\\' :: c :: rest => (if c = 'n' then '\n' else if c = 't' then '\t' else c) :: plainChars rest
  | c :: rest => c :: plainChars rest
  | [] => []

/-- A transliteration, its letter taken. -/
def transliteration : Reading (List (Char × Char)) := do
  let unterminated := "unterminated \x60y' command"
  match ← next with
  | none => fail unterminated
  | some delimiter =>
    let a := plainChars (← delimited false delimiter unterminated)
    let b := plainChars (← delimited false delimiter unterminated)
    if a.length ≠ b.length then fail "strings for \x60y' command are different lengths"
    endOfCommand
    return a.zip b

/-- The command of a letter. -/
def action (d : Regex.Dialect) (c : Char) : Reading Action := do
  let plain (a : Action) : Reading Action := do
    endOfCommand
    return a
  let named (make : String → Action) : Reading Action := do
    let name ← labelName
    endOfCommand
    return make name
  let status : Reading Nat := do
    let _ ← takeWhile fun c => c = ' ' || c = '\t'
    let n ← number
    endOfCommand
    return n
  let withFile (make : String → Action) : Reading Action := do
    let path ← restOfLine
    if path.isEmpty then fail "missing filename in r/R/w/W commands"
    return make path
  match c with
  | '{' => return .opening
  | '}' => plain .closing
  | ':' =>
    let name ← labelName
    if name.isEmpty then fail "\":\" lacks a label"
    return .label name
  | 'b' => named .jump
  | 't' => named (.jumpIf true)
  | 'T' => named (.jumpIf false)
  | 'a' => return .append (← addedText)
  | 'i' => return .insert (← addedText)
  | 'c' => return .change (← addedText)
  | 'd' => plain .delete
  | 'D' => plain .deleteLine
  | 's' => return .substitute (← substitution d)
  | 'y' => return .transliterate (← transliteration)
  | 'p' => plain .print
  | 'P' => plain .printLine
  | '=' => plain .number
  | 'l' =>
    let _ ← status
    return .list
  | 'F' => plain .fileName
  | 'n' => plain .next
  | 'N' => plain .appendNext
  | 'h' => plain .hold
  | 'H' => plain .appendHold
  | 'g' => plain .recall
  | 'G' => plain .appendRecall
  | 'x' => plain .exchange
  | 'z' => plain .clear
  | 'q' => return .quit (← status) true
  | 'Q' => return .quit (← status) false
  | 'r' => withFile .readFile
  | 'w' => withFile .writeFile
  | 'v' =>
    let _ ← restOfLine
    return .nothing
  | c => fail ("unknown command: \x60" ++ String.singleton c ++ "'")

/-- All commands of a script. The number of open braces is known. -/
def commands (d : Regex.Dialect) : Nat → Nat → Reading (List Command)
  | 0, _ => return []
  | fuel + 1, depth => do
    let _ ← takeWhile fun c => Arithmetic.isWhite c || c = ';'
    if (← peek).isNone then
      if depth ≠ 0 then throw ⟨0, "unmatched \x60\x7b'"⟩
      return []
    let selection ← selection d
    match ← next with
    | none => fail "missing command"
    | some '#' =>
      if selection.start.isSome then fail "comments don't accept any addresses"
      let _ ← takeWhile (· ≠ '\n')
      commands d fuel depth
    | some c =>
      if c = '}' ∧ depth = 0 then fail "unexpected \x60\x7d'"
      if c = '}' ∧ selection.start.isSome then fail "\x7d doesn't want any addresses"
      if c = ':' ∧ selection.start.isSome then fail ": doesn't want any addresses"
      if (c = 'q' ∨ c = 'Q') ∧ selection.ending.isSome then fail "command only uses one address"
      let a ← action d c
      let depth := if c = '{' then depth + 1 else if c = '}' then depth - 1 else depth
      let rest ← commands d fuel depth
      return ⟨selection, a⟩ :: rest

end Reading

/-- Reads the texts of a script, each starting a new line. A fault is told with the number of
its text and its place there. -/
def readScript (d : Regex.Dialect) (texts : List String) : Except String (List Command) :=
  let text := ("\n".intercalate texts).toList
  match StateT.run (Reading.commands d (text.length + 1) 0) text with
  | .ok (cs, _) => .ok cs
  | .error f =>
    let at' := text.length - f.left
    let (number, place) : Nat × Nat := texts.foldl (fun (acc : Nat × Nat) t =>
      if t.length < acc.2 ∧ acc.1 < texts.length then (acc.1 + 1, acc.2 - (t.length + 1)) else acc)
      (1, at')
    let place := if f.message.toList.isPrefixOf "unmatched \x60\x7b'".toList then 0 else place
    .error ("-e expression #" ++ toString number ++ ", char " ++ toString place ++ ": " ++
      f.message)

end ServiceCall.Shell.Editor
