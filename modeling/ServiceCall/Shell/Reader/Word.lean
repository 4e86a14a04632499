import ServiceCall.Shell.Reader.Basic
/-!
# Reading words

A word is read up to where it ends: at a blank or an operator, at its closing quote, brace
or parentheses, or at the end of a document. What stands in it for something else
becomes a part of its own.
-/

namespace ServiceCall.Shell.Reading

/-- A character between words. -/
def isBlank (c : Char) : Bool := c = ' ' || c = '\t'

/-- A character that ends an unquoted word. -/
def isBreak (c : Char) : Bool := " \t\n;&|()<>".toList.contains c

/-- The border of a quotation: it keeps an empty field. -/
def border : Part := .literal true ""

/-- The text up to a single quote. -/
def untilQuote : Reading (List Char) := do
  let chars ← repeating [] fun acc => do
    match ← raw with
    | none => fail "Unterminated quoted string"
    | some c => if c = '\'' then return .inr acc else return .inl (c :: acc)
  return chars.reverse

/-- The text up to a back quote. A backslash that escapes goes. -/
def untilBackquote (inQuotes : Bool) : Reading (List Char) := do
  let chars ← repeating [] fun acc => do
    match ← next with
    | none => fail "EOF in backquote substitution"
    | some c =>
      if c = '\x60' then return .inr acc
      else if c = '\\' then
        match ← raw with
        | none => return .inl (c :: acc)
        | some d =>
          let escapes := "$\x60\\".toList.contains d || (inQuotes && d = '"')
          return .inl (if escapes then d :: acc else d :: c :: acc)
      else return .inl (c :: acc)
  return chars.reverse

/-- The commands of a substitution in parentheses. -/
def substituted (g : Grammar) : Reading Script := do
  let outer := (← get).waiting
  modify fun s => { s with waiting := [], again := false }
  let body ← g.list true
  let s ← get
  if s.again && s.last.isOperator ")" then
    set { s with again := false, waiting := outer }
    return body
  else unexpected (some "\")\"")

/-- The commands of a substitution in back quotes. -/
def backquoted (g : Grammar) (inQuotes : Bool) : Reading Script := do
  let text ← untilBackquote inQuotes
  within text 1 (g.list true)

/-- How the value of a parameter in braces is used, once its name is known. -/
def suffix (g : Grammar) (e : Extent) (name : String) : Reading Part := do
  let q := e.isQuoted
  let inner : Extent := .braces q e.inDocument
  let trimmed (trim : Trim) : Reading Part := do
    return .trimmed q name trim (← g.word (.braces false e.inDocument))
  let malformed : Reading Part := do
    let _ ← g.word inner
    return .malformed
  match ← peek with
  | some '}' =>
    let _ ← raw
    return .parameter q name
  | some '#' =>
    let _ ← raw
    if ← take '#' then trimmed .longestStart else trimmed .shortestStart
  | some '%' =>
    let _ ← raw
    if ← take '%' then trimmed .longestEnd else trimmed .shortestEnd
  | _ =>
    let orEmpty ← take ':'
    let remedy? : Option Remedy := match ← peek with
      | some '-' => some .replace
      | some '=' => some .assign
      | some '?' => some .refuse
      | some '+' => some .alternate
      | _ => none
    match remedy? with
    | none =>
      -- a brace behind the colon does not close
      if ← (if orEmpty then take '}' else pure false) then
        let _ ← g.word inner
        return .parameter q name
      malformed
    | some remedy =>
      let _ ← raw
      return .checked q name orEmpty remedy (← g.word inner)

/-- The name of a variable or a positional parameter. -/
def nameOrNumber? : Reading (Option String) := do
  match ← peek with
  | some c =>
    if Name.isStart c then return some (String.ofList (← longest Name.isPart))
    else if isDigit c then return some (String.ofList (← longest isDigit))
    else return none
  | none => return none

/-- A parameter in braces; the opening one has been taken. -/
def braced (g : Grammar) (e : Extent) : Reading Part := do
  let malformed : Reading Part := do
    let _ ← g.word (.braces e.isQuoted e.inDocument)
    return .malformed
  let length (name : String) : Reading Part := do
    if ← take '}' then return .length e.isQuoted name else malformed
  match ← nameOrNumber? with
  | some name => suffix g e name
  | none =>
    match ← peek with
    | some '#' =>
      let _ ← raw
      match ← nameOrNumber? with
      | some name => length name
      | none =>
        -- a number sign on its own, or in front of a special parameter and nothing else
        let s ← get
        match s.rest with
        | c :: '}' :: _ =>
          if Name.isSpecial c then
            let _ ← raw
            length (String.singleton c)
          else suffix g e "#"
        | _ => suffix g e "#"
    | some c =>
      if Name.isSpecial c then
        let _ ← raw
        suffix g e (String.singleton c)
      else malformed
    | none => malformed

/-- What follows a dollar sign; none if the sign stands for itself. -/
def dollar? (g : Grammar) (e : Extent) : Reading (Option Part) := do
  if (← get).isMark then return none
  match ← peek with
  | some '(' =>
    let _ ← raw
    if ← take '(' then return some (.arithmetic e.isQuoted (← g.word .arithmetic))
    else return some (.output e.isQuoted (← substituted g))
  | some '{' =>
    let _ ← raw
    return some (← braced g e)
  | some c =>
    if Name.isStart c then
      return some (.parameter e.isQuoted (String.ofList (← longest Name.isPart)))
    else if Name.isSpecial c then
      let _ ← raw
      return some (.parameter e.isQuoted (String.singleton c))
    else return none
  | none => return none

/-- Why a word may not end with the text. -/
def endFault? : Extent → Option String
  | .bare | .document => none
  | .quoted => some "Unterminated quoted string"
  | .braces true false => some "Unterminated quoted string"
  | .braces _ _ => some "Missing '\x7d'"
  | .arithmetic => some "Missing '))'"

/-- A backslash and what it escapes, behind the parts read so far. -/
def escaped (e : Extent) (acc : Word) : Reading Word := do
  match ← raw with
  | none => return acc.push true '\\'
  | some d =>
    let stays := e.isQuoted && !("\\\x60$".toList.contains d) &&
      (d ≠ '"' || (e = .document)) && (d ≠ '}' || !e.isBraces)
    return (if stays then acc.push true '\\' else acc).push true d

/-- One step of reading a word: the parts read so far, the last one first, and how many
parentheses are open. -/
def wordStep (g : Grammar) (e : Extent) : Word × Nat → Reading ((Word × Nat) ⊕ Word)
  | (acc, depth) => do
    let plain (c : Char) : Reading ((Word × Nat) ⊕ Word) := do
      let _ ← raw
      return .inl (acc.push e.isQuoted c, depth)
    let parts (ps : List Part) : (Word × Nat) ⊕ Word := .inl (ps.reverse ++ acc, depth)
    match ← peek with
    | none =>
      match endFault? e with
      | some message => fail message
      | none => return .inr acc
    | some c =>
      if e = .bare ∧ isBreak c then return .inr acc
      else if c = '\'' ∧ !e.isQuoted then
        let _ ← raw
        let text ← untilQuote
        return parts [border, .literal true (String.ofList text), border]
      else if c = '"' ∧ e ≠ .document ∧ e ≠ .arithmetic then
        let _ ← raw
        if e = .quoted then return .inr acc
        else
          let inner ← g.word .quoted
          if e.isQuoted then return parts inner
          else match inner with
            | [.parameter true "@"] => return parts inner
            | _ => return parts ([border] ++ inner ++ [border])
      else if c = '\\' then
        let _ ← raw
        return .inl (← escaped e acc, depth)
      else if c = '\x60' ∧ !(← get).isMark then
        let _ ← raw
        return parts [.output e.isQuoted (← backquoted g e.isQuoted)]
      else if c = '$' then
        let _ ← raw
        match ← dollar? g e with
        | some p => return parts [p]
        | none => return .inl (acc.push e.isQuoted '$', depth)
      else if c = '}' ∧ e.isBraces then
        let _ ← raw
        return .inr acc
      else if c = '(' ∧ e = .arithmetic then
        let _ ← raw
        return .inl (acc.push true c, depth + 1)
      else if c = ')' ∧ e = .arithmetic then
        let _ ← raw
        if 0 < depth then return .inl (acc.push true c, depth - 1)
        else if ← take ')' then return .inr acc
        else return .inl (acc.push true c, depth)
      else plain c

/-- The rest of a word. -/
def wordFrom (g : Grammar) (e : Extent) : Reading Word := do
  return (← repeating ([], 0) (wordStep g e)).reverse

/-! ## Documents -/

/-- The line break that ends a line is escaped. -/
def endsEscaped (line : List Char) : Bool :=
  (line.reverse.takeWhile (· = '\\')).length % 2 = 1

/-- The text of a document, up to the line that ends it. -/
def documentText (d : Document) : Reading (List Char) := do
  let chars ← repeating ([], false) fun (acc, joined) => do
    let s ← get
    let rest := if d.stripTabs && !joined then s.rest.dropWhile (· = '\t') else s.rest
    let line := rest.takeWhile (· ≠ '\n')
    let after := rest.dropWhile (· ≠ '\n')
    set { s with rest := after.drop 1, line := s.line + (after.take 1).length }
    if !joined && line = d.mark.toList then return .inr acc
    else if after.isEmpty then return .inr (line.reverse ++ acc)
    else if d.expands && endsEscaped line then return .inl ((line.reverse.drop 1) ++ acc, true)
    else return .inl ('\n' :: (line.reverse ++ acc), false)
  return chars.reverse

/-- Reads the documents that were announced. -/
def readDocuments (g : Grammar) : Reading Unit := do
  let waiting := (← get).waiting
  modify fun s => { s with waiting := [] }
  for d in waiting do
    let line := (← get).line
    let text ← documentText d
    let w ← if d.expands then within text line (g.word .document)
      else pure [.literal true (String.ofList text)]
    modify fun s => { s with documents := (d.index, w) :: s.documents }

/-! ## Tokens -/

/-- The operator that follows a redirection sign. -/
def arrow (sign : Char) : Reading Arrow := do
  if sign = '>' then
    if ← take '>' then return .file .append
    else if ← take '|' then return .file .replace
    else if ← take '&' then return .duplicate
    else return .file .write
  else if ← take '<' then
    return .document (← take '-')
  else if ← take '&' then return .duplicate
  else if ← take '>' then return .file .readWrite
  else return .file .read

/-- A redirection; the descriptor in front of it has been taken. -/
def redirection (descriptor : Option Nat) : Reading Token := do
  let sign := (← raw).getD '>'
  return .redirect (descriptor.getD (if sign = '>' then 1 else 0)) (← arrow sign)

/-- The next token, a word for a reserved one. -/
def plainToken (g : Grammar) : Reading Token := do
  let s ← get
  if s.again then
    set { s with again := false }
    return s.last
  let either (c : Char) : Reading Token := do
    let _ ← raw
    if ← take c then return .operator (String.ofList [c, c])
    else return .operator (String.singleton c)
  let word : Reading Token := do return .word (← g.word .bare)
  repeating () fun () => do
    match ← peek with
    | none => return .inr .ended
    | some c =>
      if c = ' ' ∨ c = '\t' then
        let _ ← raw
        return .inl ()
      else if c = '#' then
        modify fun s => { s with rest := s.rest.dropWhile (· ≠ '\n') }
        return .inl ()
      else if c = '\n' then
        let _ ← raw
        return .inr .newline
      else if c = '&' ∨ c = '|' ∨ c = ';' then return .inr (← either c)
      else if c = '(' ∨ c = ')' then
        let _ ← raw
        return .inr (.operator (String.singleton c))
      else if c = '<' ∨ c = '>' then return .inr (← redirection none)
      else if isDigit c then
        let before ← get
        let _ ← raw
        match ← peek with
        | some sign =>
          if sign = '<' ∨ sign = '>' then return .inr (← redirection (digit? c))
          else
            set before
            return .inr (← word)
        | none =>
          set before
          return .inr (← word)
      else return .inr (← word)

/-- What a word is that stands where a command can start: a reserved word, or a word that an
alias replaces, whose text is read in its place then. An alias does not count in its own text.
What was left of the source where the word starts is known. -/
def named (start : Nat) (reserved aliased : Bool) (w : Word) : Reading (Option Token) := do
  let s ← get
  let inUse := s.inUse.filter fun (_, left) => left < start
  match w.plain? with
  | none => return some (.word w)
  | some name =>
    if reserved ∧ Token.keywords.contains name then return some (.keyword name)
    else
      let isUsed := inUse.any (·.1 = name)
      match if aliased && !isUsed then s.aliases.lookup name else none with
      | none => return some (.word w)
      | some value =>
        let isOpen := value.toList.getLast?.any isBlank
        set { s with
          rest := value.toList ++ s.rest
          inUse := (name, s.rest.length) :: inUse
          opensAt := if isOpen then some s.rest.length else none }
        return none

/-- The next token. -/
def token (g : Grammar) : Reading Token := do
  let flags ← get
  let t ← repeating () fun () => do
    let before ← get
    match ← plainToken g with
    | .newline =>
      if flags.passLines then
        readDocuments g
        return .inl ()
      else return .inr .newline
    | .word w =>
      let left := (← get).rest.length
      -- behind an alias that ends with a blank, the next word can be an alias as well
      let isOpen := before.opensAt.any fun n => n < before.rest.length && left < n
      let start := (before.rest.dropWhile isBlank).length
      let aliased := !before.again && (flags.reserved || flags.aliased || isOpen)
      match ← named start flags.reserved aliased w with
      | some t => return .inr t
      | none => return .inl ()
    | t => return .inr t
  modify fun s => { s with
    passLines := false, reserved := false, aliased := false, isMark := false, last := t }
  return t

/-- Looks whether the next token is an operator, and takes it then. -/
def takeOperator (g : Grammar) (op : String) : Reading Bool := do
  if (← token g).isOperator op then return true
  else
    putBack
    return false

end ServiceCall.Shell.Reading
