import ServiceCall.Shell.Syntax
/-!
# Reading commands: characters and tokens

A text is read one complete command at a time, so that what a command does can matter to
how the next one is read. `Source` is a text that is being read, with what is known of the
place: its line, the documents whose text is still to come, and the token that was looked
at last.
-/

namespace ServiceCall.Shell

/-- Why a text is no command, and the line on which that shows. -/
structure SyntaxFault where
  line : Nat
  message : String
  deriving Repr

/-- What a redirection operator asks for; its target follows. -/
inductive Arrow where
  | file (opening : Opening)
  | duplicate
  | document (stripTabs : Bool)
  deriving DecidableEq, Repr

/-- A token. -/
inductive Token where
  | word (w : Word)
  | redirect (descriptor : Nat) (arrow : Arrow)
  | keyword (s : String)
  | operator (s : String)
  | newline
  | ended

namespace Token

/-- The token as a message names it. -/
def description : Token → String
  | word _ => "word"
  | redirect _ _ => "redirection"
  | keyword s | operator s => "\"" ++ s ++ "\""
  | newline => "newline"
  | ended => "end of file"

/-- The reserved words. -/
def keywords : List String :=
  ["!", "case", "do", "done", "elif", "else", "esac", "fi", "for", "if", "in", "then", "until",
    "while", "\x7b", "\x7d"]

/-- A token that no command starts with and that ends a list of them. -/
def endsList : Token → Bool
  | ended => true
  | operator s => s = ")" || s = ";;"
  | keyword s => ["do", "done", "elif", "else", "esac", "fi", "then", "\x7d"].contains s
  | _ => false

def isOperator (s : String) : Token → Bool
  | operator t => s = t
  | _ => false

def isKeyword (s : String) : Token → Bool
  | keyword t => s = t
  | _ => false

def isEnded : Token → Bool
  | ended => true
  | _ => false

end Token

/-- A document that a redirection has announced. -/
structure Document where
  index : Nat
  /-- The line that ends it. -/
  mark : String
  stripTabs : Bool
  expands : Bool
  deriving Repr

/-- A text that is being read. -/
structure Source where
  rest : List Char
  line : Nat
  /-- A bound on the steps and the depth of the reading. -/
  limit : Nat
  /-- The token read last, and whether it is to be read again. -/
  last : Token
  again : Bool
  /-- What the next token may be: line breaks are passed by, reserved words count. -/
  passLines : Bool
  reserved : Bool
  /-- The next token may be an alias, though no reserved word. -/
  aliased : Bool
  aliases : List (String × String)
  /-- The aliases whose texts are being read, with what is left of the source after them. -/
  inUse : List (String × Nat)
  /-- What is left of the source after an alias that ends with a blank. -/
  opensAt : Option Nat
  /-- The next word ends a document; nothing in it is expanded. -/
  isMark : Bool
  waiting : List Document
  /-- The documents that were read, by number, and the number of the next one. -/
  documents : List (Nat × Word)
  nextDocument : Nat

namespace Source

/-- How long the texts of aliases can make a source. -/
def aliasLimit (aliases : List (String × String)) : Nat :=
  (aliases.map fun a => 2 * (a.1.length + a.2.length) + 16).foldl (· + ·) 0

/-- A text from its start. -/
def ofText (text : List Char) (line nextDocument : Nat) (aliases : List (String × String)) :
    Source where
  rest := text
  line
  limit := (2 * text.length + 16) * (aliases.length + 1) + aliasLimit aliases
  last := .ended
  again := false
  passLines := false
  reserved := false
  aliased := false
  aliases
  inUse := []
  opensAt := none
  isMark := false
  waiting := []
  documents := []
  nextDocument

/-- The source with what is known where it is read on. -/
def within (s : Source) (nextDocument : Nat) (aliases : List (String × String)) : Source :=
  { s with nextDocument, aliases, limit := s.limit + aliasLimit aliases * (s.rest.length + 1) }

end Source

/-- A step of reading. -/
abbrev Reading := StateT Source (Except SyntaxFault)

namespace Reading

/-- The text cannot be read on. -/
def fail (message : String) : Reading α := do
  throw ⟨(← get).line, message⟩

/-- The token read last cannot stand here. -/
def unexpected (expecting : Option String) : Reading α := do
  let wanted := match expecting with
    | some s => " (expecting " ++ s ++ ")"
    | none => ""
  let text := (← get).last.description ++ " unexpected" ++ wanted
  fail (String.ofList (text.toList.take 63))

/-- Repeats a step until it gives a result. -/
def iterate (step : σ → Reading (σ ⊕ α)) : Nat → σ → Reading α
  | 0, _ => fail "Too many steps"
  | n + 1, s => do
    match ← step s with
    | .inl s => iterate step n s
    | .inr a => return a

/-- Repeats a step as often as the text allows. -/
def repeating (s : σ) (step : σ → Reading (σ ⊕ α)) : Reading α := do
  iterate step (← get).limit s

/-! ## Characters -/

/-- The next character as it stands. -/
def raw : Reading (Option Char) := modifyGet fun s =>
  match s.rest with
  | [] => (none, s)
  | c :: rest => (some c, { s with rest, line := if c = '\n' then s.line + 1 else s.line })

/-- The text without the backslashes in front of line breaks that it starts with. -/
def unjoined : List Char → Nat → List Char × Nat
  | '\\' :: '\n' :: rest, line => unjoined rest (line + 1)
  | s, line => (s, line)

/-- Looks at the next character, lines that are joined by a backslash taken for one. -/
def peek : Reading (Option Char) := modifyGet fun s =>
  let (rest, line) := unjoined s.rest s.line
  (rest.head?, { s with rest, line })

/-- Takes the character that was looked at. -/
def next : Reading (Option Char) := do
  let _ ← peek
  raw

/-- Takes the next character if it is the given one. -/
def take (c : Char) : Reading Bool := do
  if (← peek) = some c then
    let _ ← raw
    return true
  else return false

/-- The longest run of characters of a kind. -/
def longest (kind : Char → Bool) : Reading (List Char) := do
  let chars ← repeating [] fun acc => do
    match ← peek with
    | some c =>
      if kind c then
        let _ ← raw
        return .inl (c :: acc)
      else return .inr acc
    | none => return .inr acc
  return chars.reverse

/-! ## Places -/

/-- Reads another text in between. Documents it announces are its own. -/
def within (text : List Char) (line : Nat) (body : Reading α) : Reading α := do
  let s ← get
  set { Source.ofText text line s.nextDocument s.aliases with
    limit := s.limit + 2 * text.length, documents := s.documents }
  let a ← body
  modify fun t => { s with documents := t.documents, nextDocument := t.nextDocument }
  return a

/-- What the next token may be. -/
def allow (passLines reserved : Bool) : Reading Unit :=
  modify fun s => { s with passLines, reserved }

/-- The token read last is read again. -/
def putBack : Reading Unit := modify fun s => { s with again := true }

end Reading

/-- How far a word is read, and what counts as quoted in it. -/
inductive Extent where
  | bare
  | quoted
  | braces (isQuoted inDocument : Bool)
  | arithmetic
  | document
  deriving DecidableEq

namespace Extent

def isQuoted : Extent → Bool
  | bare => false
  | braces q _ => q
  | quoted | arithmetic | document => true

def inDocument : Extent → Bool
  | document => true
  | braces _ d => d
  | _ => false

def isBraces : Extent → Bool
  | braces _ _ => true
  | _ => false

end Extent

/-- What the readers of words and of commands need of each other. -/
structure Grammar where
  word : Extent → Reading Word
  /-- Commands up to the end of a list; an empty list may be refused. -/
  list : (mayBeEmpty : Bool) → Reading Script
  command : Reading Script

end ServiceCall.Shell
