import ServiceCall.Number.Literal
/-!
# The command language

Commands, the words they are made of, and the redirections that go with them, as they
stand before anything is expanded. A command that can be complained about while it runs
knows the line it stands on.
-/

namespace ServiceCall.Shell

/-- How a parameter's value is cut down by a pattern. -/
inductive Trim where
  | shortestStart
  | longestStart
  | shortestEnd
  | longestEnd
  deriving DecidableEq, Repr

/-- What is done about a parameter without a value. -/
inductive Remedy where
  /-- Another word stands in. -/
  | replace
  /-- The parameter is given another value. -/
  | assign
  /-- The shell ends with a message. -/
  | refuse
  /-- Nothing stands there; a word stands for any value there is. -/
  | alternate
  deriving DecidableEq, Repr

/-- What a redirection does to a descriptor. -/
inductive Opening where
  | read
  | write
  /-- For writing, even if a file is there that must not be overwritten. -/
  | replace
  | append
  | readWrite
  deriving DecidableEq, Repr

mutual

/-- A part of a word. Quoted parts are not split and hold no pattern characters. -/
inductive Part where
  | literal (quoted : Bool) (text : String)
  | parameter (quoted : Bool) (name : String)
  | length (quoted : Bool) (name : String)
  | trimmed (quoted : Bool) (name : String) (trim : Trim) (pattern : List Part)
  | checked (quoted : Bool) (name : String) (orEmpty : Bool) (remedy : Remedy) (word : List Part)
  | output (quoted : Bool) (body : Script)
  | arithmetic (quoted : Bool) (expression : List Part)
  | malformed

/-- Where a descriptor is sent. -/
inductive Redirect where
  | file (descriptor : Nat) (opening : Opening) (target : List Part)
  /-- To where another descriptor leads; none closes it. -/
  | duplicate (descriptor : Nat) (source : Option Nat)
  /-- The same, the other descriptor being what a word says. -/
  | duplicateWord (descriptor : Nat) (target : List Part)
  /-- From the text of a document, by its number. -/
  | document (descriptor : Nat) (index : Nat)

/-- A command. -/
inductive Script where
  | nothing
  | simple (line : Nat) (assignments : List (String × List Part)) (words : List (List Part))
      (redirects : List Redirect)
  | sequence (first second : Script)
  | both (first second : Script)
  | either (first second : Script)
  | negated (body : Script)
  | piped (commands : List Script)
  | background (body : Script)
  | forEach (line : Nat) (name : String) (words : List (List Part)) (body : Script)
  | choose (line : Nat) (subject : List Part) (items : List (List (List Part) × Script))
  | branch (condition yes no : Script)
  | loop (untilHolds : Bool) (condition body : Script)
  | group (line : Nat) (body : Script) (redirects : List Redirect)
  | subshell (line : Nat) (body : Script) (redirects : List Redirect)
  | function (name : String) (body : Script)

end

instance : Inhabited Part := ⟨.malformed⟩
instance : Inhabited Script := ⟨.nothing⟩

/-- A word before its expansion. -/
abbrev Word := List Part

namespace Word

/-- Puts a character behind the parts read so far, the last one first. -/
def push (quoted : Bool) (c : Char) : Word → Word
  | .literal q s :: rest =>
    if q = quoted ∧ !s.isEmpty then .literal q (s.push c) :: rest
    else .literal quoted (String.singleton c) :: .literal q s :: rest
  | w => .literal quoted (String.singleton c) :: w

/-- The text of a word that has nothing to expand and no quotes. -/
def plain? : Word → Option String
  | [.literal false s] => some s
  | _ => none

/-- The text of a word of literals. -/
def literalText (w : Word) : String :=
  String.join (w.map fun
    | .literal _ s => s
    | _ => "")

end Word

namespace Name

/-- A character that a variable's name may start with. -/
def isStart (c : Char) : Bool := c.isAlpha || c = '_'

/-- A character of a variable's name. -/
def isPart (c : Char) : Bool := c.isAlphanum || c = '_'

/-- The text is the name of a variable. -/
def isName (s : String) : Bool :=
  match s.toList with
  | c :: rest => isStart c && rest.all isPart
  | [] => false

/-- A parameter that is no variable and has one character for its name. -/
def isSpecial (c : Char) : Bool := "#@*?$!-".toList.contains c || isDigit c

/-- The name in front of an equals sign, and what follows the sign. -/
def assignment? (s : String) : Option (String × String) :=
  let name := s.toList.takeWhile isPart
  match name, s.toList.dropWhile isPart with
  | c :: _, '=' :: value =>
    if isStart c then some (String.ofList name, String.ofList value) else none
  | _, _ => none

end Name

/-- The name and value of an assignment. -/
def Word.assignment? : Word → Option (String × Word)
  | .literal false s :: rest =>
    (Name.assignment? s).map fun (name, value) =>
      (name, if value.isEmpty then rest else .literal false value :: rest)
  | _ => none

end ServiceCall.Shell
