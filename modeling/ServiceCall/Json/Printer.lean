import ServiceCall.Json.Value
import ServiceCall.Text.Hex
/-!
# The text of a JSON value

`compact` has no blanks at all; `pretty` puts every member and item of a non-empty
container on a line of its own, indented by two blanks a level.
-/

namespace ServiceCall.Json

/-- The characters of a character inside quotes. -/
def escape (c : Char) : List Char :=
  if c = '"' then ['\\', '"']
  else if c = '\\' then ['\\', '\\']
  else if c = '\n' then ['\\', 'n']
  else if c = '\r' then ['\\', 'r']
  else if c = '\t' then ['\\', 't']
  else if c = '\x08' then ['\\', 'b']
  else if c = '\x0c' then ['\\', 'f']
  else if c.toNat < 0x20 then
    ['\\', 'u', '0', '0', Hex.digit (c.toNat / 16), Hex.digit (c.toNat % 16)]
  else [c]

/-- A text in quotes. -/
def quote (s : String) : List Char := '"' :: s.toList.flatMap escape ++ ['"']

/-- The digits of an integer. -/
def integerText (i : Int) : List Char :=
  if i < 0 then '-' :: Nat.toDigits 10 i.natAbs else Nat.toDigits 10 i.natAbs

/-- A line break and the indentation of a level. -/
def newline (level : Nat) : List Char := '\n' :: List.replicate (2 * level) ' '

mutual

/-- The text of a value on one line. -/
def compactChars : Json → List Char
  | .null => "null".toList
  | .bool true => "true".toList
  | .bool false => "false".toList
  | .integer i => integerText i
  | .float x => if x.isFinite then x.text.toList else "null".toList
  | .string s => quote s
  | .array items => '[' :: compactItems items ++ [']']
  | .object members => '{' :: compactMembers members ++ ['}']

def compactItems : List Json → List Char
  | [] => []
  | [v] => compactChars v
  | v :: w :: rest => compactChars v ++ ',' :: compactItems (w :: rest)

def compactMembers : List (String × Json) → List Char
  | [] => []
  | [(k, v)] => quote k ++ ':' :: compactChars v
  | (k, v) :: m :: rest => quote k ++ ':' :: compactChars v ++ ',' :: compactMembers (m :: rest)

end

mutual

/-- The text of a value over several lines, inside the given level. -/
def prettyChars (level : Nat) : Json → List Char
  | .array [] => ['[', ']']
  | .array (v :: rest) =>
    '[' :: newline (level + 1) ++ prettyItems level (v :: rest) ++ newline level ++ [']']
  | .object [] => ['{', '}']
  | .object (m :: rest) =>
    '{' :: newline (level + 1) ++ prettyMembers level (m :: rest) ++ newline level ++ ['}']
  | .null => "null".toList
  | .bool true => "true".toList
  | .bool false => "false".toList
  | .integer i => integerText i
  | .float x => if x.isFinite then x.text.toList else "null".toList
  | .string s => quote s

def prettyItems (level : Nat) : List Json → List Char
  | [] => []
  | [v] => prettyChars (level + 1) v
  | v :: w :: rest =>
    prettyChars (level + 1) v ++ ',' :: newline (level + 1) ++ prettyItems level (w :: rest)

def prettyMembers (level : Nat) : List (String × Json) → List Char
  | [] => []
  | [(k, v)] => quote k ++ ':' :: ' ' :: prettyChars (level + 1) v
  | (k, v) :: m :: rest =>
    quote k ++ ':' :: ' ' :: prettyChars (level + 1) v ++ ',' :: newline (level + 1) ++
      prettyMembers level (m :: rest)

end

/-- The text of a value without blanks. -/
def compact (v : Json) : String := String.ofList (compactChars v)

/-- The text of a value with a line for every member and item. -/
def pretty (v : Json) : String := String.ofList (prettyChars 0 v)

end ServiceCall.Json
