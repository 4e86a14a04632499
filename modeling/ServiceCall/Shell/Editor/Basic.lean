import ServiceCall.Shell.Regex
import ServiceCall.Shell.Work
/-!
# Line editing

A script for the line editor is a list of commands, each with the lines it is meant for.
Braces are commands as well: an opening one leads past its closing one if it does not apply.
-/

namespace ServiceCall.Shell.Editor

/-- A regular expression; without one, the last one used. -/
structure Sought where
  regex? : Option Regex
  folds : Bool
  deriving Repr

/-- A way to name lines. -/
inductive Address where
  | line (n : Nat)
  | last
  | every (first step : Nat)
  | holding (s : Sought)
  deriving Repr

/-- Where a range of lines ends. -/
inductive Ending where
  | address (a : Address)
  | count (n : Nat)
  | multiple (n : Nat)
  deriving Repr

/-- The lines a command is meant for. -/
structure Selection where
  start : Option Address
  ending : Option Ending
  isNegated : Bool
  deriving Repr

/-- How the case of letters changes. -/
inductive Casing where
  | plain
  | upper
  | lower
  deriving DecidableEq, Repr

/-- A piece of a replacement. -/
inductive Piece where
  | text (s : List Char)
  | group (n : Nat)
  | casing (c : Casing)
  /-- Only the next character changes. -/
  | nextCasing (c : Casing)
  deriving Repr

/-- A substitution. -/
structure Substitution where
  sought : Sought
  pieces : List Piece
  /-- The first match that is replaced, and whether all later ones are. -/
  first : Nat
  isGlobal : Bool
  prints : Bool
  file : Option String
  deriving Repr

/-- What a command does. -/
inductive Action where
  | opening
  | closing
  | label (name : String)
  | jump (name : String)
  /-- A jump that is taken if there was a substitution, or if there was none. -/
  | jumpIf (wasChanged : Bool) (name : String)
  | append (s : List Char)
  | insert (s : List Char)
  | change (s : List Char)
  | delete
  | deleteLine
  | substitute (s : Substitution)
  | transliterate (pairs : List (Char × Char))
  | print
  | printLine
  | number
  | list
  | fileName
  | next
  | appendNext
  | hold
  | appendHold
  | recall
  | appendRecall
  | exchange
  | clear
  | quit (status : Nat) (prints : Bool)
  | readFile (path : String)
  | writeFile (path : String)
  | nothing
  deriving Repr

structure Command where
  selection : Selection
  action : Action
  deriving Repr

/-- A line of the input: its text, the file it is from, whether the line is its last one, and
whether it has an end. -/
structure Line where
  text : List Char
  file : String
  isLast : Bool
  isWhole : Bool
  deriving Repr

/-! ## Replacing -/

/-- A text in another case. -/
def Casing.apply : Casing → List Char → List Char
  | plain, s => s
  | upper, s => s.map Char.toUpper
  | lower, s => s.map Char.toLower

/-- What the pieces of a replacement make of a match. -/
def replacement (m : Regex.Match) : List Piece → Casing → Option Casing → List Char
  | [], _, _ => []
  | piece :: rest, c, next =>
    let put (s : List Char) : List Char :=
      match next, c.apply s with
      | some n, d :: ds => n.apply [d] ++ ds ++ replacement m rest c none
      | next, s => s ++ replacement m rest c next
    match piece with
    | .text s => put s
    | .group n => put ((m.group? n).getD [])
    | .casing c => replacement m rest c none
    | .nextCasing n => replacement m rest c (some n)

/-- The text after its matches from one on were replaced, and how many matches there were.
An empty match directly behind another one does not count. -/
def replaceFrom (r : Regex) (s : Substitution) : Nat → Nat → Bool → List Char → List Char →
    List Char × Bool
  | 0, _, _, _, after => (after, false)
  | fuel + 1, n, isBehind, before, after =>
    match r.search s.sought.folds before after with
    | none => (after, false)
    | some m =>
      let skipped := after.take (m.before.length - before.length)
      let step (isReplaced : Bool) (text : List Char) (n : Nat) : List Char × Bool :=
        if isReplaced ∧ !s.isGlobal then (skipped ++ text ++ m.after, true)
        else if m.text.isEmpty then
          match m.after with
          | [] => (skipped ++ text, isReplaced)
          | c :: rest =>
            let (tail, isLater) := replaceFrom r s fuel n false (c :: m.before) rest
            (skipped ++ text ++ c :: tail, isReplaced || isLater)
        else
          let (tail, isLater) := replaceFrom r s fuel n true (m.text.reverse ++ m.before) m.after
          (skipped ++ text ++ tail, isReplaced || isLater)
      if isBehind ∧ m.text.isEmpty ∧ skipped.isEmpty then step false [] n
      else if s.first ≤ n then step true (replacement m s.pieces .plain none) (n + 1)
      else step false m.text (n + 1)

/-- The text after a substitution, if there was anything to replace. -/
def Substitution.apply (s : Substitution) (r : Regex) (text : List Char) : Option (List Char) :=
  let (result, isReplaced) := replaceFrom r s (2 * text.length + 4) 1 false [] text
  if isReplaced then some result else none

end ServiceCall.Shell.Editor
