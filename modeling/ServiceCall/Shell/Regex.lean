import ServiceCall.Shell.Arithmetic
import ServiceCall.Shell.Pattern
/-!
# Regular expressions

What a regular expression matches, and how its two dialects are read.
-/

namespace ServiceCall.Shell.Regex

/-! ## Regular expressions

A regular expression is a tree. `Node.ends` finds all places where a match that starts at a
place can end, the preferred one first; a place is given by what stands before and after it.
-/

/-- What a place between two characters can be asked for. -/
inductive Edge where
  | lineStart
  | lineEnd
  | wordStart
  | wordEnd
  | wordEdge
  | noWordEdge
  deriving DecidableEq, Repr

/-- A regular expression. -/
inductive Node where
  | empty
  | anyChar
  | exactly (c : Char)
  | among (isNegated : Bool) (listed : List Pattern.Listed)
  | edge (e : Edge)
  | sequence (a b : Node)
  | either (a b : Node)
  | repeated (least : Nat) (most : Option Nat) (a : Node)
  | group (number : Nat) (a : Node)
  /-- What a group has matched. -/
  | back (number : Nat)
  deriving Repr

/-- A place in a text, and what groups have matched up to it. -/
structure Place where
  /-- The characters before, the nearest one first. -/
  before : List Char
  after : List Char
  groups : List (Nat × List Char)
  deriving DecidableEq, Repr

namespace Place

def isWordChar (c : Char) : Bool := c.isAlphanum || c = '_'

/-- The place has a property. -/
def meets (p : Place) (e : Edge) : Bool :=
  let isWordBefore := (p.before.head?.map isWordChar).getD false
  let isWordAfter := (p.after.head?.map isWordChar).getD false
  match e with
  | .lineStart => p.before.isEmpty
  | .lineEnd => p.after.isEmpty
  | .wordStart => !isWordBefore && isWordAfter
  | .wordEnd => isWordBefore && !isWordAfter
  | .wordEdge => isWordBefore != isWordAfter
  | .noWordEdge => isWordBefore == isWordAfter

/-- The place after one more character. -/
def next? (p : Place) : Option (Char × Place) :=
  match p.after with
  | [] => none
  | c :: after => some (c, { p with before := c :: p.before, after })

/-- The place after some characters, if they are the next ones. -/
def past? (same : Char → Char → Bool) : List Char → Place → Option Place
  | [], p => some p
  | c :: cs, p =>
    match p.next? with
    | some (d, p) => if same c d then past? same cs p else none
    | none => none

/-- The text from one place to a later one. -/
def textTo (p q : Place) : List Char := p.after.take (p.after.length - q.after.length)

/-- What a group has matched last. -/
def group? (p : Place) (number : Nat) : Option (List Char) := p.groups.lookup number

end Place

/-- The character fits a list. -/
def fitsList (folds isNegated : Bool) (listed : List Pattern.Listed) (c : Char) : Bool :=
  let isListed (c : Char) : Bool := listed.any (·.holds c)
  (isListed c || (folds && (isListed c.toLower || isListed c.toUpper))) != isNegated

/-- Two characters are the same, or differ in case only if that does not count. -/
def same (folds : Bool) (c d : Char) : Bool := c = d || (folds && c.toLower = d.toLower)

/-- The places of a list without later ones where the same text is left. -/
def distinct : List Nat → List Place → List Place
  | _, [] => []
  | seen, p :: rest =>
    if seen.contains p.after.length then distinct seen rest
    else p :: distinct (p.after.length :: seen) rest

/-- All places that rounds of a step lead to, more rounds preferred. A round above the least
number that leads nowhere new is not taken. -/
def rounds (step : Place → List Place) : Nat → Nat → Option Nat → Place → List Place
  | 0, _, _, p => [p]
  | fuel + 1, least, most, p =>
    if most = some 0 then [p]
    else
      let further := (step p).filter fun q => least ≠ 0 || q.after.length < p.after.length
      let later := further.flatMap (rounds step fuel (least - 1) (most.map (· - 1)))
      distinct [] (if least = 0 then later ++ [p] else later)

/-- The places after each of the next characters that fit, as many as may be. -/
def run (fits : Char → Bool) : Nat → List Char → Place → List Place
  | _, [], _ => []
  | 0, _, _ => []
  | most + 1, c :: after, p =>
    if fits c then
      let q : Place := { p with before := c :: p.before, after }
      run fits most after q ++ [q]
    else []

namespace Node

/-- What a node that stands for one character asks of it. -/
def char? (folds : Bool) : Node → Option (Char → Bool)
  | anyChar => some fun _ => true
  | exactly c => some (same folds c)
  | among isNegated listed => some (fitsList folds isNegated listed)
  | _ => none

/-- The places where a match that starts at a place can end, the preferred one first. -/
def ends (folds : Bool) : Node → Place → List Place
  | empty, p => [p]
  | anyChar, p => (p.next?.map (·.2)).toList
  | exactly c, p =>
    match p.next? with
    | some (d, q) => if same folds c d then [q] else []
    | none => []
  | among isNegated listed, p =>
    match p.next? with
    | some (d, q) => if fitsList folds isNegated listed d then [q] else []
    | none => []
  | edge e, p => if p.meets e then [p] else []
  | sequence a b, p => distinct [] ((a.ends folds p).flatMap (b.ends folds))
  | either a b, p => distinct [] (a.ends folds p ++ b.ends folds p)
  | repeated least most a, p =>
    match a.char? folds with
    | some fits =>
      let all := run fits (most.getD p.after.length) p.after p ++ [p]
      all.take (all.length - least)
    | none => rounds (a.ends folds) (p.after.length + least + 1) least most p
  | group n a, p =>
    (a.ends folds p).map fun q => { q with groups := (n, p.textTo q) :: q.groups }
  | back n, p =>
    match p.group? n with
    | some s => (p.past? (same folds) s).toList
    | none => []

end Node

end ServiceCall.Shell.Regex

namespace ServiceCall.Shell

/-- A regular expression with the number of its groups. -/
structure Regex where
  node : Regex.Node
  groups : Nat
  deriving Repr

namespace Regex

/-- A match in a text. -/
structure Match where
  /-- The characters before, the nearest one first. -/
  before : List Char
  text : List Char
  after : List Char
  groups : List (Nat × List Char)

namespace Match

/-- What a group has matched; the whole is number 0. -/
def group? (m : Match) (number : Nat) : Option (List Char) :=
  if number = 0 then some m.text else m.groups.lookup number

end Match

/-- The longest match at a place. -/
def matchHere (r : Regex) (folds : Bool) (before after : List Char) : Option Match :=
  let p : Place := ⟨before, after, []⟩
  let longest := (r.node.ends folds p).foldl (fun (best : Option Place) q =>
    match best with
    | some b => if q.after.length < b.after.length then some q else some b
    | none => some q) none
  longest.map fun q => ⟨before, p.textTo q, q.after, q.groups⟩

/-- The first and longest match from a place on. -/
def search (r : Regex) (folds : Bool) (before : List Char) : List Char → Option Match
  | [] => r.matchHere folds before []
  | c :: after =>
    match r.matchHere folds before (c :: after) with
    | some m => some m
    | none => search r folds (c :: before) after

/-- The text holds a match. -/
def isIn (r : Regex) (folds : Bool) (s : List Char) : Bool := (r.search folds [] s).isSome

end Regex

end ServiceCall.Shell

namespace ServiceCall.Shell.Regex

/-! ## Reading regular expressions

There are two ways to write a regular expression: in the basic one, groups, alternatives
and intervals need backslashes, in the extended one they do not.
-/

inductive Dialect where
  | basic
  | extended
  deriving DecidableEq, Repr

/-- How far a text has been read. -/
structure Progress where
  rest : List Char
  groups : Nat

/-! ## Marks -/

/-- The text after a mark, which the basic dialect writes with a backslash. -/
def past? (d : Dialect) (mark : Char) (s : List Char) : Option (List Char) :=
  match d, s with
  | .basic, '\\' :: c :: rest => if c = mark then some rest else none
  | .extended, c :: rest => if c = mark then some rest else none
  | _, _ => none

/-- The text ends here, or an alternative or a group does. -/
def endsBranch (d : Dialect) (depth : Nat) (s : List Char) : Bool :=
  s.isEmpty || (past? d '|' s).isSome || ((past? d ')' s).isSome && (depth != 0 || d = .basic))

/-! ## Brackets -/

/-- A member of a bracket: a single character or a class. -/
def member (s : List Char) : Except String (Pattern.Listed × List Char) :=
  match s with
  | [] => .error "Unmatched [, [^, [:, [., or [="
  | '[' :: ':' :: rest =>
    let name := rest.takeWhile (· ≠ ':')
    match rest.drop name.length with
    | ':' :: ']' :: rest =>
      let name := String.ofList name
      if Pattern.classNames.contains name then .ok (.named name, rest)
      else .error "Invalid character class name"
    | _ => .error "Unmatched [, [^, [:, [., or [="
  | '[' :: '.' :: c :: '.' :: ']' :: rest => .ok (.range c c, rest)
  | '[' :: '=' :: c :: '=' :: ']' :: rest => .ok (.range c c, rest)
  | c :: rest => .ok (.range c c, rest)

/-- The members of a bracket and the text behind it; the first one may be a closing bracket. -/
def members : Nat → Bool → List Char → Except String (List Pattern.Listed × List Char)
  | 0, _, _ => .error "Unmatched [, [^, [:, [., or [="
  | fuel + 1, isFirst, s => do
    match s, isFirst with
    | ']' :: rest, false => return ([], rest)
    | s, _ =>
      let (a, rest) ← member s
      match a, rest with
      | .range low _, '-' :: c :: more =>
        if c = ']' then
          let (ms, rest) ← members fuel false rest
          return (a :: ms, rest)
        else
          match ← member (c :: more) with
          | (.range high _, rest) =>
            if high < low then throw "Invalid range end"
            let (ms, rest) ← members fuel false rest
            return (.range low high :: ms, rest)
          | (.named _, _) => throw "Invalid range end"
      | _, _ =>
        let (ms, rest) ← members fuel false rest
        return (a :: ms, rest)

/-- A bracket, after the character that opens it. -/
def bracket (s : List Char) : Except String (Node × List Char) := do
  let (isNegated, s) := match s with
    | '^' :: s => (true, s)
    | s => (false, s)
  let (ms, rest) ← members (s.length + 1) true s
  return (.among isNegated ms, rest)

/-! ## Repetitions -/

/-- The bounds of an interval and the text behind it. -/
def interval? (d : Dialect) (s : List Char) : Except String (Nat × Option Nat × List Char) := do
  let least := s.takeWhile isDigit
  let rest := s.drop least.length
  let (most, rest) : Option (List Char) × List Char := match rest with
    | ',' :: more => (some (more.takeWhile isDigit), more.dropWhile isDigit)
    | rest => (none, rest)
  match past? d '}' rest with
  | none => throw (if rest.isEmpty then "Unmatched \\\x7b" else "Invalid content of \\\x7b\\\x7d")
  | some rest =>
    let low := digitsValue least
    match most with
    | none =>
      if least.isEmpty then throw "Invalid content of \\\x7b\\\x7d"
      else return (low, some low, rest)
    | some [] => return (low, none, rest)
    | some ds =>
      if digitsValue ds < low then throw "Invalid content of \\\x7b\\\x7d"
      else return (low, some (digitsValue ds), rest)

/-- The text starts with one or two numbers and a closing brace. -/
def isInterval (s : List Char) : Bool :=
  let rest := s.dropWhile isDigit
  let rest' := match rest with
    | ',' :: more => more.dropWhile isDigit
    | rest => rest
  rest'.head? = some '}' && s.head? ≠ some '}'

/-- A node with the repetitions that follow it. -/
def repetitions (d : Dialect) : Nat → Node → List Char → Except String (Node × List Char)
  | 0, a, s => .ok (a, s)
  | fuel + 1, a, s => do
    match s with
    | '*' :: rest => repetitions d fuel (.repeated 0 none a) rest
    | s =>
      match past? d '+' s, past? d '?' s, past? d '{' s with
      | some rest, _, _ => repetitions d fuel (.repeated 1 none a) rest
      | _, some rest, _ => repetitions d fuel (.repeated 0 (some 1) a) rest
      | _, _, some rest =>
        if d = .extended ∧ !isInterval rest then return (a, s)
        else
          let (least, most, rest) ← interval? d rest
          repetitions d fuel (.repeated least most a) rest
      | _, _, _ => return (a, s)

/-! ## The whole -/

/-- What a letter after a backslash stands for, in both dialects. -/
def letter? : Char → Option Node
  | '<' => some (.edge .wordStart)
  | '>' => some (.edge .wordEnd)
  | 'b' => some (.edge .wordEdge)
  | 'B' => some (.edge .noWordEdge)
  | '\x60' => some (.edge .lineStart)
  | '\'' => some (.edge .lineEnd)
  | 'w' => some (.among false [.named "alnum", .range '_' '_'])
  | 'W' => some (.among true [.named "alnum", .range '_' '_'])
  | 's' => some (.among false [.named "space"])
  | 'S' => some (.among true [.named "space"])
  | _ => none

/-- A mark that repeats what stands before it, where nothing does. -/
def leadingMark? (d : Dialect) (s : List Char) : Option (List Char) :=
  match d, s with
  | .extended, c :: rest => if c = '*' ∨ c = '+' ∨ c = '?' then some rest else none
  | _, _ => none

mutual

/-- Alternatives, up to the end of the text or of the group. -/
def alternatives (d : Dialect) : Nat → Nat → Progress → Except String (Node × Progress)
  | 0, _, _ => .error "Regular expression too big"
  | fuel + 1, depth, p => do
    let (a, p) ← branch d fuel depth true p
    match past? d '|' p.rest with
    | some rest =>
      let (b, p) ← alternatives d fuel depth { p with rest }
      return (.either a b, p)
    | none => return (a, p)

/-- A row of pieces. -/
def branch (d : Dialect) : Nat → Nat → Bool → Progress → Except String (Node × Progress)
  | 0, _, _, _ => .error "Regular expression too big"
  | fuel + 1, depth, isFirst, p => do
    if endsBranch d depth p.rest then return (.empty, p)
    match if isFirst then leadingMark? d p.rest else none with
    | some rest => branch d fuel depth true { p with rest }
    | none =>
      let (a, p) ← piece d fuel depth isFirst p
      let isAnchor := match a with
        | .edge .lineStart => true
        | _ => false
      let (b, p) ← branch d fuel depth isAnchor p
      return (.sequence a b, p)

/-- One piece with its repetitions. -/
def piece (d : Dialect) : Nat → Nat → Bool → Progress → Except String (Node × Progress)
  | 0, _, _, _ => .error "Regular expression too big"
  | fuel + 1, depth, isFirst, p => do
    let followed (a : Node) (p : Progress) : Except String (Node × Progress) := do
      let (a, rest) ← repetitions d (p.rest.length + 1) a p.rest
      return (a, { p with rest })
    match past? d '(' p.rest with
    | some rest =>
      let number := p.groups + 1
      let (a, p) ← alternatives d fuel (depth + 1) ⟨rest, number⟩
      match past? d ')' p.rest with
      | some rest => followed (.group number a) { p with rest }
      | none => throw "Unmatched ( or \\("
    | none =>
      match p.rest with
      | [] => return (.empty, p)
      | '[' :: rest =>
        let (a, rest) ← bracket rest
        followed a { p with rest }
      | '.' :: rest => followed .anyChar { p with rest }
      | '^' :: rest =>
        if d = .extended ∨ isFirst then return (.edge .lineStart, { p with rest })
        else followed (.exactly '^') { p with rest }
      | '$' :: rest =>
        if d = .extended ∨ endsBranch d depth rest then followed (.edge .lineEnd) { p with rest }
        else followed (.exactly '$') { p with rest }
      | '*' :: rest => followed (.exactly '*') { p with rest }
      | ['\\'] => throw "Trailing backslash"
      | '\\' :: c :: rest =>
        let p := { p with rest }
        match letter? c with
        | some a => followed a p
        | none =>
          if isDigit c ∧ c ≠ '0' then
            let n := c.toNat - '0'.toNat
            if p.groups < n then throw "Invalid back reference" else followed (.back n) p
          else if d = .basic ∧ c = '{' then throw "Invalid preceding regular expression"
          else followed (.exactly c) p
      | c :: rest => followed (.exactly c) { p with rest }

end

/-- Reads a regular expression. -/
def ofText (d : Dialect) (s : List Char) : Except String Regex := do
  let (node, p) ← alternatives d (4 * s.length + 8) 0 ⟨s, 0⟩
  if p.rest.isEmpty then return ⟨node, p.groups⟩ else throw "Unmatched ) or \\)"

/-- A text as a regular expression for itself. -/
def literal (s : List Char) : Regex :=
  ⟨s.foldr (fun c n => .sequence (.exactly c) n) .empty, 0⟩

end ServiceCall.Shell.Regex
