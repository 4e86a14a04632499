import ServiceCall.Disk.Basic
import ServiceCall.Shell.Arithmetic
import ServiceCall.Text.Octets
/-!
# Conditions

What `test` and `[` say about texts, integers and files. A row of words is a condition by
its length first, so that words which look like operators can still be operands.
-/

namespace ServiceCall.Shell.Condition

/-- What a word is in a condition. -/
inductive Kind where
  | unary
  | binary
  | and
  | or
  | not
  | opening
  | closing
  | operand
  | ended
  deriving DecidableEq, Repr

/-- The kind of operator that a word can be. -/
def operator? (s : String) : Option Kind :=
  match s with
  | "!" => some .not
  | "(" => some .opening
  | ")" => some .closing
  | "-a" => some .and
  | "-o" => some .or
  | _ =>
    if ["-r", "-w", "-x", "-e", "-f", "-d", "-c", "-b", "-p", "-u", "-g", "-k", "-s", "-t", "-z",
      "-n", "-h", "-L", "-O", "-G", "-S"].contains s then some .unary
    else if ["=", "!=", "<", ">", "-eq", "-ne", "-ge", "-gt", "-le", "-lt", "-nt", "-ot",
      "-ef"].contains s then some .binary
    else none

/-- An operator that compares two operands. -/
def joins (s : String) : Bool := operator? s = some .binary

/-- What the first of some words is. -/
def kind (ws : List String) : Kind :=
  match ws with
  | [] => .ended
  | w :: rest =>
    let isOperand := match rest with
      | [] => true
      | [_] => false
      | s :: _ => joins s
    match operator? w with
    | some .unary => if isOperand then .operand else .unary
    | some .opening => if rest.isEmpty then .operand else .opening
    | some k => k
    | none => .operand

/-- The integer a word is. -/
def integer (s : String) : Except String Int :=
  let cs := s.toList.dropWhile Arithmetic.isWhite
  let (isNegative, ds) := match cs with
    | '-' :: rest => (true, rest)
    | '+' :: rest => (false, rest)
    | cs => (false, cs)
  let digits := ds.takeWhile isDigit
  if digits.isEmpty ∨ !(ds.dropWhile isDigit).all Arithmetic.isWhite then
    .error ("Illegal number: " ++ s)
  else
    let n : Int := digitsValue digits
    .ok (if isNegative then -n else n)

/-- What an operator says of its operand. -/
def unary (d : Disk) (op s : String) : Except String Bool := do
  let held? := (d.entry s).toOption
  match op with
  | "-n" => return !s.isEmpty
  | "-z" => return s.isEmpty
  | "-d" => return d.isDirectory s
  | "-f" => return (held?.map (·.isFile)).getD false && s ≠ "/dev/null"
  | "-s" => return match held? with
    | some (.file content _) => !content.isEmpty
    | some .special => false
    | some _ => true
    | none => false
  | "-x" => return match held? with
    | some (.file _ executable) => executable
    | some _ => true
    | none => false
  | "-h" | "-L" => return match d.linkEntry s with
    | .ok (_, .link _) => true
    | _ => false
  | "-c" => return s = "/dev/null"
  | "-t" =>
    let _ ← integer s
    return false
  | "-S" => return held? = some .special
  | "-b" | "-p" | "-u" | "-g" | "-k" => return false
  | _ => return held?.isSome

/-- What an operator says of two operands. -/
def binary (d : Disk) (op a b : String) : Except String Bool := do
  let there (s : String) : Bool := d.pathExists s
  let compare (f : Int → Int → Bool) : Except String Bool := do
    return f (← integer a) (← integer b)
  match op with
  | "=" => return a = b
  | "!=" => return a ≠ b
  | "<" => return a < b
  | ">" => return b < a
  | "-eq" => compare (· == ·)
  | "-ne" => compare (· != ·)
  | "-lt" => compare (· < ·)
  | "-le" => compare (· ≤ ·)
  | "-gt" => compare (· > ·)
  | "-ge" => compare (· ≥ ·)
  | "-nt" => return there a && !there b
  | "-ot" => return !there a && there b
  | "-ef" =>
    let place (s : String) : Option Location :=
      (d.follow true s).toOption.map (·.location)
    return there a && place a = place b
  | _ => return false

/-- The message about a word, if there is one. -/
def about (word message : String) : String :=
  if word.isEmpty then message else word ++ ": " ++ message

/-- What a part of a condition says, and the words from its last one on. -/
abbrev Judged := Except String (Bool × List String)

mutual

/-- Conditions joined by `-o`. -/
def disjunction (d : Disk) : Nat → Kind → List String → Judged
  | 0, _, ws => .ok (false, ws)
  | fuel + 1, k, ws => do
    let (a, ws) ← conjunction d fuel k ws
    if kind (ws.drop 1) = .or then
      let ws := ws.drop 2
      let (b, ws) ← disjunction d fuel (kind ws) ws
      return (a || b, ws)
    else return (a, ws)

/-- Conditions joined by `-a`. -/
def conjunction (d : Disk) : Nat → Kind → List String → Judged
  | 0, _, ws => .ok (false, ws)
  | fuel + 1, k, ws => do
    let (a, ws) ← negation d fuel k ws
    if kind (ws.drop 1) = .and then
      let ws := ws.drop 2
      let (b, ws) ← conjunction d fuel (kind ws) ws
      return (a && b, ws)
    else return (a, ws)

/-- A condition with any number of exclamation marks in front. -/
def negation (d : Disk) : Nat → Kind → List String → Judged
  | 0, _, ws => .ok (false, ws)
  | fuel + 1, k, ws => do
    if k = .not then
      let k := kind (ws.drop 1)
      let (a, ws) ← negation d fuel k (if k = .ended then ws else ws.drop 1)
      return (!a, ws)
    else primary d fuel k ws

/-- A condition of one operator, one in parentheses, or a word that is not empty. -/
def primary (d : Disk) : Nat → Kind → List String → Judged
  | 0, _, ws => .ok (false, ws)
  | fuel + 1, k, ws => do
    match k, ws with
    | .ended, ws => return (false, ws)
    | .opening, _ :: rest =>
      let k := kind rest
      if k = .closing then return (false, rest)
      else
        let (a, ws) ← disjunction d fuel k rest
        let ws := ws.drop 1
        if kind ws = .closing then return (a, ws) else throw "closing paren expected"
    | .unary, op :: rest =>
      match rest with
      | [] => throw (about op "argument expected")
      | s :: _ => return (← unary d op s, rest)
    | _, a :: op :: rest =>
      let isJoining := match kind (op :: rest) with
        | .binary => true
        | _ => false
      if isJoining then
        match rest with
        | [] => throw (about op "argument expected")
        | b :: _ => return (← binary d op a b, rest)
      else return (!a.isEmpty, ws)
    | _, ws => return (!(ws.headD "").isEmpty, ws)

end

/-- A condition of any number of words. -/
def whole (d : Disk) (k : Kind) (ws : List String) : Except String Bool := do
  let (a, rest) ← disjunction d (4 * ws.length + 8) k ws
  match rest with
  | w :: _ :: _ => throw (about w "unexpected operator")
  | _ => return a

/-- What words say. -/
def holds (d : Disk) : List String → Except String Bool
  | [] => return false
  | [a, op, b] =>
    if (joins op : Bool) then whole d .operand [a, op, b]
    else if a = "(" ∧ b = ")" then whole d (kind [op]) [op]
    else if a = "!" then do return !(← holds d [op, b])
    else whole d (kind [a, op, b]) [a, op, b]
  | [a, b, c, e] =>
    if a = "(" ∧ e = ")" then whole d (kind [b, c]) [b, c]
    else if a = "!" then do return !(← holds d [b, c, e])
    else whole d (kind [a, b, c, e]) [a, b, c, e]
  | ws => whole d (kind ws) ws

end ServiceCall.Shell.Condition
