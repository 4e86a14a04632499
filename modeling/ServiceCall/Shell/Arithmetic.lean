import ServiceCall.Number.Literal
/-!
# Arithmetic

Expressions over 64-bit integers that wrap around, with variables, comparisons, logical
operators that do not look at what cannot matter, and assignments.
-/

namespace ServiceCall.Shell

/-- An arithmetic expression. -/
inductive Arithmetic where
  | number (n : Int)
  | var (name : String)
  | minus (e : Arithmetic)
  | not (e : Arithmetic)
  | complement (e : Arithmetic)
  | binary (operator : String) (a b : Arithmetic)
  | both (a b : Arithmetic)
  | either (a b : Arithmetic)
  | ifElse (condition yes no : Arithmetic)
  | assign (name operator : String) (e : Arithmetic)
  deriving Repr, Inhabited

namespace Arithmetic

/-- Why an expression has no value. -/
inductive Fault where
  /-- The expression is at fault; the message goes in front of its text. -/
  | expression (message : String)
  | illegalNumber (text : String)
  | constant (name : String)
  deriving DecidableEq, Repr

/-! ## Numbers -/

/-- The nearest integer of 64 bits. -/
def clamp (n : Int) : Int :=
  max (-0x8000000000000000) (min 0x7fffffffffffffff n)

/-- The integer of 64 bits with the same bits at its end. -/
def wrap (n : Int) : Int := Int.bmod n 0x10000000000000000

/-- The value of a digit of any base. -/
def digitValue (c : Char) : Nat :=
  if isDigit c then c.toNat - '0'.toNat
  else if 'a' ≤ c ∧ c ≤ 'z' then c.toNat - 'a'.toNat + 10
  else if 'A' ≤ c ∧ c ≤ 'Z' then c.toNat - 'A'.toNat + 10
  else 36

/-- The value of digits of a base. -/
def value (base : Nat) (ds : List Char) : Nat :=
  ds.foldl (fun n c => n * base + digitValue c) 0

/-- A number without sign that a text starts with: hexadecimal after `0x`, octal after
`0`, else decimal. -/
def unsigned? (s : List Char) : Option (Nat × List Char) :=
  let ofBase (base : Nat) (s : List Char) : Option (Nat × List Char) :=
    match s.span fun c => digitValue c < base with
    | ([], _) => none
    | (ds, rest) => some (value base ds, rest)
  match s with
  | '0' :: x :: d :: rest =>
    if (x = 'x' ∨ x = 'X') ∧ digitValue d < 16 then ofBase 16 (d :: rest) else ofBase 8 s
  | '0' :: _ => ofBase 8 s
  | _ => ofBase 10 s

/-- A white character. -/
def isWhite (c : Char) : Bool := " \t\n\x0b\x0c\r".toList.contains c

/-- The integer a text stands for, blanks around it aside. An empty text is zero. -/
def integer? (s : List Char) : Option Int :=
  let s := s.dropWhile isWhite
  if s.isEmpty then some 0
  else
    let (isNegative, digits) := match s with
      | '-' :: rest => (true, rest)
      | '+' :: rest => (false, rest)
      | s => (false, s)
    match unsigned? digits with
    | some (n, rest) =>
      if rest.all isWhite then some (clamp (if isNegative then -(n : Int) else n)) else none
    | none => none

/-! ## Reading -/

/-- A token of an expression. -/
inductive Token where
  | number (n : Int)
  | name (s : String)
  | operator (s : String)
  /-- A character that is part of none. -/
  | foreign
  deriving DecidableEq, Repr

/-- The operators, longer ones first. -/
def operators : List String :=
  ["<<=", ">>=", "<<", ">>", "<=", ">=", "==", "!=", "&&", "||", "+=", "-=", "*=", "/=", "%=", "&=",
    "^=", "|=", "=", "<", ">", "+", "-", "*", "/", "%", "&", "^", "|", "!", "~", "?", ":", "(", ")"]

/-- The tokens of a text. -/
def tokens : Nat → List Char → List Token
  | 0, _ => []
  | _ + 1, [] => []
  | fuel + 1, c :: rest =>
    let s := c :: rest
    if isWhite c then tokens fuel rest
    else if isDigit c then
      match unsigned? s with
      | some (n, rest) => .number (clamp n) :: tokens fuel rest
      | none => [.foreign]
    else if c.isAlpha ∨ c = '_' then
      let isPart (c : Char) : Bool := c.isAlphanum || c = '_'
      .name (String.ofList (s.takeWhile isPart)) :: tokens fuel (s.dropWhile isPart)
    else match operators.find? fun op => op.toList.isPrefixOf s with
      | some op => .operator op :: tokens fuel (s.drop op.length)
      | none => [.foreign]

/-- How tightly a binary operator binds, the tightest first. -/
def level? (op : String) : Option Nat :=
  ([["*", "/", "%"], ["+", "-"], ["<<", ">>"], ["<", "<=", ">", ">="], ["==", "!="], ["&"], ["^"],
    ["|"]] : List (List String)).findIdx? fun ops => ops.contains op

/-- The number of levels. -/
def levels : Nat := 8

def expected (what : String) : Except Fault α := .error (.expression ("expecting " ++ what))

/-- What readers of parts of an expression give: the part and the tokens after it. -/
abbrev Parsed := Except Fault (Arithmetic × List Token)

/-- Operands of one level joined from the left. -/
def joined (operand : List Token → Parsed) (level : Nat) : Nat → Arithmetic → List Token → Parsed
  | 0, a, ts => .ok (a, ts)
  | fuel + 1, a, ts =>
    match ts with
    | .operator op :: rest =>
      if level? op = some level then do
        let (b, ts) ← operand rest
        joined operand level fuel (.binary op a b) ts
      else .ok (a, ts)
    | _ => .ok (a, ts)

/-- Binary operators of a number of levels. -/
def binaries (primary : List Token → Parsed) : Nat → List Token → Parsed
  | 0, ts => primary ts
  | n + 1, ts => do
    let (a, ts) ← binaries primary n ts
    joined (binaries primary n) n ts.length a ts

mutual

/-- A number, a variable, an operator in front, or an expression in parentheses. -/
def primary : Nat → List Token → Parsed
  | 0, _ => expected "primary"
  | fuel + 1, ts =>
    match ts with
    | .number n :: rest => .ok (.number n, rest)
    | .name s :: rest => .ok (.var s, rest)
    | .operator "(" :: rest => do
      let (e, ts) ← assignment fuel rest
      match ts with
      | .operator ")" :: rest => return (e, rest)
      | _ => expected "')'"
    | .operator "+" :: rest => primary fuel rest
    | .operator "-" :: rest => do
      let (e, ts) ← primary fuel rest
      return (.minus e, ts)
    | .operator "!" :: rest => do
      let (e, ts) ← primary fuel rest
      return (.not e, ts)
    | .operator "~" :: rest => do
      let (e, ts) ← primary fuel rest
      return (.complement e, ts)
    | _ => expected "primary"

/-- Operands joined by `&&`. -/
def conjunction : Nat → List Token → Parsed
  | 0, _ => expected "primary"
  | fuel + 1, ts => do
    let (a, ts) ← binaries (primary fuel) levels ts
    match ts with
    | .operator "&&" :: rest =>
      let (b, ts) ← conjunction fuel rest
      return (.both a b, ts)
    | ts => return (a, ts)

/-- Operands joined by `||`. -/
def disjunction : Nat → List Token → Parsed
  | 0, _ => expected "primary"
  | fuel + 1, ts => do
    let (a, ts) ← conjunction fuel ts
    match ts with
    | .operator "||" :: rest =>
      let (b, ts) ← disjunction fuel rest
      return (.either a b, ts)
    | ts => return (a, ts)

/-- A choice between two values. -/
def conditional : Nat → List Token → Parsed
  | 0, _ => expected "primary"
  | fuel + 1, ts => do
    let (a, ts) ← disjunction fuel ts
    match ts with
    | .operator "?" :: rest =>
      let (b, ts) ← assignment fuel rest
      match ts with
      | .operator ":" :: rest =>
        let (c, ts) ← conditional fuel rest
        return (.ifElse a b c, ts)
      | _ => expected "':'"
    | ts => return (a, ts)

/-- An assignment or a value. -/
def assignment : Nat → List Token → Parsed
  | 0, _ => expected "primary"
  | fuel + 1, ts =>
    match ts with
    | .name s :: .operator op :: rest =>
      let update := String.ofList (op.toList.dropLast)
      if op.toList.getLast? = some '=' ∧ (op = "=" ∨ (level? update).isSome ∧ level? op = none)
      then do
        let (e, ts) ← assignment fuel rest
        return (.assign s update e, ts)
      else conditional fuel ts
    | ts => conditional fuel ts

end

/-- Reads an expression. -/
def parse (s : List Char) : Except Fault Arithmetic := do
  let ts := tokens (s.length + 1) s
  let (e, rest) ← assignment (8 * ts.length + 16) ts
  if rest.isEmpty then return e else expected "EOF"

/-! ## Values -/

/-- The value of an operator between two integers. -/
def apply (op : String) (a b : Int) : Except Fault Int :=
  let ofBool (b : Bool) : Except Fault Int := .ok (if b then 1 else 0)
  let bits (f : BitVec 64 → BitVec 64 → BitVec 64) : Except Fault Int :=
    .ok (f (BitVec.ofInt 64 a) (BitVec.ofInt 64 b)).toInt
  let amount : Nat := (b % 64).toNat
  match op with
  | "*" => .ok (wrap (a * b))
  | "/" => if b = 0 then .error (.expression "division by zero") else .ok (wrap (Int.tdiv a b))
  | "%" => if b = 0 then .error (.expression "division by zero") else .ok (Int.tmod a b)
  | "+" => .ok (wrap (a + b))
  | "-" => .ok (wrap (a - b))
  | "<<" => .ok ((BitVec.ofInt 64 a).shiftLeft amount).toInt
  | ">>" => .ok ((BitVec.ofInt 64 a).sshiftRight amount).toInt
  | "<" => ofBool (a < b)
  | "<=" => ofBool (a ≤ b)
  | ">" => ofBool (a > b)
  | ">=" => ofBool (a ≥ b)
  | "==" => ofBool (a = b)
  | "!=" => ofBool (a ≠ b)
  | "&" => bits (· &&& ·)
  | "^" => bits (· ^^^ ·)
  | "|" => bits (· ||| ·)
  | _ => .ok b

/-- The variables an expression sees: their texts, and which of them cannot be changed. -/
structure Scope where
  value? : String → Option String
  isConstant : String → Bool

/-- The values that were assigned, the last one first. -/
abbrev Assigned := List (String × Int)

/-- The integer a variable holds. -/
def lookup (scope : Scope) (name : String) : StateT Assigned (Except Fault) Int := do
  match (← get).lookup name with
  | some n => return n
  | none =>
    let text := (scope.value? name).getD ""
    match integer? text.toList with
    | some n => return n
    | none => throw (.illegalNumber text)

/-- The value of an expression. -/
def eval (scope : Scope) : Arithmetic → StateT Assigned (Except Fault) Int
  | number n => return n
  | var name => lookup scope name
  | minus e => do return wrap (-(← eval scope e))
  | not e => do return if (← eval scope e) = 0 then 1 else 0
  | complement e => do return -(← eval scope e) - 1
  | binary op a b => do
    let a ← eval scope a
    let b ← eval scope b
    apply op a b
  | both a b => do
    if (← eval scope a) = 0 then return 0
    return if (← eval scope b) = 0 then 0 else 1
  | either a b => do
    if (← eval scope a) ≠ 0 then return 1
    return if (← eval scope b) = 0 then 0 else 1
  | ifElse c a b => do
    if (← eval scope c) ≠ 0 then eval scope a else eval scope b
  | assign name op e => do
    let n ← eval scope e
    let n ← if op.isEmpty then pure n else do
      let old ← lookup scope name
      apply op old n
    if scope.isConstant name then throw (.constant name)
    modify fun assigned => (name, n) :: assigned
    return n

end Arithmetic

end ServiceCall.Shell
