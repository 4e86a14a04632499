import ServiceCall.Shell.Condition
import ServiceCall.Shell.Print
import ServiceCall.Shell.Utility.Path
import ServiceCall.Shell.Regex
/-!
# Programs that evaluate their arguments

Texts and formats printed, conditions, and expressions of integers and texts.
-/

namespace ServiceCall.Shell.Utility

/-- Always succeeds, or always fails. -/
def constant (status : Nat) : Utility := fun _ _ => return .code status

/-- Waits; no time passes here. -/
def sleep : Utility := withOptions ⟨"", []⟩ true 1 fun _ name g => do
  let isTime (s : String) : Bool :=
    let rest := s.toList.dropWhile fun c => isDigit c || c = '.'
    rest.length < s.length && (rest.isEmpty || (rest.length = 1 && "smhd".toList.contains
      (rest.headD 's')))
  if g.operands.isEmpty then misuse name 1 "missing operand"
  else match g.operands.filter fun s => !isTime s with
    | [] => return .code 0
    | wrong =>
      for s in wrong do Work.complain (name ++ ": invalid time interval " ++ quoted s)
      tryHelp name
      return .code 1

/-! ## Texts -/

/-- The options that arguments of `echo` start with, as letters, and the texts behind. -/
def echoOptions : List String → List Char × List String
  | [] => ([], [])
  | a :: rest =>
    match a.toList with
    | '-' :: c :: cs =>
      if (c :: cs).all fun d => "neE".toList.contains d then
        let (os, rest) := echoOptions rest
        (c :: cs ++ os, rest)
      else ([], a :: rest)
    | _ => ([], a :: rest)

/-- Writes its arguments. -/
def echo : Utility := fun _ args => do
  let (os, texts) := echoOptions (args.drop 1)
  let line := (" ".intercalate texts).toList
  let readsEscapes : Bool := (os.filter (· ≠ 'n')).getLast? = some 'e'
  let (s, isEnd) := if readsEscapes then Print.unescape line else (line, false)
  Work.put (if os.contains 'n' ∨ isEnd then s else s ++ ['\n'])
  return .code 0

/-- The text of a fault in a format or an argument. -/
def faultText : Print.Fault → String
  | .number a .notNumeric => quoted a ++ ": expected a numeric value"
  | .number a .notWhole => quoted a ++ ": value not completely converted"
  | .number a .tooLarge => quoted a ++ ": Numerical result out of range"
  | .directive text => text ++ ": invalid conversion specification"
  | .unfinished text => text ++ ": invalid conversion specification"

/-- Writes its arguments as a format says. -/
def printf : Utility := fun _ args => do
  let name := args.headD ""
  let operands := match args.drop 1 with
    | "--" :: rest => rest
    | rest => rest
  match operands with
  | [] => misuse name 1 "missing operand"
  | format :: args =>
    let p := Print.printf format args
    for f in p.faults.reverse do Work.complain (name ++ ": " ++ faultText f)
    Work.put p.text
    if let extra :: _ := p.arguments then
      unless p.isEnded do
        Work.complain (name ++ ": warning: ignoring excess arguments, starting with " ++
          quoted extra)
    return .code (min p.status 1)

/-! ## Conditions -/

/-- Why words are no condition. -/
def conditionFault (words : List String) (message : String) : String :=
  let number := "Illegal number: "
  if number.toList.isPrefixOf message.toList then
    "invalid integer " ++ quoted (String.ofList (message.toList.drop number.length))
  else match words with
    | [_, b] => "missing argument after " ++ quoted b
    | [_, b, _] => quoted b ++ ": binary operator expected"
    | _ :: b :: _ => "extra argument " ++ quoted b
    | ws => "missing argument after " ++ quoted (ws.headD "")

/-- Tells by its status whether a condition holds. -/
def condition (name : String) (words : List String) : Work ExitStatus := do
  match Condition.holds (← get).disk words with
  | .ok b => return .code (if b then 0 else 1)
  | .error message =>
    Work.complain (name ++ ": " ++ conditionFault words message)
    return .code 2

/-- Tells whether its arguments hold. -/
def test : Utility := fun _ args => condition (args.headD "") (args.drop 1)

/-- The same with a closing bracket. -/
def bracket : Utility := fun _ args => do
  let name := args.headD ""
  let words := args.drop 1
  if words.getLast? = some "]" then condition name words.dropLast
  else
    Work.complain (name ++ ": missing " ++ quoted "]")
    return .code 2

/-! ## Expressions -/

namespace Expression

/-- The integer that a text is. -/
def integer? (s : String) : Option Int :=
  match s.toList with
  | '-' :: ds => if !ds.isEmpty && ds.all isDigit then some (-(digitsValue ds : Int)) else none
  | ds => if !ds.isEmpty && ds.all isDigit then some (digitsValue ds) else none

/-- A text that counts as false: empty or zero. -/
def isNull (s : String) : Bool :=
  s.isEmpty || (match integer? s with
    | some n => n == 0
    | none => false)

/-- How tightly an operator binds, from the loosest on. -/
def level? (op : String) : Option Nat :=
  match op with
  | "|" => some 0
  | "&" => some 1
  | "<" | "<=" | "=" | "==" | "!=" | ">=" | ">" => some 2
  | "+" | "-" => some 3
  | "*" | "/" | "%" => some 4
  | ":" => some 5
  | _ => none

/-- What a comparison says of an order. -/
def compares (op : String) (o : Ordering) : Bool :=
  match op with
  | "<" => o == .lt
  | "<=" => o != .gt
  | "=" | "==" => o == .eq
  | "!=" => o != .eq
  | ">=" => o != .lt
  | _ => o == .gt

/-- What a text is matched for: the group of a pattern, or else how many characters fit. -/
def matched (s pattern : String) : Except String String := do
  let r ← Regex.ofText .basic pattern.toList
  let found := r.matchHere false [] s.toList
  if r.groups = 0 then
    return match found with
      | some m => toString m.text.length
      | none => "0"
  else
    return match found with
      | some m => String.ofList ((m.group? 1).getD [])
      | none => ""

/-- The value of two operands. -/
def binary (op a b : String) : Except String String := do
  let arithmetic (f : Int → Int → Except String Int) : Except String String :=
    match integer? a, integer? b with
    | some x, some y => do return toString (← f x y)
    | _, _ => throw "non-integer argument"
  let nonzero (y : Int) (r : Int) : Except String Int :=
    if y = 0 then throw "division by zero" else return r
  match op with
  | "|" => return if !isNull a then a else if !isNull b then b else "0"
  | "&" => return if isNull a || isNull b then "0" else a
  | "+" => arithmetic fun x y => return x + y
  | "-" => arithmetic fun x y => return x - y
  | "*" => arithmetic fun x y => return x * y
  | "/" => arithmetic fun x y => nonzero y (x.tdiv y)
  | "%" => arithmetic fun x y => nonzero y (x.tmod y)
  | ":" => matched a b
  | op =>
    let o := match integer? a, integer? b with
      | some x, some y => compare x y
      | _, _ => compare a b
    return if compares op o then "1" else "0"

mutual

/-- The value of what starts some words, and the words behind it; operators that bind less
tightly than a level are left. The last word read is known for messages. -/
def value : Nat → Nat → String → List String → Except String (String × List String)
  | 0, _, _, ws => .ok ("", ws)
  | fuel + 1, level, last, ws =>
    if 6 ≤ level then operand fuel last ws
    else do
      let (a, rest) ← value fuel (level + 1) last ws
      further fuel level a rest

/-- Goes on with operators of a level. -/
def further : Nat → Nat → String → List String → Except String (String × List String)
  | 0, _, a, ws => .ok (a, ws)
  | fuel + 1, level, a, ws =>
    match ws with
    | op :: rest =>
      if level? op = some level then do
        let (b, rest) ← value fuel (level + 1) op rest
        further fuel level (← binary op a b) rest
      else .ok (a, ws)
    | [] => .ok (a, [])

/-- The value of an operand. -/
def operand : Nat → String → List String → Except String (String × List String)
  | 0, _, ws => .ok ("", ws)
  | fuel + 1, last, ws => do
    match ws with
    | [] => throw ("syntax error: missing argument after " ++ quoted last)
    | "(" :: rest =>
      let (a, rest) ← value fuel 0 "(" rest
      match rest with
      | ")" :: rest => return (a, rest)
      | [] => throw ("syntax error: expecting ')' after " ++ quoted a)
      | w :: _ => throw ("syntax error: expecting ')' instead of " ++ quoted w)
    | ")" :: _ => throw "syntax error: unexpected ')'"
    | "length" :: rest =>
      let (a, rest) ← operand fuel "length" rest
      return (toString a.length, rest)
    | "match" :: rest =>
      let (a, rest) ← operand fuel "match" rest
      let (b, rest) ← operand fuel "match" rest
      return (← matched a b, rest)
    | "index" :: rest =>
      let (a, rest) ← operand fuel "index" rest
      let (b, rest) ← operand fuel "index" rest
      let before := a.toList.takeWhile fun c => !b.toList.contains c
      return (if before.length = a.length then "0" else toString (before.length + 1), rest)
    | "substr" :: rest =>
      let (a, rest) ← operand fuel "substr" rest
      let (p, rest) ← operand fuel "substr" rest
      let (n, rest) ← operand fuel "substr" rest
      match integer? p, integer? n with
      | some p, some n =>
        if p ≤ 0 ∨ n ≤ 0 then return ("", rest)
        else return (String.ofList ((a.toList.drop (p.toNat - 1)).take n.toNat), rest)
      | _, _ => return ("", rest)
    | "+" :: w :: rest => return (w, rest)
    | w :: rest => return (w, rest)

end

end Expression

/-- Evaluates an expression; an empty or zero value makes the status. -/
def expr : Utility := fun _ args => do
  let name := args.headD ""
  let words := match args.drop 1 with
    | "--" :: rest => rest
    | rest => rest
  match words with
  | [] => misuse name 2 "missing operand"
  | words =>
    let result : Except String String := do
      let (a, rest) ← Expression.value (20 * words.length + 20) 0 "" words
      match rest with
      | [] => return a
      | w :: _ => throw ("syntax error: unexpected argument " ++ quoted w)
    match result with
    | .ok a =>
      Work.say a
      return .code (if Expression.isNull a then 1 else 0)
    | .error message =>
      Work.complain (name ++ ": " ++ message)
      return .code 2

end ServiceCall.Shell.Utility
