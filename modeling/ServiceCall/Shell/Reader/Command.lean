import ServiceCall.Shell.Reader.Word
/-!
# Reading commands

Lists, pipelines, compound and simple commands. `Reading.complete?` reads the next complete
command of a text, and none at its end.
-/

namespace ServiceCall.Shell.Reading

/-- The special builtin commands; no function can have such a name. -/
def specialBuiltins : List String :=
  [".", ":", "break", "continue", "eval", "exec", "exit", "export", "local", "readonly", "return",
    "set", "shift", "times", "trap", "unset"]

/-! ## Redirections -/

/-- The target of a redirection that has been announced. -/
def target (g : Grammar) (descriptor : Nat) (a : Arrow) : Reading Redirect := do
  let isMark := match a with
    | .document _ => true
    | _ => false
  modify fun s => { s with isMark }
  match ← token g with
  | .word w =>
    match a with
    | .file opening => return .file descriptor opening w
    | .duplicate =>
      match w.literalText.toList, w with
      | [c], [.literal _ _] =>
        if isDigit c then return .duplicate descriptor (digit? c)
        else if c = '-' then return .duplicate descriptor none
        else return .duplicateWord descriptor w
      | _, _ => return .duplicateWord descriptor w
    | .document stripTabs =>
      let index := (← get).nextDocument
      let d : Document := ⟨index, w.literalText, stripTabs, (Word.plain? w).isSome⟩
      modify fun s => { s with nextDocument := index + 1, waiting := s.waiting ++ [d] }
      return .document descriptor index
  | _ => unexpected none

/-- The redirections behind a compound command. -/
def redirects (g : Grammar) : Reading (List Redirect) := do
  allow false true
  repeating [] fun acc => do
    match ← token g with
    | .redirect descriptor a => return .inl (acc ++ [← target g descriptor a])
    | _ =>
      putBack
      return .inr acc

/-! ## Simple commands -/

/-- What has been read of a simple command. -/
structure SimpleParts where
  assignments : List (String × Word)
  words : List Word
  redirects : List Redirect

/-- A function; its name and the opening parenthesis have been taken. -/
def functionOf (g : Grammar) (name : Word) : Reading Script := do
  unless ← takeOperator g ")" do unexpected (some "\")\"")
  let name := name.literalText
  if !Name.isName name || specialBuiltins.contains name then fail "Bad function name"
  allow true true
  return .function name (← g.command)

/-- One step of reading a simple command. -/
def simpleStep (g : Grammar) (line : Nat) (s : SimpleParts) : Reading (SimpleParts ⊕ Script) := do
  modify fun t => { t with aliased := s.words.isEmpty }
  match ← token g with
  | .word w =>
    match Word.assignment? w, s.words with
    | some a, [] => return .inl { s with assignments := s.assignments ++ [a] }
    | _, _ => return .inl { s with words := s.words ++ [w] }
  | .redirect descriptor a =>
    let r ← target g descriptor a
    return .inl { s with redirects := s.redirects ++ [r] }
  | t =>
    match t.isOperator "(", s with
    | true, ⟨[], [name], []⟩ => return .inr (← functionOf g name)
    | _, _ =>
      putBack
      return .inr (.simple line s.assignments s.words s.redirects)

/-- A simple command, or the definition of a function. -/
def simple (g : Grammar) : Reading Script := do
  repeating ⟨[], [], []⟩ (simpleStep g (← get).line)

/-! ## Compound commands -/

/-- Takes a reserved word. -/
def expectKeyword (g : Grammar) (s : String) : Reading Unit := do
  unless (← token g).isKeyword s do unexpected (some ("\"" ++ s ++ "\""))

/-- The conditions and commands after `if`. -/
def branches (g : Grammar) : Reading Script := do
  let first ← g.list false
  expectKeyword g "then"
  let yes ← g.list false
  let (clauses, last) ← repeating [(first, yes)] fun acc => do
    match ← token g with
    | .keyword "elif" =>
      let condition ← g.list false
      expectKeyword g "then"
      return .inl (acc ++ [(condition, ← g.list false)])
    | .keyword "else" => return .inr (acc, ← g.list false)
    | _ =>
      putBack
      return .inr (acc, .nothing)
  expectKeyword g "fi"
  return clauses.foldr (fun (condition, yes) no => .branch condition yes no) last

/-- The rest of a loop after `while` or `until`. -/
def loop (g : Grammar) (untilHolds : Bool) : Reading Script := do
  let condition ← g.list false
  expectKeyword g "do"
  let body ← g.list false
  expectKeyword g "done"
  return .loop untilHolds condition body

/-- The rest of a loop after `for`. -/
def forEach (g : Grammar) (line : Nat) : Reading Script := do
  let name? := match ← token g with
    | .word w => w.plain?
    | _ => none
  match name? with
  | none => fail "Bad for loop variable"
  | some name =>
    unless Name.isName name do fail "Bad for loop variable"
    allow true true
    let words ← if (← token g).isKeyword "in" then
        let words ← repeating [] fun acc => do
          match ← token g with
          | .word w => return .inl (acc ++ [w])
          | .newline => return .inr acc
          | t => if t.isOperator ";" then return .inr acc else unexpected none
        pure words
      else do
        unless (← get).last.isOperator ";" do putBack
        pure [[.parameter true "@"]]
    allow true true
    expectKeyword g "do"
    let body ← g.list false
    expectKeyword g "done"
    return .forEach line name words body

/-- The patterns of an item, up to the closing parenthesis. -/
def patterns (g : Grammar) : Reading (List Word) := do
  repeating [] fun acc => do
    let w : Word := match (← get).last with
      | .word w => w
      | .keyword s => [.literal false s]
      | _ => []
    let acc := acc ++ [w]
    if (← token g).isOperator "|" then
      let _ ← token g
      return .inl acc
    else if (← get).last.isOperator ")" then return .inr acc
    else unexpected (some "\")\"")

/-- The rest of a choice after `case`. -/
def choose (g : Grammar) (line : Nat) : Reading Script := do
  match ← token g with
  | .word subject =>
    allow true true
    expectKeyword g "in"
    let items ← repeating [] fun acc => do
      allow true true
      let t ← token g
      if t.isKeyword "esac" then return .inr acc
      else
        if t.isOperator "(" then
          let _ ← token g
        let ps ← patterns g
        let body ← g.list true
        let acc := acc ++ [(ps, body)]
        allow true true
        let t ← token g
        if t.isKeyword "esac" then return .inr acc
        else if t.isOperator ";;" then return .inl acc
        else unexpected (some "\";;\"")
    return .choose line subject items
  | _ => unexpected (some "word")

/-- One command. -/
def commandFrom (g : Grammar) : Reading Script := do
  let line := (← get).line
  let compound (body : Reading Script) : Reading Script := do
    let body ← body
    let rs ← redirects g
    return if rs.isEmpty then body else .group line body rs
  match ← token g with
  | .keyword "if" => compound (branches g)
  | .keyword "while" => compound (loop g false)
  | .keyword "until" => compound (loop g true)
  | .keyword "for" => compound (forEach g line)
  | .keyword "case" => compound (choose g line)
  | .keyword "\x7b" => compound do
    let body ← g.list false
    expectKeyword g "\x7d"
    return body
  | .operator "(" =>
    let body ← g.list false
    unless ← takeOperator g ")" do unexpected (some "\")\"")
    return .subshell line body (← redirects g)
  | .word _ | .redirect _ _ =>
    putBack
    simple g
  | _ => unexpected none

/-! ## Lists -/

/-- Commands joined by pipes. -/
def pipeline (g : Grammar) : Reading Script := do
  let isNegated := (← token g).isKeyword "!"
  if isNegated then allow false true else putBack
  let first ← g.command
  let commands ← repeating [first] fun acc => do
    if ← takeOperator g "|" then
      allow true true
      return .inl (acc ++ [← g.command])
    else return .inr acc
  let body := match commands with
    | [c] => c
    | cs => .piped cs
  return if isNegated then .negated body else body

/-- Pipelines joined by `&&` and `||`, from the left. -/
def chain (g : Grammar) : Reading Script := do
  let first ← pipeline g
  repeating first fun acc => do
    let t ← token g
    if t.isOperator "&&" then
      allow true true
      return .inl (.both acc (← pipeline g))
    else if t.isOperator "||" then
      allow true true
      return .inl (.either acc (← pipeline g))
    else
      putBack
      return .inr acc

/-- The commands so far with one more behind them. -/
def follow : Option Script → Script → Script
  | none, c => c
  | some cs, c => .sequence cs c

/-- Commands up to a token that ends a list; it is put back. -/
def listFrom (g : Grammar) (mayBeEmpty : Bool) : Reading Script := do
  repeating none fun (acc : Option Script) => do
    allow true true
    let t ← token g
    let finish : Reading (Option Script ⊕ Script) := do
      putBack
      return .inr (acc.getD .nothing)
    if t.isEnded then
      readDocuments g
      finish
    else
      if (mayBeEmpty || acc.isSome) && t.endsList then finish
      else
        putBack
        let c ← chain g
        let t ← token g
        let acc := some (follow acc (if t.isOperator "&" then .background c else c))
        match t with
        | .newline =>
          putBack
          return .inl acc
        | .operator s =>
          if s = ";" ∨ s = "&" then return .inl acc
          else
            putBack
            return .inr (acc.getD .nothing)
        | .ended =>
          readDocuments g
          putBack
          return .inr (acc.getD .nothing)
        | _ =>
          putBack
          return .inr (acc.getD .nothing)

/-- The readers, down to a depth. -/
def grammar : Nat → Grammar
  | 0 => ⟨fun _ => fail "Too deep", fun _ => fail "Too deep", fail "Too deep"⟩
  | depth + 1 =>
    { word := fun e => wordFrom (grammar depth) e
      list := fun mayBeEmpty => listFrom (grammar depth) mayBeEmpty
      command := fun s => commandFrom (grammar depth) s }

/-- The next complete command; none at the end of the text. A command on a line of its own
is complete with that line. -/
def complete? : Reading (Option Script) := do
  modify fun s => { s with again := false, waiting := [] }
  let g := grammar (← get).limit
  repeating none fun (acc : Option Script) => do
    allow false true
    match ← token g with
    | .newline =>
      readDocuments g
      return .inr (some (acc.getD .nothing))
    | .ended =>
      readDocuments g
      putBack
      return .inr acc
    | _ =>
      putBack
      let c ← chain g
      let t ← token g
      let acc := some (follow acc (if t.isOperator "&" then .background c else c))
      match t with
      | .newline =>
        putBack
        return .inl acc
      | .ended =>
        readDocuments g
        putBack
        return .inr acc
      | t => if t.isOperator ";" || t.isOperator "&" then return .inl acc else unexpected none

end ServiceCall.Shell.Reading
