import ServiceCall.Shell.Builtin.Table
import ServiceCall.Shell.Redirection
/-!
# Commands

How a shell carries out commands: simple ones by their name, as builtins, functions or
programs, and compound ones by their parts.
-/

namespace ServiceCall.Shell.Command

/-- A bound on the number of the functions around a command. -/
def functionLimit : Nat := 1000

/-! ## Assignments -/

/-- Gives variables their values, one after the other. -/
def assignAll (i : Interpreter) (assignments : List (String × Word)) (mark : Variable → Variable) :
    Act (List String) :=
  assignments.mapM fun (name, w) => do
    let value ← Expansion.text i .assignment w
    Act.assign name value
    modify fun s =>
      match s.bindings.lookup name with
      | some v => s.withVariable name (mark v)
      | none => s
    return name ++ "=" ++ value

/-- The variables of one state, those of some names as they are in another one. -/
def putBack (names : List String) (old new : State) : State :=
  names.foldl (fun s name =>
    match old.bindings.lookup name with
    | some v => s.withVariable name v
    | none => s.withoutVariable name) new

/-- Shows a command before it is carried out, if that is asked for. -/
def trace (i : Interpreter) (words : List String) : Act Unit := do
  let s ← get
  if s.hasOption 'x' ∧ !words.isEmpty then
    let lead := (s.value? "PS4").getD "+ "
    let lead ← match (Reading.wordFrom (Reading.grammar (2 * lead.length + 16)) .quoted).run
        (Source.ofText (lead.toList ++ ['"']) 1 0 []) with
      | .ok (w, _) => Expansion.text i .value w
      | .error _ => pure lead
    let _ ← Act.emit 2 (lead ++ " ".intercalate words ++ "\n").toList

/-! ## Functions -/

/-- Calls a function with positional parameters of its own. -/
def callFunction (i : Interpreter) (isTested : Bool) (body : Script) (args : List String) :
    Act Unit := do
  if functionLimit ≤ (← get).functionDepth then Act.fail "Maximum function recursion depth reached"
  let restore (old new : State) : State :=
    let frame := new.locals.headD []
    let s := frame.foldl (fun s (name, v?) =>
      match v? with
      | some v => s.withVariable name v
      | none => s.withoutVariable name) new
    { s with
      arguments := old.arguments
      functionDepth := old.functionDepth
      loops := old.loops
      locals := old.locals
      optionPlace := old.optionPlace }
  Act.restoring restore do
    modify fun s => { s with
      arguments := args
      functionDepth := s.functionDepth + 1
      loops := 0
      locals := [] :: s.locals
      optionPlace := .start }
    try i.run isTested body
    catch stop => if stop = .returned then pure () else throw stop

/-! ## Simple commands -/

/-- Carries out a builtin command. An error in one that is not special leaves a status. -/
def callBuiltin (i : Interpreter) (isTested isSpecial : Bool) (name : String) (b : Builtin)
    (args : List String) : Act Unit :=
  Act.restoring (fun old s => { s with builtin := old.builtin }) do
    modify fun s => { s with builtin := some name }
    try b i isTested args
    catch stop =>
      if stop = .failed ∧ !isSpecial then pure () else throw stop

/-- What carries out a command. -/
inductive Callee where
  | builtin (isSpecial : Bool) (b : Builtin)
  | function (body : Script)
  | program

/-- What carries out a command of a name; functions do not count behind `command`. -/
def callee (s : State) (withFunctions : Bool) (name : String) : Callee :=
  let isSpecial := Reading.specialBuiltins.contains name
  match Builtin.simple? name, s.functions.lookup name with
  | some b, none => .builtin isSpecial b
  | some b, some body => if isSpecial ∨ !withFunctions then .builtin isSpecial b else .function body
  | none, some body =>
    if withFunctions then .function body
    else match name with
      | "type" => .builtin false Builtin.type
      | "hash" => .builtin false Builtin.hash
      | _ => .program
  | none, none =>
    match name with
    | "type" => .builtin false Builtin.type
    | "hash" => .builtin false Builtin.hash
    | _ => .program

/-- A command without the word `command` in front and its options. -/
structure Prefixed where
  words : List String
  isPrefixed : Bool
  /-- The name is only looked up; in many words or in one. -/
  isLooked : Option Bool

/-- Strips the word `command`. -/
def stripped : Nat → List String → Act Prefixed
  | 0, words => return ⟨words, false, none⟩
  | fuel + 1, words => do
    match words with
    | "command" :: args =>
      let (os, rest) ← Act.restoring (fun old s => { s with builtin := old.builtin }) do
        modify fun s => { s with builtin := some "command" }
        Builtin.parsed "pvV" args
      match os.find? fun o => o.1 ≠ 'p' with
      | some (c, _) => return ⟨rest, true, some (c = 'V')⟩
      | none => return { (← stripped fuel rest) with isPrefixed := true }
    | words => return ⟨words, false, none⟩

/-- Carries out a command of at least one word, within its redirections. -/
def call (i : Interpreter) (isTested : Bool) (p : Prefixed) (c : Callee) : Act Unit := do
  match p.isLooked, p.words with
  | some isLong, words => callBuiltin i isTested false "command" (fun _ _ args =>
      Builtin.look args.head? isLong) words
  | none, [] => Act.setStatus 0
  | none, name :: args =>
    match c with
    | .builtin isSpecial b => callBuiltin i isTested (isSpecial && !p.isPrefixed) name b args
    | .function body => callFunction i isTested body args
    | .program => Call.command i name args

/-- A command without a name: its redirections and assignments. -/
def nameless (i : Interpreter) (assignments : List (String × Word)) (rs : List Redirect) :
    Act Unit := do
  Redirection.within i rs (do
    let shown ← assignAll i assignments id
    trace i shown
    modify fun s => { s with status := s.outputStatus }) (Act.setStatus 2)

/-- Carries out a simple command. -/
def simple (i : Interpreter) (isTested : Bool) (line : Nat) (assignments : List (String × Word))
    (words : List Word) (rs : List Redirect) : Act Unit := do
  modify fun s => { s with line, outputStatus := 0 }
  let fields ← Expansion.commandFields i words
  if fields.isEmpty then nameless i assignments rs
  else
    let stripping : Act Prefixed := stripped fields.length fields
    let p ← try stripping
      catch stop => if stop = .failed then pure ⟨[], true, none⟩ else throw stop
    if p.isPrefixed ∧ p.words.isEmpty ∧ p.isLooked.isNone then return ()
    let name := p.words.headD ""
    let s ← get
    let c := if p.isLooked.isSome then Callee.program else callee s (!p.isPrefixed) name
    let (isSpecial, keeps) : Bool × Bool := match c with
      | .builtin s _ => (s && !p.isPrefixed, s && name = "exec" && p.words.length = 1)
      | _ => (false, false)
    let body : Act Unit := do
      let names := assignments.map (·.1)
      let before ← get
      let mark (v : Variable) : Variable := if isSpecial then v else { v with isExported := true }
      let shown ← assignAll i assignments mark
      trace i (shown ++ fields)
      if isSpecial ∨ names.isEmpty then call i isTested p c
      else
        Act.restoring (fun _ s => putBack names before s) (call i isTested p c)
    let refuse : Act Unit := do
      Act.setStatus 2
      if isSpecial then throw .failed
    if keeps then
      if ← Redirection.openAll i rs then body else refuse
    else Redirection.within i rs body refuse

/-! ## Loops -/

/-- What a round of a loop leads to: another one, or the end of the loop. -/
def round (i : Interpreter) (isTested : Bool) (body : Script) : Act Bool := do
  try
    i.run isTested body
    return true
  catch stop =>
    match stop with
    | .broken n => if n ≤ 1 then return false else throw (.broken (n - 1))
    | .continued n => if n ≤ 1 then return true else throw (.continued (n - 1))
    | stop => throw stop

/-- Carries out a step as the body of a loop. -/
def looping (body : Act Unit) : Act Unit := do
  let loops := (← get).loops
  Act.restoring (fun _ s => { s with loops }) do
    modify fun s => { s with loops := loops + 1 }
    body

/-- One round for each field. -/
def forEach (i : Interpreter) (isTested : Bool) (name : String) (words : List Word)
    (body : Script) : Act Unit := do
  let fields ← words.mapM (Expansion.fields i)
  Act.setStatus 0
  looping do
    let _ ← fields.flatten.foldlM (fun isGoing field => do
      if !isGoing then return false
      Act.assign name field
      round i isTested body) true

/-- Rounds as long as a condition holds, or does not. -/
def loop (i : Interpreter) (isTested untilHolds : Bool) (condition body : Script) : Act Unit :=
  looping do
    Act.repeating 0 fun status => do
      let isGoing ← round i true condition
      let s ← get
      if !isGoing then return .inr ()
      else if (s.status = 0) = untilHolds then
        Act.setStatus status
        return .inr ()
      else
        let isGoing ← round i isTested body
        let s ← get
        if isGoing then return .inl s.status else return .inr ()

/-! ## Compound commands -/

/-- Carries out the item whose patterns the subject matches first. -/
def choose (i : Interpreter) (isTested : Bool) (subject : List Char) :
    List (List Word × Script) → Act Unit
  | [] => Act.setStatus 0
  | (patterns, body) :: rest => do
    let isMatch ← patterns.foldlM (fun isMatch w => do
      if isMatch then return true
      return Pattern.isMatch (Glyph.marked (← i.expand .value w)) subject) false
    if isMatch then i.run isTested body else choose i isTested subject rest

/-- Carries out commands, each in a shell of its own that reads what the one before wrote. -/
def pipe (i : Interpreter) (isTested : Bool) : Option (List Char) → List Script → Act Unit
  | _, [] => return ()
  | input, c :: rest => do
    let prepare (s : State) : State := match input with
      | some text => s.opening 0 (.source text)
      | none => s
    match rest with
    | [] => i.apart prepare (i.run isTested c)
    | rest =>
      let text ← i.captured prepare (i.run isTested c)
      pipe i isTested (some text) rest

/-- Carries out a command in the background: at once, without input, its status kept. -/
def background (i : Interpreter) (body : Script) : Act Unit := do
  let process := (← get).nextProcess
  modify fun s => { s with nextProcess := process + 1 }
  i.apart (fun s => s.opening 0 .null) (i.run false body)
  modify fun s => { s with jobs := (process, s.status) :: s.jobs, status := 0 }

/-- Ends a shell whose commands must not fail, if the last one did and nothing looks at it. -/
def insist (isTested : Bool) : Act Unit := do
  let s ← get
  if s.hasOption 'e' ∧ !isTested ∧ s.status ≠ 0 then throw .exited

/-- Carries out a command. -/
def run (i : Interpreter) (isTested : Bool) (c : Script) : Act Unit := do
  if (← get).hasOption 'n' then return ()
  match c with
  | .nothing => Act.setStatus 0
  | .simple line assignments words rs => do
    simple i isTested line assignments words rs
    insist isTested
  | .sequence a b => do
    i.run isTested a
    i.run isTested b
  | .both a b => do
    i.run true a
    if (← get).status = 0 then i.run isTested b
  | .either a b => do
    i.run true a
    if (← get).status ≠ 0 then i.run isTested b
  | .negated body => do
    i.run true body
    modify fun s => { s with status := if s.status = 0 then 1 else 0 }
  | .piped commands => do
    pipe i isTested none commands
    insist isTested
  | .background body => background i body
  | .forEach line name words body => do
    modify fun s => { s with line }
    forEach i isTested name words body
  | .choose line subject items => do
    modify fun s => { s with line }
    choose i isTested (← Expansion.text i .value subject).toList items
  | .branch condition yes no => do
    i.run true condition
    if (← get).status = 0 then i.run isTested yes else i.run isTested no
  | .loop untilHolds condition body => loop i isTested untilHolds condition body
  | .group line body rs => do
    modify fun s => { s with line }
    Redirection.within i rs (i.run isTested body) do
      Act.setStatus 2
      insist isTested
  | .subshell line body rs => do
    modify fun s => { s with line }
    Redirection.within i rs (i.apart id (i.run isTested body)) (Act.setStatus 2)
    insist isTested
  | .function name body => do
    modify fun s => { s with
      functions := (name, body) :: s.functions.filter (·.1 ≠ name), status := 0 }

end ServiceCall.Shell.Command
