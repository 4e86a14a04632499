import ServiceCall.Shell.Editor.Basic
import ServiceCall.Text.Octets
/-!
# Carrying out editor scripts

The editor takes one line after another, carries out the commands meant for it and writes
what has become of it.
-/

namespace ServiceCall.Shell.Editor

/-- What is written once a line is done with. -/
inductive Added where
  | text (s : List Char)
  | file (path : String)
  deriving Repr

/-- What the editor does not change. -/
structure Setting where
  program : List Command
  /-- Lines are only written when a command says so. -/
  isQuiet : Bool
  read : String → List Char

/-- Where the editor stands. -/
structure Editing where
  /-- The line being worked on, and another one kept for later. -/
  line : List Char
  held : List Char
  /-- The line has an end in its file. -/
  isWhole : Bool
  number : Nat
  file : String
  rest : List Line
  added : List Added
  /-- The ranges that are open, by the numbers of their commands, with their last lines if
  those are known. -/
  open' : List (Nat × Option Nat)
  wasChanged : Bool
  lastRegex : Option Regex
  /-- What was written, the last piece first. -/
  output : List (List Char)
  /-- The last line that was written lacks its end. -/
  lacksEnd : Bool
  files : List (String × List Char)

/-- A step of the editor. It can only fail for want of a regular expression. -/
abbrev Edit := StateT Editing (Except String)

namespace Edit

/-- Writes a text, after the end of the line before. -/
def emitRaw (s : List Char) : Edit Unit := modify fun e =>
  let lead := if e.lacksEnd ∧ !s.isEmpty then ['\n'] else []
  { e with output := s :: lead :: e.output, lacksEnd := e.lacksEnd && s.isEmpty }

/-- Writes a line. -/
def emitLine (s : List Char) : Edit Unit := do
  let isWhole := (← get).isWhole
  emitRaw (if isWhole then s ++ ['\n'] else s)
  modify fun e => { e with lacksEnd := !isWhole }

/-- Writes what is to follow the line. -/
def emitAdded (t : Setting) : Edit Unit := do
  for a in (← get).added.reverse do
    match a with
    | .text s => emitRaw s
    | .file path => emitRaw (t.read path)
  modify fun e => { e with added := [] }

/-- Ends the work on a line. -/
def finish (t : Setting) : Edit Unit := do
  unless t.isQuiet do emitLine (← get).line
  emitAdded t

/-- Goes to the next line, which takes the place of the last one or is joined to it. -/
def advance (isJoined : Bool) : Edit Bool := do
  let e ← get
  match e.rest with
  | [] => return false
  | l :: rest =>
    set { e with
      line := if isJoined then e.line ++ '\n' :: l.text else l.text
      isWhole := l.isWhole, number := e.number + 1, file := l.file, rest }
    return true

/-! ## Selecting -/

/-- The regular expression that is sought, which is the last one from now on. -/
def regex (s : Sought) : Edit Regex := do
  match s.regex? with
  | some r =>
    modify fun e => { e with lastRegex := some r }
    return r
  | none =>
    match (← get).lastRegex with
    | some r => return r
    | none => throw "no previous regular expression"

/-- The line is one that the address names. -/
def isAt (a : Address) : Edit Bool := do
  let e ← get
  match a with
  | .line n => return e.number = n
  | .last => return e.rest.isEmpty
  | .every first step =>
    return if step = 0 then e.number = first
      else first ≤ e.number && (e.number - first) % step = 0
  | .holding s => return (← regex s).isIn s.folds e.line

/-- The last line of a range that starts at a line, if it is known. -/
def lastLine? (n : Nat) : Ending → Option Nat
  | .count m => some (n + m)
  | .multiple m => some (if m = 0 then n else (n / m + 1) * m)
  | .address (.line m) => some m
  | .address _ => none

/-- The command of a number is meant for the line. -/
def isSelected (i : Nat) (s : Selection) : Edit Bool := do
  let isIn ← match s.start, s.ending with
    | none, _ => pure true
    | some a, none => isAt a
    | some a, some ending => do
      let e ← get
      let shut : Edit Unit := modify fun e => { e with open' := e.open'.filter (·.1 ≠ i) }
      match e.open'.lookup i with
      | some (some last) =>
        if last ≤ e.number then shut
        pure (decide (e.number ≤ last))
      | some none =>
        if let .address a := ending then
          if ← isAt a then shut
        pure true
      | none =>
        if ← isAt a then
          let last? := lastLine? e.number ending
          let goesOn : Bool := match last? with
            | some last => e.number < last
            | none => true
          if goesOn then modify fun e => { e with open' := (i, last?) :: e.open' }
          pure true
        else pure false
  return isIn != s.isNegated

/-! ## Commands -/

/-- A text with signs for what cannot be seen, in lines of a bounded length. -/
def listed (s : List Char) : List Char :=
  let sign (c : Char) : List Char :=
    match c with
    | '\\' => ['\\', '\\']
    | '\x07' => ['\\', 'a']
    | '\x08' => ['\\', 'b']
    | '\x0c' => ['\\', 'f']
    | '\n' => ['\\', 'n']
    | '\r' => ['\\', 'r']
    | '\t' => ['\\', 't']
    | '\x0b' => ['\\', 'v']
    | c =>
      if ' ' ≤ c ∧ c ≤ '~' then [c]
      else
        let ds := Nat.toDigits 8 c.toNat
        '\\' :: List.replicate (3 - ds.length) '0' ++ ds
  let (out, _) := s.foldl (fun (acc : List (List Char) × Nat) c =>
    let t := sign c
    if 69 < acc.2 + t.length then (t :: ['\\', '\n'] :: acc.1, t.length)
    else (t :: acc.1, acc.2 + t.length)) ([], 0)
  out.reverse.flatten ++ ['$', '\n']

/-- Writes to a file. -/
def emitFile (path : String) (s : List Char) : Edit Unit := do
  if path = "/dev/stdout" then emitRaw s
  else modify fun e =>
    let old := (e.files.lookup path).getD []
    { e with files := (path, old ++ s) :: e.files.filter (·.1 ≠ path) }

/-- What comes after a command. -/
inductive Next where
  | onward
  | jump (name : String)
  /-- The line is done with; it may be written first. -/
  | finished (prints : Bool)
  /-- The rest of the line is worked on as a line of its own. -/
  | again
  | quit (status : Nat) (prints : Bool)

/-- Carries out what a command does; its number is known. -/
def perform (t : Setting) (i : Nat) (a : Action) : Edit Next := do
  let e ← get
  let change (line : List Char) : Edit Next := do
    set { e with line }
    return .onward
  match a with
  | .opening | .closing | .label _ | .nothing => return .onward
  | .jump name => return .jump name
  | .jumpIf wasChanged name =>
    set { e with wasChanged := false }
    return if e.wasChanged = wasChanged then .jump name else .onward
  | .append s =>
    set { e with added := .text s :: e.added }
    return .onward
  | .readFile path =>
    set { e with added := .file path :: e.added }
    return .onward
  | .insert s =>
    emitRaw s
    return .onward
  | .change s =>
    if (e.open'.lookup i).isNone then emitRaw s
    return .finished false
  | .delete => return .finished false
  | .deleteLine =>
    match e.line.dropWhile (· ≠ '\n') with
    | [] => return .finished false
    | _ :: rest =>
      set { e with line := rest }
      return .again
  | .substitute s =>
    let r ← regex s.sought
    match s.apply r e.line with
    | none => return .onward
    | some line =>
      modify fun e => { e with line, wasChanged := true }
      if s.prints then emitLine line
      if let some path := s.file then emitFile path (line ++ ['\n'])
      return .onward
  | .transliterate pairs => change (e.line.map fun c => (pairs.lookup c).getD c)
  | .print =>
    emitLine e.line
    return .onward
  | .printLine =>
    emitRaw (e.line.takeWhile (· ≠ '\n') ++ ['\n'])
    return .onward
  | .number =>
    emitRaw (toString e.number ++ "\n").toList
    return .onward
  | .list =>
    emitRaw (listed e.line)
    return .onward
  | .fileName =>
    emitRaw (e.file ++ "\n").toList
    return .onward
  | .next =>
    if e.rest.isEmpty then return .quit 0 true
    else
      finish t
      let _ ← advance false
      return .onward
  | .appendNext =>
    if e.rest.isEmpty then return .quit 0 true
    else
      emitAdded t
      let _ ← advance true
      return .onward
  | .hold =>
    set { e with held := e.line }
    return .onward
  | .appendHold =>
    set { e with held := e.held ++ '\n' :: e.line }
    return .onward
  | .recall => change e.held
  | .appendRecall => change (e.line ++ '\n' :: e.held)
  | .exchange =>
    set { e with line := e.held, held := e.line }
    return .onward
  | .clear => change []
  | .quit status prints => return .quit status prints
  | .writeFile path =>
    emitFile path (e.line ++ ['\n'])
    return .onward

end Edit

/-! ## Scripts -/

/-- The number of the command with a label; the end of the script without one. -/
def target? (program : List Command) (name : String) : Option Nat :=
  if name.isEmpty then some program.length
  else program.findIdx? fun c =>
    match c.action with
    | .label l => l = name
    | _ => false

/-- The number of commands from an opening brace to the one that closes it. -/
def blockLength : Nat → List Command → Nat
  | _, [] => 0
  | depth, c :: rest =>
    match c.action with
    | .opening => 1 + blockLength (depth + 1) rest
    | .closing => if depth ≤ 1 then 1 else 1 + blockLength (depth - 1) rest
    | _ => 1 + blockLength depth rest

/-- A bound on the steps of a script for each line. -/
def stepLimit : Nat := 10000

/-- Carries out commands from a number on, line after line, to the end. -/
def run (t : Setting) : Nat → Nat → Edit Nat
  | 0, _ => return 1
  | fuel + 1, i => do
    let finished (prints : Bool) : Edit Nat := do
      if prints then Edit.finish t else Edit.emitAdded t
      if ← Edit.advance false then
        modify fun e => { e with wasChanged := false }
        run t fuel 0
      else return 0
    match t.program.drop i with
    | [] => finished true
    | c :: rest =>
      if ← Edit.isSelected i c.selection then
        match ← Edit.perform t i c.action with
        | .onward => run t fuel (i + 1)
        | .jump name => run t fuel ((target? t.program name).getD t.program.length)
        | .finished prints => finished prints
        | .again =>
          Edit.emitAdded t
          run t fuel 0
        | .quit status prints =>
          if prints then Edit.finish t
          return status
      else
        match c.action with
        | .opening => run t fuel (i + blockLength 0 (c :: rest))
        | _ => run t fuel (i + 1)

/-- The lines of a file. -/
def linesOf (file : String) (s : List Char) : List Line :=
  let (ls, isWhole) := Octets.lines s
  ls.zipIdx.map fun (text, i) => ⟨text, file, i + 1 = ls.length, isWhole || i + 1 < ls.length⟩

/-- What editing comes to: the status, the text written and the files. -/
structure Edited where
  status : Nat
  text : List Char
  files : List (String × List Char)

/-- Edits lines. -/
def edit (t : Setting) (lines : List Line) : Except String Edited := do
  let isOpen (c : Command) : Bool :=
    match c.selection.start with
    | some (.line 0) => true
    | _ => false
  let ranges := (t.program.zipIdx.filter fun (c, _) => isOpen c).map fun (_, i) => (i, none)
  let start : Editing := ⟨[], [], true, 0, "-", lines, [], ranges, false, none, [], false, []⟩
  let body : Edit Nat := do
    if ← Edit.advance false then run t (stepLimit * (lines.length + 1)) 0 else return 0
  let (status, e) ← body.run start
  return ⟨status, e.output.reverse.flatten, e.files⟩

end ServiceCall.Shell.Editor
