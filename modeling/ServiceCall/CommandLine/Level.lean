import ServiceCall.CommandLine.Argument
/-!
# Reading one level

Words are taken one by one. An option that wants a value waits for the next word, and a
position that takes many words gathers them; what has been given is only settled when the
next argument begins or the level ends. So of two faults the one that is met first counts,
but a word that is no argument at all is refused before the values in front of it are read.
-/

namespace ServiceCall.CommandLine

/-- The values of a level in the order in which they are settled. -/
abbrev Given := List (Argument × Operand)

namespace Given

/-- An argument has a value. -/
def has (g : Given) (a : Argument) : Bool := g.any fun x => x.1 = a

/-- The texts given for an argument. -/
def texts (g : Given) (a : Argument) : List String :=
  g.filterMap fun
    | (b, .text s) => if b = a then some s else none
    | _ => none

/-- The text given for an argument. -/
def text? (g : Given) (a : Argument) : Option String := (g.texts a).head?

/-- The JSON values given for an argument. -/
def values (g : Given) (a : Argument) : List Json :=
  g.filterMap fun
    | (b, .json v) => if b = a then some v else none
    | _ => none

/-- The JSON value given for an argument. -/
def value? (g : Given) (a : Argument) : Option Json := (g.values a).head?

/-- Reads the words given for an argument. -/
def readAll (a : Argument) (words : List String) : Except UsageError Given :=
  match a.form with
  | .mark => .ok [(a, .mark)]
  | _ => words.mapM fun w => (a.read w).map fun v => (a, v)

/-- Settles an argument with its words. -/
def settle (g : Given) (a : Argument) (words : List String) : Except UsageError Given :=
  match a with
  | .help => .error .help
  | .version => .error .version
  | a =>
    if a.form ≠ .mark ∧ words.isEmpty then .error .noValue
    else if g.has a ∧ !a.isRepeatable then .error .conflict
    else (readAll a words).map (g ++ ·)

end Given

/-- How far the reading of a level has come. -/
structure Reading where
  given : Given
  /-- The argument that is not settled, with its words. -/
  pending : Option (Argument × List String)
  /-- How many positions are filled. -/
  position : Nat
  /-- Two hyphens have gone before; only positions follow. -/
  trailing : Bool

namespace Reading

/-- The start of a level. -/
def start : Reading := ⟨[], none, 0, false⟩

/-- Everything given so far. -/
def settled (r : Reading) : Except UsageError Given :=
  match r.pending with
  | none => .ok r.given
  | some (a, words) => r.given.settle a words

/-- Settles what is pending. -/
def settle (r : Reading) : Except UsageError Reading :=
  r.settled.map fun g => { r with given := g, pending := none }

/-- Settles what is pending and then an argument with its words. -/
def put (r : Reading) (a : Argument) (words : List String) : Except UsageError Reading := do
  let r ← r.settle
  let g ← r.given.settle a words
  return { r with given := g }

/-- Settles what is pending and waits for an option's value. -/
def await (r : Reading) (a : Argument) : Except UsageError Reading := do
  let r ← r.settle
  return { r with pending := some (a, []) }

/-- The option that waits for its value. -/
def awaiting? (r : Reading) : Option Argument :=
  match r.pending with
  | some (a, []) => some a
  | _ => none

/-- The next word can be a command: nothing waits for it or gathers it. -/
def isFree (r : Reading) : Bool :=
  match r.pending with
  | none => true
  | some (a, words) => !words.isEmpty && a ≠ .values

/-- The command that a word names. -/
def command? (l : Level) (r : Reading) (w : String) : Option String :=
  if !r.trailing && r.isFree && l.commandNames.contains w then some w else none

/-- Takes a word for the next position. -/
def takeWord (l : Level) (r : Reading) (w : String) : Except UsageError Reading :=
  match l.positions[r.position]? with
  | none => .error (l.refusal r.trailing w)
  | some a =>
    match a.isRepeatable, r.pending with
    | true, some (b, words) =>
      if a = b then .ok { r with pending := some (a, words ++ [w]) } else begin a r
    | _, _ => begin a r
where
  /-- Begins a position. -/
  begin (a : Argument) (r : Reading) : Except UsageError Reading := do
    let r ← r.settle
    return { r with
      pending := some (a, [w]), position := if a.isRepeatable then r.position else r.position + 1 }

/-- Takes an option by its long name, with the value that is attached to it. -/
def takeLong (l : Level) (r : Reading) (name : String) (value : Option String) :
    Except UsageError Reading :=
  match l.long? name with
  | none => .error .unknownArgument
  | some a =>
    match a.form, value with
    | .mark, none => r.put a []
    | .mark, some _ => .error .needlessValue
    | _, some v => r.put a [v]
    | _, none => r.await a

/-- Takes a run of letters; the first option that wants a value has the rest for it. -/
def takeLetters (l : Level) (r : Reading) : List Char → Except UsageError Reading
  | [] => .ok r
  | c :: rest =>
    match l.short? c with
    | none => .error .unknownArgument
    | some a =>
      match a.form, rest with
      | .mark, rest => do takeLetters l (← r.put a []) rest
      | _, [] => r.await a
      | _, '=' :: v => r.put a [String.ofList v]
      | _, v => r.put a [String.ofList v]

/-- A long option as its name and the value behind an equals sign. -/
def splitLong (s : List Char) : String × Option String :=
  match s.dropWhile (· ≠ '=') with
  | _ :: v => (String.ofList (s.takeWhile (· ≠ '=')), some (String.ofList v))
  | [] => (String.ofList s, none)

/-- Takes a word that may be an option. -/
def takeOption (l : Level) (r : Reading) (w : String) : Except UsageError Reading :=
  match w.toList with
  | ['-', '-'] => .ok { r with trailing := true }
  | '-' :: '-' :: long => takeLong l r (splitLong long).1 (splitLong long).2
  | '-' :: c :: letters => takeLetters l r (c :: letters)
  | _ =>
    match r.awaiting? with
    | some a => .ok { r with pending := some (a, [w]) }
    | none => takeWord l r w

/-- An option waits for whatever comes. -/
def takesAnything (r : Reading) : Bool :=
  match r.awaiting? with
  | some a => a.takesAnything
  | none => false

/-- Takes a word. -/
def take (l : Level) (r : Reading) (w : String) : Except UsageError Reading :=
  if r.trailing then takeWord l r w
  else if r.takesAnything then
    .ok { r with pending := r.pending.map fun (a, _) => (a, [w]) }
  else takeOption l r w

end Reading

end ServiceCall.CommandLine
