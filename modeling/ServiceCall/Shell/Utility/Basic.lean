import ServiceCall.Number.Literal
import ServiceCall.Shell.Work
/-!
# Programs of the system

What all programs have in common: how they quote texts in messages, and how they read options.
-/

namespace ServiceCall.Shell.Quotation

/-! ## Texts in messages

A program that names a file in a message writes it as a shell could read it back, in quotes
if that is needed; other texts it puts between quotes, with backslashes.
-/

/-- What stands behind a backslash for a byte that is not shown as it is. -/
def escape? (c : Char) : Option (List Char) :=
  match c.toNat with
  | 7 => some ['a']
  | 8 => some ['b']
  | 9 => some ['t']
  | 10 => some ['n']
  | 11 => some ['v']
  | 12 => some ['f']
  | 13 => some ['r']
  | n =>
    if 32 ≤ n ∧ n < 127 then none
    else some ([n / 64, n / 8 % 8, n % 8].map Nat.digitChar)

/-- What stands between the quotes of a shell. The flag tells that bytes are being escaped. -/
def body : Bool → List Char → List Char
  | _, [] => []
  | isEscaping, c :: cs =>
    match escape? c with
    | some e => (if isEscaping then [] else "'$'".toList) ++ '\\' :: e ++ body true cs
    | none =>
      if c = '\'' then "'\\''".toList ++ body false cs
      else (if isEscaping then "''".toList else []) ++ c :: body false cs

/-- A shell reads the character as itself, at the start of a word or behind it. -/
def isPlain (isFirst : Bool) (c : Char) : Bool :=
  c.isAlphanum || "%+,-./:@]_".toList.contains c || (isFirst && (c = '#' || c = '~'))

/-- All is well between double quotes. -/
def isApostrophic : List Char → Bool
  | [] => true
  | c :: cs =>
    let isFine (isFirst : Bool) (c : Char) : Bool := c = ' ' || c = '\'' || isPlain isFirst c
    isFine true c && cs.all (isFine false)

/-- The name of a file, in quotes in any case. -/
def path (name : String) : String :=
  let cs := name.toList
  if cs.contains '\'' && isApostrophic cs then "\"" ++ name ++ "\""
  else String.ofList ('\'' :: body false cs ++ ['\''])

/-- A shell could read the name as something else. -/
def isSpecial (cs : List Char) : Bool :=
  cs.isEmpty || cs = ['\x7b'] || cs = ['\x7d'] ||
    (cs.take 1).any (fun c => c = '#' || c = '~') ||
    cs.any fun c => (escape? c).isSome || " !\"$&'()*:;<=>?[\\^\x60|".toList.contains c

/-- The name of a file, in quotes if it needs them. -/
def barePath (name : String) : String :=
  if isSpecial name.toList then path name else name

/-- Any other text. -/
def text (s : String) : String :=
  String.ofList ('\'' :: s.toList.flatMap (fun c =>
    if c = '\'' ∨ c = '\\' then ['\\', c]
    else match escape? c with
      | some e => '\\' :: e
      | none => [c]) ++ ['\''])

end ServiceCall.Shell.Quotation

namespace ServiceCall.Shell

/-! ## Options of programs

Programs take short options, one letter after another behind a dash, and long ones behind
two; options may stand between operands. `Program.run` reads them and answers questions
for help and for the version.
-/

/-- Whether an option takes a value. -/
inductive Taking where
  | nothing
  | required
  | optional
  deriving DecidableEq, Repr

/-- What the options of a program are. -/
structure OptionTable where
  /-- The letters; a colon stands behind one that takes a value. -/
  letters : String
  /-- The long names, with the letter or name that stands for each. -/
  names : List (String × String × Taking)

/-- The options and operands of a command line. -/
structure Given where
  options : List (String × String)
  operands : List String

namespace Given

/-- The option was given. -/
def has (g : Given) (key : String) : Bool := g.options.any (·.1 = key)

/-- The value given last. -/
def value? (g : Given) (key : String) : Option String :=
  (g.options.reverse.find? (·.1 = key)).map (·.2)

/-- All values given. -/
def values (g : Given) (key : String) : List String :=
  (g.options.filter (·.1 = key)).map (·.2)

/-- The last of some options that was given. -/
def last? (g : Given) (keys : List String) : Option String :=
  (g.options.reverse.find? fun o => keys.contains o.1).map (·.1)

end Given

/-- What is wrong with the arguments of a program: how it is used, or the value of an option. -/
inductive Misuse where
  | use (message : String)
  | value (message : String)
  deriving Repr

namespace OptionTable

/-- Whether a letter is an option, and takes a value. -/
def letter? (t : OptionTable) (c : Char) : Option Bool :=
  match t.letters.toList.dropWhile (· ≠ c) with
  | _ :: ':' :: _ => some true
  | _ :: _ => some false
  | [] => none

/-- The options that letters behind a dash stand for, and the arguments after them. -/
def short (t : OptionTable) : List Char → List String →
    Except String (List (String × String) × List String)
  | [], rest => .ok ([], rest)
  | c :: cs, rest => do
    let key := String.singleton c
    match if c = ':' then none else t.letter? c with
    | none => throw ("invalid option -- '" ++ key ++ "'")
    | some false =>
      let (os, rest) ← short t cs rest
      return ((key, "") :: os, rest)
    | some true =>
      match cs, rest with
      | [], [] => throw ("option requires an argument -- '" ++ key ++ "'")
      | [], v :: rest => return ([(key, v)], rest)
      | cs, rest => return ([(key, String.ofList cs)], rest)

/-- The option that a text behind two dashes stands for, and the arguments after it. -/
def long (t : OptionTable) (text : String) (rest : List String) :
    Except String (List (String × String) × List String) := do
  let name := String.ofList (text.toList.takeWhile (· ≠ '='))
  let value? := match text.toList.dropWhile (· ≠ '=') with
    | _ :: v => some (String.ofList v)
    | [] => none
  let all : List (String × String × Taking) :=
    t.names ++ [("help", "help", Taking.nothing), ("version", "version", Taking.nothing)]
  let found : List (String × String × Taking) := match all.filter (·.1 = name) with
    | [] => all.filter fun o => name.toList.isPrefixOf o.1.toList
    | exactly => exactly
  match found with
  | [] => throw ("unrecognized option '--" ++ text ++ "'")
  | (full, key, taking) :: others =>
    if others.any (·.2.1 ≠ key) then
      let shown := String.join (found.map fun o => " '--" ++ o.1 ++ "'")
      throw ("option '--" ++ text ++ "' is ambiguous; possibilities:" ++ shown)
    match taking, value?, rest with
    | .nothing, some _, _ => throw ("option '--" ++ full ++ "' doesn't allow an argument")
    | .nothing, none, rest => return ([(key, "")], rest)
    | .required, some v, rest => return ([(key, v)], rest)
    | .required, none, v :: rest => return ([(key, v)], rest)
    | .required, none, [] => throw ("option '--" ++ full ++ "' requires an argument")
    | .optional, v?, rest => return ([(key, v?.getD "")], rest)

/-- Reads the arguments of a program, with a look at the value of each option. Without
`isMixed` the first operand ends the options. -/
def read (t : OptionTable) (fault? : String × String → Option Misuse) (isMixed : Bool) :
    Nat → List String → Except Misuse Given
  | 0, args => .ok ⟨[], args⟩
  | _ + 1, [] => .ok ⟨[], []⟩
  | fuel + 1, a :: rest => do
    let further (found : Except String (List (String × String) × List String)) :
        Except Misuse Given := do
      let (os, rest) ← found.mapError Misuse.use
      match os.findSome? fault? with
      | some m => throw m
      | none =>
        let g ← read t fault? isMixed fuel rest
        return { g with options := os ++ g.options }
    match a.toList with
    | ['-', '-'] => return ⟨[], rest⟩
    | '-' :: '-' :: text => further (t.long (String.ofList text) rest)
    | '-' :: c :: cs => further (t.short (c :: cs) rest)
    | _ =>
      if isMixed then
        let g ← read t fault? isMixed fuel rest
        return { g with operands := a :: g.operands }
      else return ⟨[], a :: rest⟩

end OptionTable

namespace Utility

/-- A text in quotes, for a message. -/
def quoted (s : String) : String := Quotation.text s

/-- The name of a file in quotes, for a message. -/
def named (path : String) : String := Quotation.path path

/-- The name of a file, in quotes if it needs them, for a message. -/
def bare (path : String) : String := Quotation.barePath path

/-- Points to the help of a program. -/
def tryHelp (name : String) : Work Unit :=
  Work.complain ("Try '" ++ name ++ " --help' for more information.")

/-- A complaint about how a program is used. -/
def misuse (name : String) (status : Nat) (message : String) : Work ExitStatus := do
  Work.complain (name ++ ": " ++ message)
  tryHelp name
  return .code status

/-- A complaint of a program, and the status it leaves. -/
def complaint (name message : String) : Work Nat := do
  Work.complain (name ++ ": " ++ message)
  return 1

/-- A program with options whose values are looked at: what it does with its name and with what
it is given. -/
def withChecked (t : OptionTable) (fault? : String × String → Option Misuse) (isMixed : Bool)
    (misused : Nat) (body : Starter → String → Given → Work ExitStatus) : Utility :=
  fun start args => do
    let name := args.headD ""
    match t.read fault? isMixed (args.length + 1) (args.drop 1) with
    | .error (.use message) => misuse name misused message
    | .error (.value message) =>
      Work.complain (name ++ ": " ++ message)
      return .code misused
    | .ok g =>
      if g.has "help" then
        Work.say ("Usage: " ++ name ++ " [OPTION]... [FILE]...")
        return .code 0
      else if g.has "version" then
        Work.say (name ++ " (GNU coreutils) 9.1")
        return .code 0
      else body start name g

/-- A program with options: what it does with its name and with what it is given. -/
def withOptions (t : OptionTable) (isMixed : Bool) (misused : Nat)
    (body : Starter → String → Given → Work ExitStatus) : Utility :=
  withChecked t (fun _ => none) isMixed misused body

/-- A program that starts no other one. -/
def plain (t : OptionTable) (body : String → Given → Work Nat) : Utility :=
  withOptions t true 1 fun _ name g => do return .code (← body name g)

/-- A program that does something about each of its operands, and needs one at least. -/
def forEachOperand (t : OptionTable) (step : String → Given → String → Work Nat) : Utility :=
  withOptions t true 1 fun _ name g => do
    if g.operands.isEmpty then misuse name 1 "missing operand"
    else return .code (← Work.worst g.operands (step name g))

/-- The text of an operand of a program that reads files, a dash meaning the input. -/
def textOf (path : String) : Work (Except IoError (List Char)) :=
  if path = "-" then Work.takeInput else Work.readFile path

/-- The texts of the operands, or the input if there are none. What cannot be read is
complained of. -/
def texts (name : String) (operands : List String) : Work (Nat × List (String × List Char)) := do
  let paths := if operands.isEmpty then ["-"] else operands
  paths.foldlM (fun (status, ts) path => do
    match ← textOf path with
    | .ok s => return (status, ts ++ [(path, s)])
    | .error e => return (← complaint name (bare path ++ ": " ++ e.reason), ts)) (0, [])

/-- Runs a program; one whose file names no reader is read by a shell. -/
def startOrRead (start : Starter) (name : String) (args : List String) :
    Work (Except IoError ExitStatus) := do
  match ← start name args with
  | .error .badExecutable =>
    let w ← get
    let path := (w.environment.lookup "PATH").getD Program.defaultPath
    let found := if name.toList.contains '/' then name
      else (Program.which w.disk path name).toOption.getD name
    start "/bin/sh" ("/bin/sh" :: found :: args.drop 1)
  | result => return result

/-- A natural in decimal. -/
def natural? (s : String) : Option Nat :=
  if !s.isEmpty && s.toList.all isDigit then some (digitsValue s.toList) else none

end Utility

end ServiceCall.Shell
