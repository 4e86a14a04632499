import ServiceCall.Shell.Builtin.Basic
/-!
# Builtin commands for variables and options
-/

namespace ServiceCall.Shell.Builtin

/-- The variables in the order of their names. -/
def sortedVariables (s : State) : List (String × Variable) :=
  s.bindings.mergeSort fun a b => a.1 ≤ b.1

/-- The name and value of an argument that assigns or only names. -/
def nameAndValue (a : String) : Act (String × Option String) := do
  let name := String.ofList (a.toList.takeWhile (· ≠ '='))
  unless Name.isName name do Act.fail (name ++ ": bad variable name")
  match a.toList.dropWhile (· ≠ '=') with
  | _ :: value => return (name, some (String.ofList value))
  | [] => return (name, none)

/-- Marks variables, which may be given values at once, or lists those that are marked. -/
def declare (word : String) (isMarked : Variable → Bool) (mark : Variable → Variable) : Builtin :=
  fun _ _ args => do
    let (os, names) ← parsed "p" args
    if names.isEmpty ∨ !os.isEmpty then
      for (name, v) in sortedVariables (← get) do
        if isMarked v then
          let value := match v.value? with
            | some value => "=" ++ quoted value
            | none => ""
          say (word ++ " " ++ name ++ value)
    else
      for a in names do
        let (name, value?) ← nameAndValue a
        if let some value := value? then Act.assign name value
        modify fun s =>
          let v := (s.bindings.lookup name).getD ⟨none, false, false⟩
          s.withVariable name (mark v)
    done 0

/-- Makes variables part of the environment. -/
def exported : Builtin := declare "export" (·.isExported) fun v => { v with isExported := true }

/-- Makes variables constant. -/
def constant : Builtin := declare "readonly" (·.isConstant) fun v => { v with isConstant := true }

/-- Makes variables local to the function around. -/
def localized : Builtin := fun _ _ args => do
  if (← get).functionDepth = 0 then Act.fail "not in a function"
  for a in args do
    if a ≠ "-" then
      let (name, value?) ← nameAndValue a
      modify fun s => { s with
        locals := match s.locals with
          | [] => []
          | frame :: rest => ((name, s.bindings.lookup name) :: frame) :: rest }
      if let some value := value? then Act.assign name value
  done 0

/-- Removes variables or functions. -/
def unset : Builtin := fun _ _ args => do
  let (os, names) ← parsed "vf" args
  let ofFunctions : Bool := match os.getLast? with
    | some (c, _) => c = 'f'
    | none => false
  for name in names do
    if ofFunctions then
      modify fun s => { s with functions := s.functions.filter (·.1 ≠ name) }
    else
      unless Name.isName name do Act.fail (name ++ ": bad variable name")
      if (← get).isConstant name then Act.fail (name ++ ": is read only")
      modify fun s => s.withoutVariable name
  done 0

/-! ## Options -/

/-- Lists the options, for reading or as commands. -/
def listOptions (forReading : Bool) : Act Unit := do
  let s ← get
  let others := ["nolog", "debug"]
  let names := State.optionNames.map fun (c, name) => (name, s.hasOption c)
  let all := names ++ others.map fun name => (name, false)
  if forReading then
    say "Current option settings"
    for (name, isOn) in all do
      let gap := String.ofList (List.replicate (16 - name.length) ' ')
      say (name ++ gap ++ (if isOn then "on" else "off"))
  else
    for (name, isOn) in all do
      say ("set " ++ (if isOn then "-" else "+") ++ "o " ++ name)

/-- The options with a letter more or less. -/
def withOption (isOn : Bool) (c : Char) (s : State) : State :=
  let others := s.options.filter (· ≠ c)
  { s with options := if isOn then c :: others else others }

/-- Turns options on or off that the letters of an argument name. -/
def setLetters (isOn : Bool) : List Char → List String → Act (List String)
  | [], rest => return rest
  | c :: cs, rest => do
    if c = 'o' then
      match rest with
      | [] =>
        listOptions isOn
        setLetters isOn cs []
      | name :: rest =>
        match State.optionNames.find? (·.2 = name) with
        | some (c, _) => modify (withOption isOn c)
        | none =>
          unless name = "nolog" ∨ name = "debug" do Act.fail ("Illegal option -o " ++ name)
        setLetters isOn cs rest
    else
      unless State.optionNames.any (·.1 = c) do
        Act.fail ("Illegal option -" ++ String.singleton c)
      modify (withOption isOn c)
      setLetters isOn cs rest

/-- Sets options and then the positional parameters. -/
def setAll : Nat → List String → Act Unit
  | 0, _ => return ()
  | _ + 1, [] => return ()
  | fuel + 1, a :: rest => do
    match a.toList with
    | ['-'] =>
      modify fun s => withOption false 'v' (withOption false 'x' s)
      unless rest.isEmpty do modify fun s => s.withArguments rest
    | ['-', '-'] => modify fun s => s.withArguments rest
    | '-' :: cs => setAll fuel (← setLetters true cs rest)
    | '+' :: cs => setAll fuel (← setLetters false cs rest)
    | _ => modify fun s => s.withArguments (a :: rest)

/-- Sets options and positional parameters, or lists the variables. -/
def setting : Builtin := fun _ _ args => do
  if args.isEmpty then
    for (name, v) in sortedVariables (← get) do
      if let some value := v.value? then say (name ++ "=" ++ quoted value)
  else setAll (args.length + 1) args
  done 0

/-- Drops positional parameters. -/
def shift : Builtin := fun _ _ args => do
  let n ← match args with
    | [] => pure 1
    | a :: _ => natural a
  let s ← get
  if s.arguments.length < n then Act.fail "can't shift that many"
  set (s.withArguments (s.arguments.drop n))
  done 0

/-! ## Reading -/

/-- A line of a text: its characters, those that a backslash protects marked, whether it has
an end, and the text after it. -/
def lineOf (isRaw : Bool) : List Char → List Marked × Bool × List Char
  | [] => ([], false, [])
  | '\n' :: rest => ([], true, rest)
  | '\\' :: c :: rest =>
    if isRaw then
      let (line, isEnded, after) := lineOf isRaw (c :: rest)
      (('\\', false) :: line, isEnded, after)
    else
      let (line, isEnded, after) := lineOf isRaw rest
      (if c = '\n' then line else (c, true) :: line, isEnded, after)
  | c :: rest =>
    let (line, isEnded, after) := lineOf isRaw rest
    (if c = '\x00' ∨ (c = '\\' ∧ !isRaw) then line else (c, false) :: line, isEnded, after)

/-- A separator that is a blank. -/
def isGap (separators : List Char) (m : Marked) : Bool :=
  !m.2 && separators.contains m.1 && Glyph.blanks.contains m.1

/-- The first field of a line, and what follows the separator behind it. -/
def firstField (separators : List Char) (line : List Marked) : List Marked × List Marked :=
  let line := line.dropWhile (isGap separators)
  let isSeparator (m : Marked) : Bool := !m.2 && separators.contains m.1
  let field := line.takeWhile fun m => !isSeparator m
  let rest := (line.drop field.length).dropWhile (isGap separators)
  match rest with
  | m :: after =>
    if isSeparator m then (field, after.dropWhile (isGap separators)) else (field, rest)
  | [] => (field, [])

/-- The fields of a line for a number of variables; the last one gets all that is left. -/
def fieldsFor (separators : List Char) : Nat → List Marked → List (List Marked)
  | 0, _ => []
  | 1, line =>
    let (field, rest) := firstField separators line
    if rest.isEmpty then [field]
    else
      let line := line.dropWhile (isGap separators)
      [(line.reverse.dropWhile (isGap separators)).reverse]
  | n + 1, line =>
    let (field, rest) := firstField separators line
    field :: fieldsFor separators n rest

/-- Reads a line into variables. -/
def read : Builtin := fun _ _ args => do
  let (os, names) ← parsed "p:r" args
  if names.isEmpty then Act.fail "arg count"
  let s ← get
  let input := match Act.unread s 0 with
    | .ok text => text
    | .error _ => []
  let (line, isEnded, rest) := lineOf (os.any (·.1 = 'r')) input
  Act.leave 0 rest
  let separators := s.separators.filter (· ≠ '\x00')
  let values := fieldsFor separators names.length line
  for (name, field) in names.zip values do
    unless Name.isName name do Act.fail (name ++ ": bad variable name")
    Act.assign name (String.ofList (field.map (·.1)))
  done (if isEnded then 0 else 1)

/-! ## Options of a script -/

/-- What a look for an option finds: the letter and its argument. -/
structure FoundOption where
  letter : String
  argument : Option String
  complaint : Option String

/-- The letters that come next: the rest of the argument looked at last, or a further one. They
are given with all the argument and the number of the one behind it. At the end, that number
is left. -/
def nextLetters (args : List String) (p : OptionPlace) :
    (List Char × String × Nat) ⊕ Nat :=
  let current : Option (List Char × String) := do
    let offset ← p.offset
    let a ← if p.index ≤ 1 then none else args[p.index - 2]?
    let rest := a.toList.drop offset
    if rest.isEmpty then none else some (rest, a)
  match current with
  | some (rest, a) => .inl (rest, a, p.index)
  | none =>
    match args[p.index - 1]? with
    | none => .inr p.index
    | some a =>
      match a.toList with
      | ['-', '-'] => .inr (p.index + 1)
      | '-' :: c :: cs => .inl (c :: cs, a, p.index + 1)
      | _ => .inr p.index

/-- Looks for the next option of some arguments, and tells where the search stands then. -/
def nextOption (letters : List Char) (args : List String) (p : OptionPlace) :
    Option FoundOption × OptionPlace :=
  let isSilent := letters.head? = some ':'
  match nextLetters args p with
  | .inr index => (none, ⟨index, none⟩)
  | .inl ([], _, index) => (none, ⟨index, none⟩)
  | .inl (c :: more, a, index) =>
    let letter := String.singleton c
    let here : OptionPlace := ⟨index, some (a.length - more.length)⟩
    let wrong (silent complaint : String) : FoundOption :=
      if isSilent then ⟨silent, some letter, none⟩ else ⟨"?", none, some complaint⟩
    match if c = ':' then [] else letters.dropWhile (· ≠ c) with
    | [] => (some (wrong "?" ("Illegal option -" ++ letter)), here)
    | _ :: ':' :: _ =>
      match more, args[index - 1]? with
      | [], none => (some (wrong ":" ("No arg for -" ++ letter ++ " option")), here)
      | [], some v => (some ⟨letter, some v, none⟩, ⟨index + 1, none⟩)
      | more, _ => (some ⟨letter, some (String.ofList more), none⟩, ⟨index, none⟩)
    | _ => (some ⟨letter, some "", none⟩, here)

/-- Looks for the next option of the positional parameters or of its own arguments. -/
def getopts : Builtin := fun _ _ args => do
  match args with
  | letters :: name :: given =>
    let s ← get
    let args := if given.isEmpty then s.arguments else given
    let place := if args.length + 1 < s.optionPlace.index then .start else s.optionPlace
    let (found?, place) := nextOption letters.toList args place
    if let some f := found? then
      if let some complaint := f.complaint then
        let _ ← Act.emit 2 (complaint.toList ++ ['\n'])
      match f.argument with
      | some v => Act.assign "OPTARG" v
      | none => modify fun s => s.withoutVariable "OPTARG"
    Act.assign "OPTIND" (toString place.index)
    modify fun s => { s with optionPlace := place }
    unless Name.isName name do Act.fail (name ++ ": bad variable name")
    Act.assign name ((found?.map (·.letter)).getD "?")
    done (if found?.isSome then 0 else 1)
  | _ => Act.fail "Usage: getopts optstring var [arg...]"

end ServiceCall.Shell.Builtin
