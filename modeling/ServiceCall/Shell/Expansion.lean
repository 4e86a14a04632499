import ServiceCall.Disk.Basic
import ServiceCall.Shell.Arithmetic
import ServiceCall.Shell.Evaluation
import ServiceCall.Text.Octets
import ServiceCall.Shell.Pattern
/-!
# Expansion

What the parts of a word stand for, and the fields that a word becomes; a field that is a pattern
becomes the paths that match it.
-/

namespace ServiceCall.Shell.Glob

/-! ## Names that match a pattern

A pattern for paths is matched part by part against the names on a disk. A name that starts
with a dot is only found by a part that does.
-/

/-- The parts of a pattern between slashes. -/
def parts : List Marked → List (List Marked)
  | [] => [[]]
  | m :: rest =>
    if m.1 = '/' then [] :: parts rest
    else match parts rest with
      | [] => [[m]]
      | part :: more => (m :: part) :: more

/-- The names in a directory, as texts of bytes. -/
def namesIn (d : Disk) (dir : List Char) : List (List Char) :=
  let path := if dir.isEmpty then "." else String.ofList dir
  match d.follow true path with
  | .ok ⟨location, some .directory⟩ =>
    ['.'] :: ['.', '.'] :: (d.children location).map fun (name, _) => name.toList
  | _ => []

/-- The part finds the name. -/
def finds (part : List Marked) (name : List Char) : Bool :=
  Pattern.isMatch part name && (name.head? ≠ some '.' || (part.head?.map (·.1)) = some '.')

/-- Something stands at a path. -/
def isThere (d : Disk) (path : List Char) : Bool :=
  match d.linkEntry (String.ofList path) with
  | .ok _ => true
  | .error _ => false

/-- The paths that some paths can be continued to by a part. -/
def further (d : Disk) (part : List Marked) (isLast : Bool) (paths : List (List Char)) :
    List (List Char) :=
  let tail := if isLast then [] else ['/']
  if Pattern.isMagic part then
    paths.flatMap fun path =>
      ((namesIn d path).filter (finds part)).map fun name => path ++ name ++ tail
  else (paths.map fun path => path ++ part.map (·.1) ++ tail).filter fun path =>
    !isLast || isThere d path

/-- The paths that match a list of parts, below some paths. -/
def below (d : Disk) : List (List Marked) → List (List Char) → List (List Char)
  | [], paths => paths
  | part :: rest, paths => below d rest (further d part rest.isEmpty paths)

/-- The paths that match a pattern, in the order of their bytes. -/
def paths (d : Disk) (p : List Marked) : List String :=
  ((below d (parts p) [[]]).map String.ofList).mergeSort fun a b => a ≤ b

end ServiceCall.Shell.Glob

namespace ServiceCall.Shell.Expansion

/-! ## Expansion

What the parts of a word stand for, and the fields that a word becomes: parameters, the
output of commands and arithmetic are put in, the whole is cut into fields, and fields
that are patterns become the paths that match them.
-/

/-! ## Home directories -/

/-- The directory of a user, nobody meaning the one who runs the shell. -/
def home? (s : State) (user : List Char) : Option String :=
  if user.isEmpty then s.value? "HOME"
  else if user = "root".toList then some "/root"
  else none

/-- A text that starts with a tilde: the directory it names, and what follows. -/
def tilde? (s : State) (isAssignment isWhole : Bool) (text : List Char) :
    Option (String × List Char) :=
  match text with
  | '~' :: rest =>
    let isEnd (c : Char) : Bool := c = '/' || (isAssignment && c = ':')
    let user := rest.takeWhile fun c => !isEnd c
    let after := rest.dropWhile fun c => !isEnd c
    if after.isEmpty ∧ !isWhole then none else (home? s user).map fun dir => (dir, after)
  | _ => none

/-- The pieces of a text between colons, each but the last with its colon. -/
def betweenColons : List Char → List (List Char)
  | [] => [[]]
  | c :: rest =>
    if c = ':' then [c] :: betweenColons rest
    else match betweenColons rest with
      | [] => [[c]]
      | piece :: more => (c :: piece) :: more

/-- An unquoted text of the command itself, tildes put in. -/
def literal (s : State) (p : Purpose) (isFirst isLast : Bool) (text : String) : List Glyph :=
  let plain (cs : List Char) : List Glyph := Glyph.ofLiteral false (String.ofList cs)
  let piece (isStart isWhole : Bool) (cs : List Char) : List Glyph :=
    match if isStart then tilde? s (p = .assignment) isWhole cs else none with
    | some (dir, rest) => Glyph.ofLiteral true dir ++ plain rest
    | none => plain cs
  match p with
  | .document => Glyph.ofLiteral true text
  | .assignment =>
    let pieces := betweenColons text.toList
    (pieces.zipIdx.map fun (cs, n) =>
      piece (isFirst || 0 < n) (isLast || n + 1 < pieces.length) cs).flatten
  | _ => piece isFirst isLast text.toList

/-! ## Parameters -/

/-- The value of a parameter that is used as it is. -/
def value (name : String) : Act String := do
  let s ← get
  match s.parameter? name with
  | some v => return v
  | none =>
    if s.hasOption 'u' then Act.fail (name ++ ": parameter not set")
    else return ""

/-- All positional parameters. -/
def positional (s : State) (p : Purpose) (quoted isList : Bool) : List Glyph :=
  match p with
  | .fields =>
    if quoted ∧ isList then
      let lists := s.arguments.map (Glyph.ofValue true)
      let kept := if (s.arguments.getLast?) = some "" then [Glyph.keep] else []
      [Glyph.border].intercalate lists ++ kept
    else if quoted then Glyph.ofValue true (s.joint.intercalate s.arguments)
    else Glyph.ofValue false ("\x00".intercalate s.arguments)
  | _ => Glyph.ofValue quoted (s.joint.intercalate s.arguments)

/-- What a parameter stands for. -/
def parameter (p : Purpose) (quoted : Bool) (name : String) : Act (List Glyph) := do
  if name = "@" ∨ name = "*" then return positional (← get) p quoted (name = "@")
  else return Glyph.ofValue quoted (← value name)

/-- The word that stands in for a parameter; its own text separates fields. -/
def substitute (i : Interpreter) (p : Purpose) (quoted : Bool) (w : Word) : Act (List Glyph) := do
  let gs ← i.expand p w
  if quoted then return gs
  else return .seam :: gs.map fun
    | .char c false _ => .char c false true
    | g => g

/-- What a parameter stands for after a look at its value. -/
def checked (i : Interpreter) (p : Purpose) (quoted : Bool) (name : String) (orEmpty : Bool)
    (remedy : Remedy) (w : Word) : Act (List Glyph) := do
  let isSet := match (← get).parameter? name with
    | some v => !orEmpty || !v.isEmpty
    | none => false
  match isSet, remedy with
  | true, .alternate | false, .replace => substitute i p quoted w
  | false, .alternate => return []
  | true, _ => parameter p quoted name
  | false, .assign =>
    let text := Glyph.text (← i.expand .value w)
    unless Name.isName name do Act.fail (name ++ ": bad variable name")
    Act.assign name text
    return Glyph.ofValue quoted text
  | false, .refuse =>
    let message ← if w.isEmpty then
        pure (if orEmpty then "parameter not set or null" else "parameter not set")
      else do pure (Glyph.text (← i.expand .value w))
    Act.fail (name ++ ": " ++ message)

/-- A value without a part that matches a pattern. -/
def trim (t : Trim) (p : List Marked) (s : List Char) : List Char :=
  let sizes := List.range (s.length + 1)
  match t with
  | .shortestStart => Pattern.cutStart p sizes s
  | .longestStart => Pattern.cutStart p sizes.reverse s
  | .shortestEnd => Pattern.cutEnd p sizes.reverse s
  | .longestEnd => Pattern.cutEnd p sizes s

/-! ## Arithmetic -/

/-- The value of an expression; what it assigns is assigned. -/
def arithmetic (text : String) : Act String := do
  let s ← get
  let scope : Arithmetic.Scope := ⟨s.parameter?, s.isConstant⟩
  let result := do
    let e ← Arithmetic.parse text.toList
    (Arithmetic.eval scope e).run []
  match result with
  | .ok (n, assigned) =>
    for (name, v) in assigned.reverse do Act.assign name (toString v)
    return toString n
  | .error (.expression message) =>
    Act.fail ("arithmetic expression: " ++ message ++ ": \"" ++ text ++ "\"")
  | .error (.illegalNumber number) => Act.fail ("Illegal number: " ++ number)
  | .error (.constant name) => Act.fail (name ++ ": is read only")

/-! ## Words -/

/-- The output of a command as the value of a part: without the line breaks at its end. -/
def output (i : Interpreter) (body : Script) : Act String := do
  let s ← get
  let text ← i.captured id (i.run false body)
  modify fun t => { t with outputStatus := t.status, status := s.status }
  return String.ofList (Octets.trimEnd (text.filter (· ≠ '\x00')))

/-- What a part of a word stands for. -/
def part (i : Interpreter) (p : Purpose) (isFirst isLast : Bool) : Part → Act (List Glyph)
  | .literal true text => return Glyph.ofLiteral true text
  | .literal false text => return literal (← get) p isFirst isLast text
  | .parameter q name => parameter p q name
  | .length q name => do return Glyph.ofValue q (toString (← value name).length)
  | .trimmed q name t pattern => do
    let v ← value name
    let ps := Glyph.marked (← i.expand .value pattern)
    return Glyph.ofValue q (String.ofList (trim t ps v.toList))
  | .checked q name orEmpty remedy w => checked i p q name orEmpty remedy w
  | .output q body => do return Glyph.ofValue q (← output i body)
  | .arithmetic q e => do
    let text := Glyph.text (← i.expand .document e)
    return Glyph.ofValue q (← arithmetic text)
  | .malformed => Act.fail "Bad substitution"

/-- What a word stands for. -/
def word (i : Interpreter) (p : Purpose) (w : Word) : Act (List Glyph) := do
  let rows ← w.zipIdx.mapM fun (x, n) => part i p (n = 0) (n + 1 = w.length) x
  return rows.flatten

/-- The text that a word stands for. -/
def text (i : Interpreter) (p : Purpose) (w : Word) : Act String := do
  return Glyph.text (← i.expand p w)

/-- A field as it is, or the paths that it matches. -/
def pathsOf (s : State) (field : List Marked) : List String :=
  let itself := [String.ofList (field.map (·.1))]
  if s.hasOption 'f' ∨ !Pattern.isMagic field then itself
  else match Glob.paths s.disk field with
    | [] => itself
    | paths => paths

/-- The fields that a word becomes. -/
def fields (i : Interpreter) (w : Word) : Act (List String) := do
  let gs ← i.expand .fields w
  let s ← get
  return (Glyph.fields s.separators gs).flatMap (pathsOf s)

/-- The word of a builtin that assigns: an assignment is one field. -/
def declaration (i : Interpreter) (w : Word) : Act (List String) := do
  match Word.assignment? w with
  | some (name, v) => return [name ++ "=" ++ (← text i .assignment v)]
  | none => fields i w

/-- The builtins whose arguments can be assignments. -/
def declaring : List String := ["export", "local", "readonly"]

/-- The fields of the words of a command. -/
def commandFields (i : Interpreter) (words : List Word) : Act (List String) :=
  words.foldlM (fun fs w => do
    let isDeclaring := match fs.find? (· ≠ "command") with
      | some name => declaring.contains name
      | none => false
    return fs ++ (← if isDeclaring then declaration i w else fields i w)) []

end ServiceCall.Shell.Expansion
