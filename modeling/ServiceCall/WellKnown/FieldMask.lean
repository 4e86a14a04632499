import ServiceCall.Text.Utf8
/-!
# Field masks

A list of paths to fields, written as one text with the paths in camel case and commas
between them.
-/

namespace ServiceCall.FieldMask

def isUpper (c : Char) : Bool := 'A' ≤ c && c ≤ 'Z'

def isLower (c : Char) : Bool := 'a' ≤ c && c ≤ 'z'

/-- A path in snake case; a path that has underscores already is none. -/
def toSnake? : List Char → Option (List Char)
  | [] => some []
  | c :: rest => do
    let rest ← toSnake? rest
    if c = '_' then none
    else if isUpper c then some ('_' :: c.toLower :: rest)
    else some (c :: rest)

/-- A path in camel case, if it can be brought back from there. An underscore at the end of a part
of the path is lost. -/
def toCamel? : List Char → Option (List Char)
  | [] => some []
  | '_' :: rest =>
    match rest with
    | [] => some []
    | '.' :: rest => (toCamel? rest).map ('.' :: ·)
    | c :: rest => if isLower c then (toCamel? rest).map (c.toUpper :: ·) else none
  | c :: rest => if isUpper c then none else (toCamel? rest).map (c :: ·)

/-- The parts of a text between commas. -/
def parts : List Char → List (List Char)
  | [] => [[]]
  | c :: rest =>
    if c = ',' then [] :: parts rest
    else match parts rest with
      | [] => [[c]]
      | part :: more => (c :: part) :: more

/-- The paths of a text; empty ones are left out. -/
def read? (s : String) : Option (List String) :=
  ((parts s.toList).filter (!·.isEmpty)).mapM fun part => (toSnake? part).map String.ofList

/-- The text of paths. No comma is put where nothing was written before. -/
def text? (paths : List String) : Option String :=
  (paths.foldlM (fun (written : List Char) (path : String) => do
    let camel ← toCamel? path.toList
    return if written.isEmpty then camel else written ++ ',' :: camel) []).map String.ofList

end ServiceCall.FieldMask
