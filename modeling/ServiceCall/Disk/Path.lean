import ServiceCall.Text.Octets
/-!
# Paths

A path is a text of bytes, with parts between slashes. Its components leave out empty parts and
dots, except a dot that the path starts with; the order of paths is the order of their
components, which is not the order of their texts: `a/b` comes before `a.c`.
-/

namespace ServiceCall

/-- A path as it is written, a text of bytes. -/
abbrev Path := String

namespace Path

/-- The path that a text stands for. -/
def ofText (s : String) : Path := Octets.ofText s

/-- A path as it is shown. What is no UTF-8 in it is lost. -/
def shown (p : Path) : String := Octets.toText p

/-- The text that stands for a path, if there is one. -/
def text? (p : Path) : Option String := Octets.toText? p

/-- There is a text that stands for the path. -/
def isText (p : Path) : Bool := p.text?.isSome

/-- The parts between slashes, empty ones included. -/
def split : List Char → List (List Char)
  | [] => [[]]
  | c :: rest =>
    if c = '/' then [] :: split rest
    else match split rest with
      | [] => [[c]]
      | part :: parts => (c :: part) :: parts

/-- Parts joined by slashes. -/
def joinParts : List (List Char) → List Char
  | [] => []
  | [part] => part
  | part :: parts => part ++ '/' :: joinParts parts

theorem split_ne_nil (s : List Char) : split s ≠ [] := by
  cases s with
  | nil => simp [split]
  | cons c rest =>
    simp only [split]
    split
    · simp
    · split <;> simp

theorem joinParts_split (s : List Char) : joinParts (split s) = s := by
  induction s with
  | nil => rfl
  | cons c rest ih =>
    simp only [split]
    split
    · rename_i h
      cases hs : split rest with
      | nil => exact absurd hs (split_ne_nil rest)
      | cons p ps => simp [joinParts, ← hs, ih, h]
    · cases hs : split rest with
      | nil => exact absurd hs (split_ne_nil rest)
      | cons p ps =>
        rw [hs] at ih
        cases ps with
        | nil => simp [joinParts] at ih ⊢; exact ih
        | cons q qs => simp [joinParts] at ih ⊢; exact ih

/-- What a path is made of. -/
inductive Component where
  | root
  | current
  | parent
  | name (s : String)
  deriving DecidableEq, Repr

/-- A path that starts at the root. -/
def isAbsolute (p : Path) : Bool := p.toList.head? == some '/'

/-- A part of a path, unless it is empty or a dot. -/
def component? (part : List Char) : Option Component :=
  if part = [] ∨ part = ['.'] then none
  else if part = ['.', '.'] then some .parent
  else some (.name (String.ofList part))

/-- The components of a path. -/
def components (p : Path) : List Component :=
  let parts := split p.toList
  let start : List Component :=
    match parts with
    | [] :: _ :: _ => [.root]
    | ['.'] :: _ => [.current]
    | _ => []
  start ++ parts.filterMap component?

/-- The text of a component. -/
def Component.text : Component → String
  | .root => "/"
  | .current => "."
  | .parent => ".."
  | .name s => s

/-- The order of components: a name is the last kind, and names go by their bytes. -/
def Component.lt : Component → Component → Bool
  | .name a, .name b => a < b
  | a, b => rank a < rank b
where
  rank : Component → Nat
    | .root => 0
    | .current => 1
    | .parent => 2
    | .name _ => 3

/-- The order of lists of components, a shorter list before its extensions. -/
def componentsLe : List Component → List Component → Bool
  | [], _ => true
  | _ :: _, [] => false
  | a :: as, b :: bs => if a = b then componentsLe as bs else a.lt b

/-- The order of paths. -/
def le (p q : Path) : Bool := componentsLe p.components q.components

/-- A path below another one; an absolute path stands for itself. -/
def join (base rest : Path) : Path :=
  if isAbsolute rest then rest
  else if base.isEmpty ∨ base.toList.getLast? = some '/' then base ++ rest
  else base ++ "/" ++ rest

/-- The last component, if it is a name. -/
def fileName? (p : Path) : Option String :=
  match p.components.getLast? with
  | some (.name s) => some s
  | _ => none

/-- What follows the last dot of a name, unless the name starts with that dot. -/
def extensionOf? (name : String) : Option String :=
  let reversed := name.toList.reverse
  let after := reversed.takeWhile (· ≠ '.')
  match reversed.dropWhile (· ≠ '.') with
  | _ :: _ :: _ => some (String.ofList after.reverse)
  | _ => none

/-- The extension of a path's file name. -/
def extension? (p : Path) : Option String := p.fileName?.bind extensionOf?

/-- Appends components to a text, with a slash where one is needed. -/
def push (base : Path) : List Component → Path
  | [] => base
  | c :: rest => push (join base c.text) rest

/-- The same path from the root: dots and repeated slashes go, `..` and a slash at the end
stay, and so do two slashes at the start. None for the empty path. -/
def absolute? (workingDirectory p : Path) : Option Path :=
  if p.isEmpty then none
  else
    let components := p.components.filter (· ≠ .current)
    let path :=
      if p.isAbsolute then
        match p.toList with
        | '/' :: '/' :: '/' :: _ => push "" components
        | '/' :: '/' :: _ => push "//" (components.drop 1)
        | _ => push "" components
      else push workingDirectory components
    some (if p.toList.getLast? = some '/' then join path "" else path)

end Path

end ServiceCall
