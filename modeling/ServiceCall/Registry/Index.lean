import ServiceCall.Json.Value
import ServiceCall.Schema.Pool
/-!
# Indexes in order of insertion

An index keeps one entry for every key, in the order in which the keys came first, and
remembers the position of each key. A key that comes again replaces its entry in place.
-/

namespace ServiceCall

/-- Entries in order, with the positions of their keys. -/
structure Index (α : Type) where
  entries : List α
  positions : List (String × Nat)
  deriving Repr, Inhabited

namespace Index

variable {α : Type}

/-- The index without entries. -/
def empty : Index α := ⟨[], []⟩

/-- The position of a key. -/
def position? (x : Index α) (key : String) : Option Nat := Json.member? key x.positions

/-- Puts an entry at the position of its key, which is the end for a new key. -/
def insert (x : Index α) (key : String) (value : α) : Index α :=
  match x.position? key with
  | some i => { x with entries := x.entries.set i value }
  | none => ⟨x.entries ++ [value], (key, x.entries.length) :: x.positions⟩

/-- The entry of a key. -/
def get? (x : Index α) (key : String) : Option α := (x.position? key).bind (x.entries[·]?)

/-- The index of a list of entries with their keys. -/
def ofList (pairs : List (String × α)) : Index α :=
  pairs.foldl (fun x p => x.insert p.1 p.2) empty

end Index

/-! ## Method tables

The methods of an interface in the order of their declaration, with the position of each
name. Of methods with the same name the first one is found. -/

/-- Methods in order, with the positions of their names. -/
structure MethodTable where
  methods : List Method
  positions : List (String × Nat)
  deriving Repr, Inhabited

namespace MethodTable

/-- The positions of names, counted from `start`. A name that is there already stays. -/
def index : Nat → List Method → List (String × Nat) → List (String × Nat)
  | _, [], positions => positions
  | start, m :: rest, positions =>
    index (start + 1) rest
      (match Json.member? m.name positions with
        | some _ => positions
        | none => positions ++ [(m.name, start)])

/-- The table of a list of methods. -/
def ofList (methods : List Method) : MethodTable := ⟨methods, index 0 methods []⟩

/-- The first declared method of a name. -/
def find? (t : MethodTable) (name : String) : Option Method :=
  (Json.member? name t.positions).bind (t.methods[·]?)

/-- The method that is bound when none is named. -/
def default? (t : MethodTable) : Option Method := t.methods.head?

def toList (t : MethodTable) : List Method := t.methods

def length (t : MethodTable) : Nat := t.methods.length

def isEmpty (t : MethodTable) : Bool := t.methods.isEmpty

end MethodTable

end ServiceCall
