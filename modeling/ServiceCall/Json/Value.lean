import ServiceCall.Number.Shortest
/-!
# JSON values

Integers are kept exact and every other number is a double. The members of an object
are in ascending order of their keys, each key once; `insert` keeps them so.
-/

namespace ServiceCall

/-- A JSON value. -/
inductive Json where
  | null
  | bool (b : Bool)
  | integer (i : Int)
  | float (x : Double)
  | string (s : String)
  | array (items : List Json)
  | object (members : List (String × Json))
  deriving Repr, Inhabited

namespace Json

/-- The integers a number may hold. -/
def integerBounds (i : Int) : Bool := -0x8000000000000000 ≤ i && i < 0x10000000000000000

/-- Puts a member into its place; an equal key's value is replaced. -/
def insertMember (key : String) (value : α) : List (String × α) → List (String × α)
  | [] => [(key, value)]
  | (k, v) :: rest =>
    if key < k then (key, value) :: (k, v) :: rest
    else if key = k then (key, value) :: rest
    else (k, v) :: insertMember key value rest

/-- The object of a list of members; the last of equal keys counts. -/
def ofMembers (members : List (String × Json)) : Json :=
  .object (members.foldl (fun o m => insertMember m.1 m.2 o) [])

/-- The value of a key. -/
def member? (key : String) : List (String × α) → Option α
  | [] => none
  | (k, v) :: rest => if k = key then some v else member? key rest

/-- The value of a key, of an object. -/
def get? (key : String) : Json → Option Json
  | .object members => member? key members
  | _ => none

mutual

/-- A value without floating-point numbers whose integers are in range and whose objects are
in order, nested to at most the given depth of containers. -/
def isPlain : Nat → Json → Bool
  | _, .null => true
  | _, .bool _ => true
  | _, .integer i => integerBounds i
  | _, .float _ => false
  | _, .string _ => true
  | 0, .array _ => false
  | 0, .object _ => false
  | depth + 1, .array items => arePlain depth items
  | depth + 1, .object members => areMembersPlain depth none members

def arePlain : Nat → List Json → Bool
  | _, [] => true
  | depth, v :: rest => isPlain depth v && arePlain depth rest

def areMembersPlain : Nat → Option String → List (String × Json) → Bool
  | _, _, [] => true
  | depth, before, (k, v) :: rest =>
    (match before with | some b => decide (b < k) | none => true) &&
      isPlain depth v && areMembersPlain depth (some k) rest

end

theorem member?_insertMember_self (key : String) (value : α) (members : List (String × α)) :
    member? key (insertMember key value members) = some value := by
  induction members with
  | nil => simp [insertMember, member?]
  | cons m rest ih =>
    simp only [insertMember]
    split
    · simp [member?]
    · split
      · simp [member?]
      · rename_i h
        simp [member?, Ne.symm h, ih]

end Json

end ServiceCall
