import ServiceCall.Number.Binary
import ServiceCall.Wire.Raw
/-!
# Messages

A message of a type holds the values of some of its fields, by field number in ascending
order, and the fields its type does not know as they stood on the wire. What a value is
allowed to be is said by the type; integers of every kind and the numbers of enum values
are integers here.
-/

namespace ServiceCall

mutual

/-- The value of a field. -/
inductive Value where
  | bool (b : Bool)
  | integer (i : Int)
  | single (x : Single)
  | double (x : Double)
  | text (s : String)
  | bytes (b : Bytes)
  | record (m : Message)
  | list (items : List Value)
  | map (entries : List (Value × Value))

/-- A message. -/
inductive Message where
  | mk (type : String) (fields : List (Nat × Value)) (unknown : Wire.RawRecord)

end

instance : Inhabited Value := ⟨.bool false⟩

instance : Inhabited Message := ⟨.mk "" [] []⟩

/-- The value of a number, in a table by numbers. -/
def numbered? (n : Nat) : List (Nat × α) → Option α
  | [] => none
  | (m, v) :: rest => if m = n then some v else numbered? n rest

/-- Puts a value into its place in a table by numbers; an equal number's value is replaced. -/
def setNumbered (n : Nat) (v : α) : List (Nat × α) → List (Nat × α)
  | [] => [(n, v)]
  | (m, w) :: rest =>
    if n < m then (n, v) :: (m, w) :: rest
    else if n = m then (n, v) :: rest
    else (m, w) :: setNumbered n v rest

theorem numbered?_setNumbered_self (n : Nat) (v : α) (t : List (Nat × α)) :
    numbered? n (setNumbered n v t) = some v := by
  induction t with
  | nil => simp [setNumbered, numbered?]
  | cons x rest ih =>
    simp only [setNumbered]
    split
    · simp [numbered?]
    · split
      · simp [numbered?]
      · rename_i h
        simp [numbered?, Ne.symm h, ih]

theorem numbered?_setNumbered_of_ne {n m : Nat} (h : m ≠ n) (v : α) (t : List (Nat × α)) :
    numbered? m (setNumbered n v t) = numbered? m t := by
  induction t with
  | nil => simp [setNumbered, numbered?, Ne.symm h]
  | cons x rest ih =>
    simp only [setNumbered]
    split
    · simp [numbered?, Ne.symm h]
    · split
      · rename_i hx
        subst hx
        simp [numbered?, Ne.symm h]
      · simp [numbered?, ih]

namespace Message

/-- The full name of the message's type. -/
def type : Message → String
  | mk type _ _ => type

/-- The fields that are set. -/
def fields : Message → List (Nat × Value)
  | mk _ fields _ => fields

/-- The fields that the type does not know, in the order in which they were read. -/
def unknown : Message → Wire.RawRecord
  | mk _ _ unknown => unknown

/-- The message of a type with nothing set. -/
def empty (type : String) : Message := mk type [] []

/-- The value of a field, if it is set. -/
def get? (m : Message) (number : Nat) : Option Value := numbered? number m.fields

/-- The message with a field set. -/
def set (m : Message) (number : Nat) (v : Value) : Message :=
  mk m.type (setNumbered number v m.fields) m.unknown

/-- The message with fields unset. -/
def clear (m : Message) (numbers : List Nat) : Message :=
  mk m.type (m.fields.filter fun f => !numbers.contains f.1) m.unknown

theorem get?_set_self (m : Message) (number : Nat) (v : Value) :
    (m.set number v).get? number = some v := by
  simp [set, get?, fields, numbered?_setNumbered_self]

theorem get?_set_of_ne (m : Message) {number other : Nat} (h : other ≠ number) (v : Value) :
    (m.set number v).get? other = m.get? other := by
  simp [set, get?, fields, numbered?_setNumbered_of_ne h]

end Message

end ServiceCall
