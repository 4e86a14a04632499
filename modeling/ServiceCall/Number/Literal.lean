import ServiceCall.Number.Shortest
/-!
# Number literals in strings

Integers and floating-point numbers written as text, read with the nearest value. An
integer's digits are read from the left, so a bad character and a value out of range
are told apart by which of the two comes first.
-/

namespace ServiceCall

/-- The value of a decimal digit. -/
def digit? (c : Char) : Option Nat :=
  if '0'.toNat ≤ c.toNat ∧ c.toNat ≤ '9'.toNat then some (c.toNat - '0'.toNat) else none

def isDigit (c : Char) : Bool := (digit? c).isSome

/-- The number a run of digits stands for; other characters count as zero. -/
def digitsValue (ds : List Char) : Nat := ds.foldl (fun n c => 10 * n + (digit? c).getD 0) 0

/-- Why a text is no integer of a range. -/
inductive IntegerFault
  | empty
  | badDigit
  | tooLarge
  | tooSmall
  deriving DecidableEq, Repr

def IntegerFault.message : IntegerFault → String
  | empty => "cannot parse integer from empty string"
  | badDigit => "invalid digit found in string"
  | tooLarge => "number too large to fit in target type"
  | tooSmall => "number too small to fit in target type"

/-- The range of an integer type. -/
structure IntegerRange where
  least : Int
  greatest : Int
  deriving DecidableEq, Repr

namespace IntegerRange

def int32 : IntegerRange := ⟨-0x80000000, 0x7FFFFFFF⟩
def int64 : IntegerRange := ⟨-0x8000000000000000, 0x7FFFFFFFFFFFFFFF⟩
def uint32 : IntegerRange := ⟨0, 0xFFFFFFFF⟩
def uint64 : IntegerRange := ⟨0, 0xFFFFFFFFFFFFFFFF⟩

def mem (r : IntegerRange) (i : Int) : Bool := r.least ≤ i && i ≤ r.greatest

/-- A range with a negative part allows a minus sign. -/
def isSigned (r : IntegerRange) : Bool := r.least < 0

/-- Appends digits to a value, one at a time. -/
def readDigits (r : IntegerRange) (negative : Bool) : Int → List Char → Except IntegerFault Int
  | value, [] => .ok value
  | value, c :: rest =>
    match digit? c with
    | none => .error .badDigit
    | some d =>
      let value := if negative then 10 * value - d else 10 * value + d
      if value < r.least then .error .tooSmall
      else if r.greatest < value then .error .tooLarge
      else readDigits r negative value rest

/-- Reads an optional sign and digits. -/
def read (r : IntegerRange) : List Char → Except IntegerFault Int
  | [] => .error .empty
  | ['+'] | ['-'] => .error .badDigit
  | '+' :: ds => r.readDigits false 0 ds
  | '-' :: ds => if r.isSigned then r.readDigits true 0 ds else .error .badDigit
  | ds => r.readDigits false 0 ds

end IntegerRange

namespace Floating

/-- The number nearest to `± digits · 10 ^ exponent`. Exponents far outside the format's range
are cut off, which changes no result. -/
def ofDecimal (f : Format) (negative : Bool) (digits : Nat) (exponent : Int) : Floating f :=
  let size : Int := (Nat.toDigits 10 digits).length
  if digits = 0 ∨ exponent + size < -400 then zero f negative
  else if 400 < exponent + size then infinite f negative
  else ofQuotient f negative (digits * Nat.pow 10 exponent.toNat) (Nat.pow 10 (-exponent).toNat)

/-- Why a text is no floating-point number. -/
inductive LiteralFault
  | empty
  | invalid
  deriving DecidableEq, Repr

def LiteralFault.message : LiteralFault → String
  | empty => "cannot parse float from empty string"
  | invalid => "invalid float literal"

/-- The digits of an exponent with an optional sign. -/
def readExponent : List Char → Option Int
  | '+' :: ds => if ds.isEmpty ∨ !ds.all isDigit then none else some (digitsValue ds)
  | '-' :: ds => if ds.isEmpty ∨ !ds.all isDigit then none else some (-(digitsValue ds : Int))
  | ds => if ds.isEmpty ∨ !ds.all isDigit then none else some (digitsValue ds)

/-- Reads an unsigned literal: digits with an optional point and exponent, or a name. -/
def readUnsigned (f : Format) (negative : Bool) (s : List Char) : Option (Floating f) :=
  let name := s.map Char.toLower
  if name = "inf".toList ∨ name = "infinity".toList then some (infinite f negative)
  else if name = "nan".toList then some { nan f with negative }
  else
    let whole := s.takeWhile isDigit
    let rest := s.dropWhile isDigit
    let (fraction, rest) := match rest with
      | '.' :: r => (r.takeWhile isDigit, r.dropWhile isDigit)
      | r => ([], r)
    if whole.isEmpty ∧ fraction.isEmpty then none
    else
      let digits := digitsValue (whole ++ fraction)
      let places : Int := fraction.length
      match rest with
      | [] => some (ofDecimal f negative digits (-places))
      | e :: r =>
        if e = 'e' ∨ e = 'E' then
          (readExponent r).map fun x => ofDecimal f negative digits (x - places)
        else none

/-- Reads a literal with an optional sign. -/
def read (f : Format) (s : List Char) : Except LiteralFault (Floating f) :=
  let unsigned (negative : Bool) (r : List Char) : Except LiteralFault (Floating f) :=
    match readUnsigned f negative r with
    | some x => .ok x
    | none => .error .invalid
  match s with
  | [] => .error .empty
  | '-' :: r => unsigned true r
  | '+' :: r => unsigned false r
  | r => unsigned false r

end Floating

end ServiceCall
