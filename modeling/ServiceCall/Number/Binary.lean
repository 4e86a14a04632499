/-!
# Binary floating point

A binary format is a precision and a least exponent. Its magnitudes are numbered in
ascending order, from zero over the subnormals to infinity, and the number of a
magnitude is what the bits beside the sign hold. `Format.round` takes a quotient of
naturals to the number of the nearest magnitude, ties to the even one, so every
conversion below is one exact quotient and one rounding.
-/

namespace ServiceCall

/-- The nearest natural to `n / d`, a tie going to the even neighbour. -/
def roundHalfEven (n d : Nat) : Nat :=
  let q := n / d
  let r := n % d
  if 2 * r < d then q else if d < 2 * r then q + 1 else q + q % 2

/-- A binary format: `precision` significant bits, a least unit of `2 ^ (-units)`,
and the given number of exponent bits. -/
structure Format where
  precision : Nat
  units : Nat
  exponentBits : Nat

namespace Format

/-- Double precision. -/
def double : Format := ⟨53, 1074, 11⟩

/-- Single precision. -/
def single : Format := ⟨24, 149, 8⟩

/-- The number of the infinite magnitude. -/
def infinity (f : Format) : Nat := (Nat.pow 2 f.exponentBits - 1) * Nat.pow 2 (f.precision - 1)

/-- Rounds `n / d`, given in least units, to the number of a magnitude. -/
def roundUnits (f : Format) (n d : Nat) : Nat :=
  let whole := n / d
  let e := whole.log2 + 1 - f.precision
  min f.infinity (e * Nat.pow 2 (f.precision - 1) + roundHalfEven n (d * Nat.pow 2 e))

/-- The number of the magnitude nearest to `n / d`. -/
def round (f : Format) (n d : Nat) : Nat := f.roundUnits (n * Nat.pow 2 f.units) d

/-- A finite magnitude by its number, as a mantissa and a power of two in least units. -/
def split (f : Format) (number : Nat) : Nat × Nat :=
  let e := number / Nat.pow 2 (f.precision - 1)
  let m := number % Nat.pow 2 (f.precision - 1)
  if e = 0 then (m, 0) else (m + Nat.pow 2 (f.precision - 1), e - 1)

/-- A finite magnitude by its number, in least units. -/
def inUnits (f : Format) (number : Nat) : Nat :=
  (f.split number).1 * Nat.pow 2 (f.split number).2

/-- The number of the sign bit. -/
def signBit (f : Format) : Nat := Nat.pow 2 (f.precision - 1 + f.exponentBits)

end Format

/-- A floating-point number of a format: its sign and the number of its magnitude. Numbers
above infinity's are not-a-number. -/
structure Floating (f : Format) where
  negative : Bool
  number : Nat
  deriving DecidableEq, Repr, Inhabited

/-- A double-precision number. -/
abbrev Double := Floating Format.double

/-- A single-precision number. -/
abbrev Single := Floating Format.single

namespace Floating

variable {f : Format}

/-- Zero, or the zero below it. -/
def zero (f : Format) (negative : Bool) : Floating f := ⟨negative, 0⟩

/-- Infinity of a sign. -/
def infinite (f : Format) (negative : Bool) : Floating f := ⟨negative, f.infinity⟩

/-- The not-a-number that arithmetic gives. -/
def nan (f : Format) : Floating f := ⟨false, f.infinity + Nat.pow 2 (f.precision - 2)⟩

def isNaN (x : Floating f) : Bool := f.infinity < x.number

def isInfinite (x : Floating f) : Bool := x.number = f.infinity

def isFinite (x : Floating f) : Bool := x.number < f.infinity

def isZero (x : Floating f) : Bool := x.number = 0

/-- The number whose bits are given. -/
def ofBits (f : Format) (bits : Nat) : Floating f :=
  ⟨f.signBit ≤ bits, bits % f.signBit⟩

/-- The bits of a number. -/
def toBits (x : Floating f) : Nat := (if x.negative then f.signBit else 0) + x.number

/-- The nearest number to `± n / d`. -/
def ofQuotient (f : Format) (negative : Bool) (n d : Nat) : Floating f :=
  ⟨negative, f.round n d⟩

/-- The nearest number to an integer; zero is positive. -/
def ofInt (f : Format) (i : Int) : Floating f := ofQuotient f (i < 0) i.natAbs 1

/-- The same number in another format, rounded if it has to be; a not-a-number stays one
and keeps the leading bits of its payload. -/
def convert (g : Format) (x : Floating f) : Floating g :=
  if x.isFinite then
    ⟨x.negative, g.round (f.inUnits x.number) (Nat.pow 2 f.units)⟩
  else if x.isInfinite then infinite g x.negative
  else
    let payload := x.number - f.infinity
    let payload :=
      if f.precision ≤ g.precision then payload * Nat.pow 2 (g.precision - f.precision)
      else payload / Nat.pow 2 (f.precision - g.precision)
    ⟨x.negative, g.infinity + (payload % Nat.pow 2 (g.precision - 2) + Nat.pow 2 (g.precision - 2))⟩

/-- The integer part of a finite number, towards zero. -/
def truncate (x : Floating f) : Int :=
  let n := f.inUnits x.number / Nat.pow 2 f.units
  if x.negative then -(n : Int) else n

/-- A finite number without a fraction. -/
def isIntegral (x : Floating f) : Bool :=
  x.isFinite && f.inUnits x.number % Nat.pow 2 f.units = 0

/-- Not below the integer: the comparison of a number that is not a not-a-number. -/
def geInt (x : Floating f) (i : Int) : Bool :=
  if x.isNaN then false
  else if x.isInfinite then !x.negative
  else
    let n : Int := f.inUnits x.number
    i * Nat.pow 2 f.units ≤ (if x.negative then -n else n)

/-- Not above the integer. -/
def leInt (x : Floating f) (i : Int) : Bool :=
  if x.isNaN then false
  else if x.isInfinite then x.negative
  else
    let n : Int := f.inUnits x.number
    (if x.negative then -n else n) ≤ i * Nat.pow 2 f.units

/-- The product with a positive number, rounded. -/
def scaleUp (x y : Floating f) : Floating f :=
  if x.isInfinite then x
  else ⟨x.negative, f.roundUnits (f.inUnits x.number * f.inUnits y.number) (Nat.pow 2 f.units)⟩

/-- The quotient by a positive number, rounded. -/
def scaleDown (x y : Floating f) : Floating f :=
  if x.isInfinite then x
  else ⟨x.negative, f.round (f.inUnits x.number) (f.inUnits y.number)⟩

end Floating

end ServiceCall
