import ServiceCall.Number.Binary
/-!
# Shortest decimal text

The decimal with the fewest digits among those that read back as a given number, and
of these the one nearest to it. A number owns the interval of quotients that round to
it; its ends belong to it when its mantissa is even. For a power of ten the only
candidates are the multiples just below and just above the number, so the first power,
from the largest down, with a candidate inside the interval gives the digits.
-/

namespace ServiceCall

/-- The decimal `digits · 10 ^ exponent`. -/
structure Decimal where
  digits : Nat
  exponent : Int
  deriving DecidableEq, Repr

/-- A natural as a quotient by a power of two or ten. -/
structure Interval where
  /-- The ends and the number itself, over one denominator. -/
  low : Nat
  value : Nat
  high : Nat
  den : Nat
  closed : Bool

namespace Interval

/-- Whether `n / d` lies in the interval. -/
def mem (i : Interval) (n d : Nat) : Bool :=
  if i.closed then i.low * d ≤ n * i.den && n * i.den ≤ i.high * d
  else i.low * d < n * i.den && n * i.den < i.high * d

/-- The better of the two multiples of `10 ^ k` next to the value, if one is inside. -/
def candidate? (i : Interval) (k : Int) : Option Nat :=
  let (n, d) := (Nat.pow 10 k.toNat, Nat.pow 10 (-k).toNat)
  let below := i.value * d / (i.den * n)
  let above := below + 1
  let inside (m : Nat) : Bool := 0 < m && i.mem (m * n) d
  match inside below, inside above with
  | true, true =>
    let (rise, fall) :=
      (above * n * i.den - i.value * d, i.value * d - below * n * i.den)
    if fall < rise then some below
    else if rise < fall then some above
    else some (if below % 2 = 0 then below else above)
  | true, false => some below
  | false, true => some above
  | false, false => none

/-- The first candidate, from the power `k` down. -/
def search (i : Interval) : Nat → Int → Decimal
  | 0, k => ⟨i.value / i.den, k⟩
  | fuel + 1, k =>
    match i.candidate? k with
    | some m => ⟨m, k⟩
    | none => search i fuel (k - 1)

end Interval

namespace Floating

variable {f : Format}

/-- The interval of a finite number's magnitude. -/
def interval (x : Floating f) : Interval :=
  let (m, e) := f.split x.number
  let narrow := m = Nat.pow 2 (f.precision - 1) ∧ 0 < e
  ⟨(4 * m - (if narrow then 1 else 2)) * Nat.pow 2 e, 4 * m * Nat.pow 2 e,
    (4 * m + 2) * Nat.pow 2 e, 4 * Nat.pow 2 f.units, m % 2 = 0⟩

/-- The decimal exponent just above a positive magnitude. -/
def topExponent (x : Floating f) : Int :=
  let i := x.interval
  let bits : Int := (i.value.log2 : Int) - (i.den.log2 : Int) + 1
  if 0 ≤ bits then (bits * 30103) / 100000 + 1 else -((-bits * 30103) / 100000) + 1

/-- The shortest decimal of a finite number's magnitude; zero is `0 · 10 ^ 0`. -/
def shortest (x : Floating f) : Decimal :=
  if x.isZero then ⟨0, 0⟩ else x.interval.search 40 x.topExponent

end Floating

/-- The text of a finite double: plain with a point from `10 ^ -5` up to `10 ^ 16`, otherwise
with an exponent that carries its sign. -/
def Double.text (x : Double) : String :=
  let d := x.shortest
  let digits := (Nat.toDigits 10 d.digits)
  let n := digits.length
  let point : Int := d.exponent + n
  let body : List Char :=
    if x.isZero then ['0', '.', '0']
    else if -4 ≤ point ∧ point ≤ 0 then
      '0' :: '.' :: (List.replicate (-point).toNat '0' ++ digits)
    else if 0 < point ∧ point ≤ 16 then
      if point < n then digits.take point.toNat ++ '.' :: digits.drop point.toNat
      else digits ++ List.replicate (point.toNat - n) '0' ++ ['.', '0']
    else
      let e := point - 1
      let mantissa := match digits with
        | [a] => [a]
        | a :: rest => a :: '.' :: rest
        | [] => []
      mantissa ++ 'e' :: (if e < 0 then '-' else '+') :: Nat.toDigits 10 e.natAbs
  String.ofList (if x.negative then '-' :: body else body)

/-! ## Plain decimal text

A finite double in the digits that read back to it, with a point and without an exponent
however large or small it is. -/

/-- The digits of a finite double with the point in its place. -/
def Double.plainText (x : Double) : String :=
  let d := x.shortest
  let digits := Nat.toDigits 10 d.digits
  let n := digits.length
  let point : Int := d.exponent + n
  let body : List Char :=
    if x.isZero then ['0', '.', '0']
    else if point ≤ 0 then '0' :: '.' :: (List.replicate (-point).toNat '0' ++ digits)
    else if point < n then digits.take point.toNat ++ '.' :: digits.drop point.toNat
    else digits ++ List.replicate (point.toNat - n) '0' ++ ['.', '0']
  String.ofList (if x.negative then '-' :: body else body)

end ServiceCall
