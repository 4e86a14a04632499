import ServiceCall.Number.Binary
/-!
# Likeness of words

How much two words have in common: the characters that match, no further apart than about
half the longer word, and how many of those stand in another order. The Jaro similarity is
the mean of three ratios, the matches to the length of either word and the matches in order
to all matches. It is taken in double precision, each step rounded, so words that are alike by
exactly seven tenths may come out above.
-/

namespace ServiceCall.Text

/-- Of the marked characters of a word, the first one at a position from `low` to below
`high` that is not taken and equals `c`, as the word with it taken. -/
def take? (c : Char) (low high : Nat) : Nat → List (Char × Bool) → Option (List (Char × Bool))
  | _, [] => none
  | position, (d, taken) :: rest =>
    if low ≤ position ∧ position < high ∧ c = d ∧ taken = false then some ((d, true) :: rest)
    else (take? c low high (position + 1) rest).map ((d, taken) :: ·)

/-- The characters of a word that match one of another word, and the other word with the
matches taken. -/
def matched (range : Nat) : Nat → List Char → List (Char × Bool) → List Char × List (Char × Bool)
  | _, [], other => ([], other)
  | position, c :: rest, other =>
    match take? c (position - range) (position + range + 1) 0 other with
    | some other =>
      let (more, other) := matched range (position + 1) rest other
      (c :: more, other)
    | none => matched range (position + 1) rest other

/-- The number of places in which two words differ. -/
def differences (a b : List Char) : Nat := ((a.zip b).filter fun (x, y) => x ≠ y).length

/-- How far apart matching characters may stand. -/
def matchRange (a b : List Char) : Nat := max a.length b.length / 2 - 1

/-- The number of the sum of two magnitudes, rounded. -/
def sum (f : Format) (x y : Nat) : Nat := f.roundUnits (f.inUnits x + f.inUnits y) 1

/-- The number of the mean of three magnitudes, rounded after every step. -/
def mean (f : Format) (x y z : Nat) : Nat := f.roundUnits (f.inUnits (sum f (sum f x y) z)) 3

/-- Two words are more alike than seven tenths. -/
def isLike (a b : List Char) : Bool :=
  let (left, other) := matched (matchRange a b) 0 a (b.map (·, false))
  let right := (other.filter (·.2)).map (·.1)
  let m := left.length
  let inOrder := m - differences left right / 2
  let ratio := Format.double.round
  if a = [] ∧ b = [] then true
  else 0 < m && ratio 7 10 <
    mean Format.double (ratio m a.length) (ratio m b.length) (ratio inOrder m)

end ServiceCall.Text
