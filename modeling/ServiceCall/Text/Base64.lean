import ServiceCall.Text.Utf8
/-!
# Base 64

Three bytes stand as four symbols of six bits each. Written texts are padded; in texts that
are read the padding may be missing and the bits that are left over are ignored. Reading
takes either of two alphabets, which differ in their last two symbols.
-/

namespace ServiceCall.Base64

/-- An alphabet: its last two symbols, behind letters and digits. -/
structure Alphabet where
  sixtyTwo : Char
  sixtyThree : Char

def standard : Alphabet := ⟨'+', '/'⟩

/-- The alphabet for addresses and file names. -/
def urlSafe : Alphabet := ⟨'-', '_'⟩

/-- The symbol of six bits. -/
def symbol (a : Alphabet) (n : Nat) : Char :=
  if n < 26 then Char.ofNat ('A'.toNat + n)
  else if n < 52 then Char.ofNat ('a'.toNat + (n - 26))
  else if n < 62 then Char.ofNat ('0'.toNat + (n - 52))
  else if n = 62 then a.sixtyTwo
  else a.sixtyThree

/-- The six bits of a symbol, given as a byte. -/
def value? (a : Alphabet) (b : UInt8) : Option Nat :=
  let n := b.toNat
  if 65 ≤ n ∧ n ≤ 90 then some (n - 65)
  else if 97 ≤ n ∧ n ≤ 122 then some (n - 97 + 26)
  else if 48 ≤ n ∧ n ≤ 57 then some (n - 48 + 52)
  else if n = a.sixtyTwo.toNat then some 62
  else if n = a.sixtyThree.toNat then some 63
  else none

/-! ## Writing -/

/-- The symbols of bytes, padded to a multiple of four. -/
def encodeChars (a : Alphabet) : Bytes → List Char
  | [] => []
  | [x] => [symbol a (x.toNat / 4), symbol a (x.toNat % 4 * 16), '=', '=']
  | [x, y] =>
    [symbol a (x.toNat / 4), symbol a (x.toNat % 4 * 16 + y.toNat / 16),
      symbol a (y.toNat % 16 * 4), '=']
  | x :: y :: z :: rest =>
    symbol a (x.toNat / 4) :: symbol a (x.toNat % 4 * 16 + y.toNat / 16) ::
      symbol a (y.toNat % 16 * 4 + z.toNat / 64) :: symbol a (z.toNat % 64) :: encodeChars a rest

def encode (bytes : Bytes) : String := String.ofList (encodeChars standard bytes)

/-! ## Reading -/

/-- Why a text is refused. -/
inductive Fault where
  | symbol (offset : Nat) (byte : UInt8)
  | length (n : Nat)
  deriving DecidableEq, Repr

def Fault.message : Fault → String
  | symbol offset byte =>
    "Invalid symbol " ++ toString byte.toNat ++ ", offset " ++ toString offset ++ "."
  | length n => "Invalid input length: " ++ toString n

/-- The padding symbol. -/
def pad : UInt8 := 61

/-- The bytes that up to four symbols hold; bits left over are dropped. -/
def join : List Nat → Bytes
  | [a, b] => [UInt8.ofNat (a * 4 + b / 16)]
  | [a, b, c] => [UInt8.ofNat (a * 4 + b / 16), UInt8.ofNat (b % 16 * 16 + c / 4)]
  | [a, b, c, d] =>
    [UInt8.ofNat (a * 4 + b / 16), UInt8.ofNat (b % 16 * 16 + c / 4),
      UInt8.ofNat (c % 4 * 64 + d)]
  | _ => []

/-- Reads the last symbols with their padding. `count` symbols stand before this place in the
group of four, and `padding` is where padding began. -/
def readLast (a : Alphabet) (start : Nat) : Nat → Option Nat → List Nat → Bytes →
    Except Fault Bytes
  | _, _, values, [] => if values.length = 1 ∨ (values.isEmpty ∧ start ≠ 0) then
      .error (.length (start + values.length)) else .ok (join values)
  | count, padding, values, b :: rest =>
    if b = pad then
      if count < 2 then .error (.symbol (start + count) b)
      else readLast a start (count + 1) (some (padding.getD count)) values rest
    else match padding with
      | some first => .error (.symbol (start + first) pad)
      | none =>
        match value? a b with
        | none => .error (.symbol (start + count) b)
        | some v => readLast a start (count + 1) none (values ++ [v]) rest

/-- Reads groups of four symbols; the last group may be short or padded. -/
def readGroups (a : Alphabet) : Nat → Bytes → Except Fault Bytes
  | start, w :: x :: y :: z :: e :: rest =>
    match value? a w, value? a x, value? a y, value? a z with
    | some p, some q, some r, some s => do
      return join [p, q, r, s] ++ (← readGroups a (start + 4) (e :: rest))
    | none, _, _, _ => .error (.symbol start w)
    | _, none, _, _ => .error (.symbol (start + 1) x)
    | _, _, none, _ => .error (.symbol (start + 2) y)
    | _, _, _, none => .error (.symbol (start + 3) z)
  | start, last => readLast a start 0 none [] last

/-- Reads a text in one alphabet. A stray symbol behind whole groups is seen first. -/
def readWith (a : Alphabet) (bytes : Bytes) : Except Fault Bytes :=
  match bytes.getLast? with
  | some b =>
    if bytes.length % 4 = 1 ∧ b ≠ pad ∧ value? a b = none then
      .error (.symbol (bytes.length - 1) b)
    else readGroups a 0 bytes
  | none => .ok []

/-- Reads a text in the standard alphabet, or in the other one if that fails at one of its
own symbols. -/
def decode (s : String) : Except Fault Bytes :=
  let bytes := utf8 s
  match readWith standard bytes with
  | .error (.symbol offset b) =>
    if b = 45 ∨ b = 95 then readWith urlSafe bytes else .error (.symbol offset b)
  | r => r

end ServiceCall.Base64
