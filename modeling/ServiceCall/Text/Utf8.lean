/-!
# Text as bytes

`encode` writes characters as UTF-8 and `symbols` reads bytes back, one symbol for
each character and one for each maximal run of bytes that no character starts with.
`decode?` accepts exactly the byte strings without such a run; `lossy` puts U+FFFD
in the place of every one.
-/

namespace ServiceCall

/-- A byte string. -/
abbrev Bytes := List UInt8

/-- The UTF-8 bytes of a text. -/
def utf8 (s : String) : Bytes := s.toList.flatMap String.utf8EncodeChar

namespace Utf8

/-- What a byte string is read as: a character, or `none` for bytes that are part of none. -/
abbrev Symbol := Option Char

/-- The number of continuation bytes a first byte asks for, and the range of the next byte. -/
def lead? (b : UInt8) : Option (Nat × UInt8 × UInt8) :=
  if 0xC2 ≤ b ∧ b ≤ 0xDF then some (1, 0x80, 0xBF)
  else if b = 0xE0 then some (2, 0xA0, 0xBF)
  else if b = 0xED then some (2, 0x80, 0x9F)
  else if 0xE1 ≤ b ∧ b ≤ 0xEF then some (2, 0x80, 0xBF)
  else if b = 0xF0 then some (3, 0x90, 0xBF)
  else if 0xF1 ≤ b ∧ b ≤ 0xF3 then some (3, 0x80, 0xBF)
  else if b = 0xF4 then some (3, 0x80, 0x8F)
  else none

/-- The part of a character that is still to come: how many bytes, the range of the
next one, and the value of the bits read so far. -/
structure Pending where
  left : Nat
  low : UInt8
  high : UInt8
  value : Nat

/-- Reads bytes, with a character under way. A byte that cannot continue the character
ends it as one unreadable run and is read again as a first byte. -/
def scan : Option Pending → Bytes → List Symbol
  | none, [] => []
  | some _, [] => [none]
  | none, b :: rest =>
    if b < 0x80 then some (Char.ofNat b.toNat) :: scan none rest
    else match lead? b with
      | none => none :: scan none rest
      | some (left, low, high) =>
        scan (some ⟨left, low, high, b.toNat % Nat.pow 2 (6 - left)⟩) rest
  | some p, b :: rest =>
    if p.low ≤ b ∧ b ≤ p.high then
      let value := p.value * 64 + b.toNat % 64
      if p.left ≤ 1 then some (Char.ofNat value) :: scan none rest
      else scan (some ⟨p.left - 1, 0x80, 0xBF, value⟩) rest
    else if b < 0x80 then none :: some (Char.ofNat b.toNat) :: scan none rest
    else match lead? b with
      | none => none :: none :: scan none rest
      | some (left, low, high) =>
        none :: scan (some ⟨left, low, high, b.toNat % Nat.pow 2 (6 - left)⟩) rest

/-- The symbols of a byte string. -/
def symbols (bytes : Bytes) : List Symbol := scan none bytes

/-- The text of a byte string that is UTF-8 throughout. -/
def decode? (bytes : Bytes) : Option String :=
  ((symbols bytes).mapM id).map String.ofList

/-- The text of a byte string, with U+FFFD for every unreadable run. -/
def lossy (bytes : Bytes) : String :=
  String.ofList ((symbols bytes).map (·.getD '\uFFFD'))

end Utf8

end ServiceCall

/-! ## Where a byte string stops being text

The first run of bytes that is no part of a character: where it starts and how long it is,
or that the byte string ends inside a character. -/

namespace ServiceCall.Utf8

/-- The first unreadable run. It has no length if the byte string ends inside a character. -/
structure Fault where
  index : Nat
  length : Option Nat
  deriving DecidableEq, Repr

def Fault.message (f : Fault) : String :=
  match f.length with
  | some n => "invalid utf-8 sequence of " ++ toString n ++ " bytes from index " ++ toString f.index
  | none => "incomplete utf-8 byte sequence from index " ++ toString f.index

/-- The first unreadable run of bytes that stand from an index on. The character under way
comes with the index of its first byte. -/
def faultFrom : Nat → Option (Pending × Nat) → Bytes → Option Fault
  | _, none, [] => none
  | _, some (_, start), [] => some ⟨start, none⟩
  | i, none, b :: rest =>
    if b < 0x80 then faultFrom (i + 1) none rest
    else match lead? b with
      | none => some ⟨i, some 1⟩
      | some (left, low, high) => faultFrom (i + 1) (some (⟨left, low, high, 0⟩, i)) rest
  | i, some (p, start), b :: rest =>
    if p.low ≤ b ∧ b ≤ p.high then
      if p.left ≤ 1 then faultFrom (i + 1) none rest
      else faultFrom (i + 1) (some (⟨p.left - 1, 0x80, 0xBF, 0⟩, start)) rest
    else some ⟨start, some (i - start)⟩

/-- The first unreadable run of a byte string. -/
def fault? (bytes : Bytes) : Option Fault := faultFrom 0 none bytes

end ServiceCall.Utf8
