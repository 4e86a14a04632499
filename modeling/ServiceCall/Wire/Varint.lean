import ServiceCall.Text.Utf8
/-!
# Keys and numbers on the wire

A number is written with seven bits in each byte, the low bits first, and a mark on every
byte but the last; a record is a sequence of fields, each behind a key that holds its
number and the way it is written. Reading takes what it needs from the front of a byte
string and gives the rest.
-/

namespace ServiceCall.Wire

/-- The ways in which a field is written. -/
inductive WireType where
  | varint
  | sixtyFourBit
  | lengthDelimited
  | startGroup
  | endGroup
  | thirtyTwoBit
  deriving DecidableEq, Repr

namespace WireType

/-- The number of a way of writing. -/
def code : WireType → Nat
  | varint => 0
  | sixtyFourBit => 1
  | lengthDelimited => 2
  | startGroup => 3
  | endGroup => 4
  | thirtyTwoBit => 5

/-- The way of writing of a number. -/
def ofCode? : Nat → Option WireType
  | 0 => some varint
  | 1 => some sixtyFourBit
  | 2 => some lengthDelimited
  | 3 => some startGroup
  | 4 => some endGroup
  | 5 => some thirtyTwoBit
  | _ => none

theorem ofCode?_code (t : WireType) : ofCode? t.code = some t := by cases t <;> rfl

def name : WireType → String
  | varint => "Varint"
  | sixtyFourBit => "SixtyFourBit"
  | lengthDelimited => "LengthDelimited"
  | startGroup => "StartGroup"
  | endGroup => "EndGroup"
  | thirtyTwoBit => "ThirtyTwoBit"

end WireType

/-- Why bytes are no record of a type. -/
inductive Fault where
  | varint
  | key (n : Nat)
  | wireType (n : Nat)
  | zeroTag
  | mismatch (actual expected : WireType)
  | underflow
  | exceeded
  | notUtf8
  | endGroup
  | tooDeep
  /-- The fault lies in a field that has a name. -/
  | within (place : String) (f : Fault)
  deriving DecidableEq, Repr

namespace Fault

/-- The fault as one of a field, if that has a name. -/
def inField (place : Option String) (f : Fault) : Fault :=
  match place with
  | some place => within place f
  | none => f

/-- What is wrong. -/
def text : Fault → String
  | varint => "invalid varint"
  | key n => "invalid key value: " ++ toString n
  | wireType n => "invalid wire type value: " ++ toString n
  | zeroTag => "invalid tag value: 0"
  | mismatch actual expected =>
    "invalid wire type: " ++ actual.name ++ " (expected " ++ expected.name ++ ")"
  | underflow => "buffer underflow"
  | exceeded => "delimited length exceeded"
  | notUtf8 => "invalid string value: data is not UTF-8 encoded"
  | endGroup => "unexpected end group tag"
  | tooDeep => "recursion limit reached"
  | within _ f => f.text

/-- The fields around the fault, the innermost one first. -/
def trace : Fault → String
  | within place f => f.trace ++ place ++ ": "
  | _ => ""

def message (f : Fault) : String := "failed to decode Protobuf message: " ++ f.trace ++ f.text

end Fault

/-! ## Numbers -/

/-- Writes a number, seven bits to a byte. -/
def writeVarint (n : Nat) : Bytes :=
  if n < 128 then [UInt8.ofNat n] else UInt8.ofNat (n % 128 + 128) :: writeVarint (n / 128)
  termination_by n

/-- Reads a number of at most `left` bytes, the last of which may only hold one bit if it is
the tenth. -/
def readVarintFrom : Nat → Bytes → Except Fault (Nat × Bytes)
  | _, [] => .error .varint
  | 0, _ => .error .varint
  | left + 1, b :: rest =>
    if b < 128 then
      if left = 0 ∧ 2 ≤ b then .error .varint else .ok (b.toNat, rest)
    else (readVarintFrom left rest).map fun (n, rest) => (b.toNat % 128 + 128 * n, rest)

/-- Reads a number below `2 ^ 64`. -/
def readVarint (s : Bytes) : Except Fault (Nat × Bytes) := readVarintFrom 10 s

/-- Writes a number in a fixed count of bytes, the low byte first. -/
def writeFixed : Nat → Nat → Bytes
  | 0, _ => []
  | size + 1, n => UInt8.ofNat (n % 256) :: writeFixed size (n / 256)

/-- The number whose bytes are given, the low byte first. -/
def fixedValue : Bytes → Nat
  | [] => 0
  | b :: rest => b.toNat + 256 * fixedValue rest

/-- Reads a number from a fixed count of bytes. -/
def readFixed (size : Nat) (s : Bytes) : Except Fault (Nat × Bytes) :=
  if s.length < size then .error .underflow else .ok (fixedValue (s.take size), s.drop size)

/-- Reads a length and that many bytes. -/
def readDelimited (s : Bytes) : Except Fault (Bytes × Bytes) := do
  let (n, rest) ← readVarint s
  if rest.length < n then .error .underflow else .ok (rest.take n, rest.drop n)

/-- Writes bytes behind their length. -/
def writeDelimited (bytes : Bytes) : Bytes := writeVarint bytes.length ++ bytes

/-! ## Keys -/

/-- Writes the key of a field. -/
def writeKey (number : Nat) (t : WireType) : Bytes := writeVarint (8 * number + t.code)

/-- Reads the key of a field. -/
def readKey (s : Bytes) : Except Fault (Nat × WireType × Bytes) := do
  let (key, rest) ← readVarint s
  if 0x100000000 ≤ key then .error (.key key)
  else match WireType.ofCode? (key % 8) with
    | none => .error (.wireType (key % 8))
    | some t => if key / 8 = 0 then .error .zeroTag else .ok (key / 8, t, rest)

/-! ## Signed numbers -/

/-- The natural below `2 ^ bits` that an integer is written as. -/
def ofSigned (bits : Nat) (i : Int) : Nat := (i % Nat.pow 2 bits).toNat

/-- The integer that a natural stands for in two's complement of the given width. -/
def toSigned (bits : Nat) (n : Nat) : Int :=
  let m := n % Nat.pow 2 bits
  if m < Nat.pow 2 (bits - 1) then m else m - Nat.pow 2 bits

/-- Integers as naturals with the sign in the lowest bit. -/
def zigzag (i : Int) : Nat := if 0 ≤ i then 2 * i.toNat else 2 * (-i).toNat - 1

/-- The integer of a natural with the sign in the lowest bit. -/
def unzigzag (n : Nat) : Int := if n % 2 = 0 then (n / 2 : Nat) else -((n / 2 : Nat) : Int) - 1

theorem unzigzag_zigzag (i : Int) : unzigzag (zigzag i) = i := by
  unfold unzigzag zigzag
  split <;> omega

end ServiceCall.Wire
