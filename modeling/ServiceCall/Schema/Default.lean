import ServiceCall.Number.Literal
import ServiceCall.Schema.Pool
import ServiceCall.Text.Hex
/-!
# Declared defaults

A field may declare the value it has when it is unset, as a text that is read by its kind.
-/

namespace ServiceCall.Default

/-- Up to `most` octal digits as a number, and the bytes after them. -/
def octal : Nat → Nat → Bytes → Nat × Bytes
  | 0, n, s => (n, s)
  | _ + 1, n, [] => (n, [])
  | most + 1, n, b :: rest =>
    if 48 ≤ b ∧ b ≤ 55 then octal most (8 * n + (b.toNat - 48)) rest else (n, b :: rest)

/-- The byte of an escape of one letter. -/
def escaped? (b : UInt8) : Option UInt8 :=
  match Char.ofNat b.toNat with
  | 'a' => some 7
  | 'b' => some 8
  | 'f' => some 12
  | 'n' => some 10
  | 'r' => some 13
  | 't' => some 9
  | 'v' => some 11
  | '\\' => some 92
  | '?' => some 63
  | '\'' => some 39
  | '"' => some 34
  | _ => none

/-- The number of two hexadecimal digits, or of one behind a plus sign. -/
def hexPair? (h l : Char) : Option Nat := do
  let high ← if h = '+' then some 0 else Hex.value? h
  return 16 * high + (← Hex.value? l)

/-- The bytes of a text with escapes; of an octal number only the low eight bits count. -/
def unescape : Nat → Bytes → Option Bytes
  | 0, _ => none
  | _ + 1, [] => some []
  | fuel + 1, b :: rest =>
    if b ≠ 92 then (unescape fuel rest).map (b :: ·)
    else match rest with
      | [] => none
      | e :: rest =>
        if 48 ≤ e ∧ e ≤ 55 then
          let (n, rest) := octal 3 0 (e :: rest)
          (unescape fuel rest).map (UInt8.ofNat n :: ·)
        else if e = 120 ∨ e = 88 then
          match rest with
          | h :: l :: rest => do
            let n ← hexPair? (Char.ofNat h.toNat) (Char.ofNat l.toNat)
            return UInt8.ofNat n :: (← unescape fuel rest)
          | _ => none
        else match escaped? e with
          | some v => (unescape fuel rest).map (v :: ·)
          | none => none

/-- The integer of a text. -/
def integer? (r : IntegerRange) (s : String) : Option Value :=
  (r.read s.toList).toOption.map .integer

/-- The number of a text, in a floating-point format. -/
def floating? (f : Format) (s : String) : Option (Floating f) := (Floating.read f s.toList).toOption

/-- The value of a text for a scalar. -/
def scalar? (s : String) : Scalar → Option Value
  | .double => (floating? Format.double s).map .double
  | .float => (floating? Format.single s).map .single
  | .int32 | .sint32 | .sfixed32 => integer? .int32 s
  | .int64 | .sint64 | .sfixed64 => integer? .int64 s
  | .uint32 | .fixed32 => integer? .uint32 s
  | .uint64 | .fixed64 => integer? .uint64 s
  | .bool =>
      if s = "true" then some (.bool true)
      else if s = "false" then some (.bool false)
      else none
  | .string => some (.text s)
  | .bytes => (unescape (s.utf8ByteSize + 1) (utf8 s)).map .bytes

/-- The value of a text for a kind. Enums are known by the given table. -/
def value? (enums : List EnumType) (s : String) : Kind → Option Value
  | .scalar k => scalar? s k
  | .enumeration name => do
    let e ← enums.find? (·.fullName == name)
    return .integer (← e.valueNamed? s).number
  | .message _ | .group _ => none

/-- The name of a kind in an error. -/
def typeName : Kind → String
  | .message _ | .group _ => "message type"
  | k => k.name

end ServiceCall.Default
