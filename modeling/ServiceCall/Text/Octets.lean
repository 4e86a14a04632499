import ServiceCall.Text.Utf8
/-!
# Texts of bytes

The system knows no encoding: the names of files, the arguments of programs and what these read and
write are bytes. Here such a text is a `String` whose characters are all below 256, one for each byte.
A text of ASCII characters is the text of its bytes; every other one is turned into it by `ofText`, and
back by `toText`, which has U+FFFD for what is no UTF-8.
-/

namespace ServiceCall.Octets

/-- The character of a byte. -/
def ofByte (b : UInt8) : Char := Char.ofNat b.toNat

/-- The byte of a character. -/
def toByte (c : Char) : UInt8 := UInt8.ofNat c.toNat

/-- The text of bytes. -/
def ofBytes (bytes : Bytes) : List Char := bytes.map ofByte

/-- The bytes of a text. -/
def toBytes (s : List Char) : Bytes := s.map toByte

/-- The UTF-8 bytes of a text of any characters. -/
def ofText (s : String) : String := String.ofList (ofBytes (utf8 s))

/-- What a text of bytes is read as, taken for UTF-8. -/
def toText (s : String) : String := Utf8.lossy (toBytes s.toList)

/-- What a text of bytes is read as if it is UTF-8 throughout. -/
def toText? (s : String) : Option String := Utf8.decode? (toBytes s.toList)

theorem toByte_ofByte (b : UInt8) : toByte (ofByte b) = b := by
  have h : b.toNat < 256 := b.toNat_lt
  have hv : b.toNat.isValidChar := Or.inl (Nat.lt_trans h (by decide))
  have hchar : (Char.ofNat b.toNat).toNat = b.toNat := by
    rw [Char.ofNat, dif_pos hv]
    rfl
  rw [toByte, ofByte, hchar, UInt8.ofNat_toNat]

/-- No byte is lost on the way to a text and back. -/
theorem toBytes_ofBytes (bytes : Bytes) : toBytes (ofBytes bytes) = bytes := by
  induction bytes with
  | nil => rfl
  | cons b rest ih => simpa [toBytes, ofBytes, toByte_ofByte] using ih

/-! ## Lines -/

/-- The text without the line breaks at its end. -/
def trimEnd (s : List Char) : List Char := (s.reverse.dropWhile (· = '\n')).reverse

/-- The lines of a text, without their ends, and whether the last one has an end. -/
def lines (s : List Char) : List (List Char) × Bool :=
  let step (c : Char) (acc : List (List Char) × Bool) : List (List Char) × Bool :=
    if c = '\n' then
      match acc with
      | ([], _) => ([[]], true)
      | (ls, b) => ([] :: ls, b)
    else match acc with
      | ([], _) => ([[c]], false)
      | (l :: ls, b) => ((c :: l) :: ls, b)
  s.foldr step ([], true)

end ServiceCall.Octets
