/-!
# Blank characters

The characters with the Unicode property White_Space, and trimming by them.
-/

namespace ServiceCall

/-- The characters with the property White_Space. -/
def isBlank (c : Char) : Bool :=
  let n := c.toNat
  (9 ≤ n && n ≤ 13) || n == 0x20 || n == 0x85 || n == 0xA0 || n == 0x1680 ||
    (0x2000 ≤ n && n ≤ 0x200A) || n == 0x2028 || n == 0x2029 || n == 0x202F ||
    n == 0x205F || n == 0x3000

namespace Text

/-- The text without the blank characters at its end. -/
def trimRight (s : List Char) : List Char := (s.reverse.dropWhile isBlank).reverse

/-- The text without the blank characters at its start and at its end. -/
def trim (s : List Char) : List Char := trimRight (s.dropWhile isBlank)

theorem trimRight_append_blank (s : List Char) {c : Char} (h : isBlank c = true) :
    trimRight (s ++ [c]) = trimRight s := by
  simp [trimRight, h]

theorem trimRight_append_ink (s : List Char) {c : Char} (h : isBlank c = false) :
    trimRight (s ++ [c]) = s ++ [c] := by
  simp [trimRight, h]

end Text

/-- The text without the blank characters at its end. -/
def trimRight (s : String) : String := String.ofList (Text.trimRight s.toList)

/-- The text without the blank characters at its start and at its end. -/
def trim (s : String) : String := String.ofList (Text.trim s.toList)

end ServiceCall
