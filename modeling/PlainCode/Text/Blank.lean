import PlainCode.Text.Ranges

/-!
# Blank characters

The characters that only part things from each other: the space, tabs and line ends, the four
information separators, and the wide and narrow spaces of other scripts. A zero-width space is not
one of them.
-/

namespace PlainCode.Text

/-- The blank characters. -/
def blankRanges : Ranges :=
  [(0x09, 0x0D), (0x1C, 0x20), (0x85, 0x85), (0xA0, 0xA0), (0x1680, 0x1680), (0x2000, 0x200A),
   (0x2028, 0x2029), (0x202F, 0x202F), (0x205F, 0x205F), (0x3000, 0x3000)]

/-- Whether a character is blank. -/
def isBlank (c : Char) : Bool := blankRanges.has c.toNat

/-- Whether a text has nothing but blank characters. -/
def blank (s : String) : Bool := s.toList.all isBlank

/-- The characters of a text from the first to the last one that is not blank. -/
def trimChars (cs : List Char) : List Char :=
  ((cs.dropWhile isBlank).reverse.dropWhile isBlank).reverse

/-- A text without the blank characters at its two ends. -/
def trim (s : String) : String := String.ofList (trimChars s.toList)

end PlainCode.Text
