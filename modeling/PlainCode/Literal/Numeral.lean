import PlainCode.Literal.Span
import PlainCode.Text.Digit
import PlainCode.Text.Word

/-!
# Numerals

A numeral is written with the digits of any script: a minus sign or none, digits, and a point with
more digits or none. It is a literal only if it stands apart: no word character or point is in
front of it, and neither a word character nor a point with a digit goes on behind it.
-/

namespace PlainCode.Literal

open PlainCode.Text (isDigit isWord)

/-- Whether a numeral cannot begin behind a character. -/
def tiesNumeral (c : Char) : Bool := isWord c || c == '.'

/-- A point with digits behind it, if a text begins with one, and the rest of the text. -/
def fraction : List Char → List Char × List Char
  | [] => ([], [])
  | c :: cs =>
    if c = '.' ∧ cs.head?.any isDigit then (c :: cs.takeWhile isDigit, cs.dropWhile isDigit)
    else ([], c :: cs)

/-- Whether a text goes on so that what is in front of it is no numeral. -/
def goesOn : List Char → Bool
  | [] => false
  | c :: cs => isWord c || (c == '.' && cs.head?.any isDigit)

/-- A minus sign, if a text begins with one, and the rest of the text. -/
def sign : List Char → List Char × List Char
  | [] => ([], [])
  | c :: cs => if c = '-' then ([c], cs) else ([], c :: cs)

/-- The numeral that a text begins with. -/
def numeralAt? : Recogniser := fun before cs =>
  if before.any tiesNumeral then none
  else
    let (minus, rest) := sign cs
    match rest.takeWhile isDigit with
    | [] => none
    | whole =>
      let (part, rest) := fraction (rest.dropWhile isDigit)
      if goesOn rest then none else some (minus ++ whole ++ part)

end PlainCode.Literal
