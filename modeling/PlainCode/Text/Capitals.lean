/-!
# Capitals

A text in capitals, as far as these are letters of the basic alphabet. Besides the basic letters a
few others have such capitals, some of them more than one.
-/

namespace PlainCode.Text

/-- The letters outside the basic alphabet whose capitals are in it. -/
def basicCapitals : List (Char × List Char) :=
  [('\u00DF', ['S', 'S']), ('\u0131', ['I']), ('\u017F', ['S']), ('\uFB00', ['F', 'F']),
   ('\uFB01', ['F', 'I']), ('\uFB02', ['F', 'L']), ('\uFB03', ['F', 'F', 'I']),
   ('\uFB04', ['F', 'F', 'L']), ('\uFB05', ['S', 'T']), ('\uFB06', ['S', 'T'])]

/-- The capitals of a character, or the character itself if they are not basic ones. -/
def capitalForm (c : Char) : List Char := (basicCapitals.lookup c).getD [c.toUpper]

/-- A text in capitals; a character whose capitals are not basic ones stays as it is. -/
def capitals (s : String) : String := String.ofList (s.toList.flatMap capitalForm)

end PlainCode.Text
