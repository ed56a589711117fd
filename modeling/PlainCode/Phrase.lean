import PlainCode.Json.Basic
import PlainCode.Literal.Numeral
import PlainCode.Literal.Quoted
import PlainCode.Text.Lowercase
import PlainCode.Text.Word
import PlainCode.Vocabulary

/-!
# Phrases in canonical form

A phrase of everyday English becomes a command in three steps. Its literals, first the quoted ones
and then the numerals between them, are set aside, so that nothing happens to them. All other text
is written in small letters and cut into words. Each word is replaced by the one it stands for, or
left out. What remains, joined by single spaces, is the canonical form of the phrase.

Blanks at the ends of a phrase are not trimmed first. They part nothing and stand in no literal, so
the canonical form is the same with and without them (`Phrase.canonical_trim`).
-/

namespace PlainCode.Phrase

open PlainCode.Literal (spans quotedAt? numeralAt? requote)

/-- A part of a phrase that stays. -/
inductive Piece where
  /-- A quoted literal, by what stands between its quotes. -/
  | quoted (contents : String)
  /-- A numeral, as it is written. -/
  | numeral (text : String)
  /-- A word, in its meaning. -/
  | word (text : String)
  deriving DecidableEq, Repr

/-- The text of a piece in the canonical form. -/
def Piece.text : Piece → String
  | .quoted contents => String.ofList (requote contents.toList)
  | .numeral text => text
  | .word text => text

/-- The words of a text without literals, in their meanings. -/
def wordPieces (cs : List Char) : List Piece :=
  (Text.words (Text.lowerChars cs)).filterMap fun word =>
    (Vocabulary.meaning? (String.ofList word)).map .word

/-- The pieces of a text without quoted literals. -/
def plainPieces (cs : List Char) : List Piece :=
  (spans numeralAt? cs).flatMap fun span =>
    if span.literal then [.numeral (String.ofList span.text)] else wordPieces span.text

/-- The pieces of a text. -/
def piecesOf (cs : List Char) : List Piece :=
  (spans quotedAt? cs).flatMap fun span =>
    if span.literal then [.quoted (String.ofList (span.text.drop 1).dropLast)]
    else plainPieces span.text

/-- The pieces of a phrase. -/
def pieces (phrase : String) : List Piece := piecesOf phrase.toList

/-- The canonical form of a phrase. -/
def canonical (phrase : String) : String := " ".intercalate ((pieces phrase).map Piece.text)

/-- A line of a text in its canonical form, with its number in the text, counted from one. -/
structure NumberedLine where
  number : Nat
  text : String
  deriving DecidableEq, Repr

/-- The lines of a text from line `number` on that have something left in their canonical form. -/
def numberedFrom (number : Nat) : List String → List NumberedLine
  | [] => []
  | line :: rest =>
    let text := canonical line
    if text = "" then numberedFrom (number + 1) rest
    else ⟨number, text⟩ :: numberedFrom (number + 1) rest

/-- The lines of a text that have something left in their canonical form. -/
def numberedLines (text : String) : List NumberedLine := numberedFrom 1 (Text.lines text)

/-- The phrase that a value holds: a string is one, and any other value says nothing. -/
def ofJson : Json → String
  | .str phrase => phrase
  | _ => ""

end PlainCode.Phrase
