import PlainCode.Text.Blank
import PlainCode.Token.Basic

/-!
# Segments

A canonical phrase is read as a row of segments with blanks between them. A quote begins a segment
that runs through the next quote of the same sort, where a backslash takes the character behind it
along; without such a quote it runs to the end. Any other segment is a longest run of characters
that are neither blank nor quotes. Each segment is one token.

A segment is taken as a whole where it begins, by looking ahead to its end, so no state goes from
one character to the next: neither the quote that is open nor the segment read so far. What the
segments of a text are, however they are found, is said by `Segmentation`.
-/

namespace PlainCode.Token

open PlainCode.Literal (isQuote)
open PlainCode.Text (isBlank)

/-- What belongs to a quoted segment behind the quote that begins it: everything through the first
such quote that no backslash takes along, or everything. -/
def throughQuote (quote : Char) : List Char → List Char
  | [] => []
  | c :: cs =>
    if c = quote then [c]
    else if c = '\\' then
      match cs with
      | [] => [c]
      | d :: ds => c :: d :: throughQuote quote ds
    else c :: throughQuote quote cs

/-- Whether a character can stand in a segment that is not quoted. -/
def isBare (c : Char) : Bool := !isBlank c && !isQuote c

/-- The segments of a text of which the first `skip` characters belong to a segment already
read. -/
def segmentsFrom : Nat → List Char → List (List Char)
  | _, [] => []
  | skip + 1, _ :: cs => segmentsFrom skip cs
  | 0, c :: cs =>
    if isBlank c then segmentsFrom 0 cs
    else
      let more := if isQuote c then throughQuote c cs else cs.takeWhile isBare
      (c :: more) :: segmentsFrom more.length cs

/-- The segments of a text. -/
def segments (cs : List Char) : List (List Char) := segmentsFrom 0 cs

/-- The tokens of a text, one for each segment. -/
def ofText (text : String) : List Token := (segments text.toList).map ofWord

end PlainCode.Token
