/-!
# Cutting text into parts

A text is cut at every character of a kind. The characters cut at are dropped, and the parts
between them are kept, empty ones included: joining the parts again needs nothing but the
characters that were dropped.

There are two ways of taking a text line by line. In a text that is to be converted only a newline
ends a line. Files and the standard input are taken as text in which every way of ending a line is
a newline, so a carriage return by itself ends a line there as well.
-/

namespace PlainCode.Text

/-- Puts a character in front of the first part. -/
def extendFirst (c : Char) : List (List Char) → List (List Char)
  | [] => [[c]]
  | part :: parts => (c :: part) :: parts

/-- The parts of a text between the characters that `cut` picks. -/
def splitWhere (cut : Char → Bool) : List Char → List (List Char)
  | [] => [[]]
  | c :: cs => if cut c then [] :: splitWhere cut cs else extendFirst c (splitWhere cut cs)

/-- The lines of a text: its parts between newlines. -/
def lines (s : String) : List String :=
  (splitWhere (· == '\n') s.toList).map String.ofList

/-- One text of many lines. -/
def unlines (ls : List String) : String := "\n".intercalate ls

/-- Every way of ending a line written as a newline: a carriage return counts as one, together with
the newline that follows it, if any. -/
def plainNewlines : List Char → List Char
  | [] => []
  | '\r' :: '\n' :: cs => '\n' :: plainNewlines cs
  | c :: cs => (if c = '\r' then '\n' else c) :: plainNewlines cs

/-- The lines of a text, ended in any way, whose last line need not be ended. -/
def endedLines (s : String) : List String :=
  let parts := splitWhere (· == '\n') (plainNewlines s.toList)
  (if parts.getLast? = some [] then parts.dropLast else parts).map String.ofList

end PlainCode.Text
