import PlainCode.Literal.Span

/-!
# Quoted literals

A quoted literal stands between two single or two double quotes. Inside it a backslash takes the
next character with it, whatever that is but a newline. A quote that is never closed is no literal.

Commands hold literals in double quotes, so a literal is quoted anew: a double quote in it gets a
backslash, unless there is one in front of it already.
-/

namespace PlainCode.Literal

/-- Whether a character begins and ends quoted literals. -/
def isQuote (c : Char) : Bool := c == '"' || c == '\''

/-- The contents of a literal from behind the quote that begins it, up to the same quote. -/
def contents? (quote : Char) : List Char → Option (List Char)
  | [] => none
  | c :: cs =>
    if c = quote then some []
    else if c = '\\' then
      match cs with
      | [] => none
      | d :: ds => if d = '\n' then none else (contents? quote ds).map fun text => c :: d :: text
    else (contents? quote cs).map fun text => c :: text

/-- The quoted literal that a text begins with, quotes included. -/
def quotedAt? : Recogniser
  | _, [] => none
  | _, c :: cs =>
    if isQuote c then (contents? c cs).map fun text => c :: text ++ [c] else none

/-- A text whose double quotes all have a backslash in front. `guarded` says whether one stands
in front of the text itself. -/
def guardFrom (guarded : Bool) : List Char → List Char
  | [] => []
  | c :: cs =>
    (if c = '"' ∧ guarded = false then ['\\', '"'] else [c]) ++ guardFrom (c == '\\') cs

/-- The contents of a literal as they stand between double quotes. -/
def guardQuotes (contents : List Char) : List Char := guardFrom false contents

/-- Contents in double quotes. -/
def requote (contents : List Char) : List Char := '"' :: guardQuotes contents ++ ['"']

end PlainCode.Literal
