import PlainCode.Leaf
import PlainCode.Literal.Numeral
import PlainCode.Literal.Quoted

/-!
# Kinds of literals

What a value is can be told from how it is written: a text in quotes, a whole number, a number with
a point, or one of the two truth values. Anything else, and a value that is missing, is left to the
target language. One newline at the end of a value is passed over.
-/

namespace PlainCode.Literal

open PlainCode.Text (isDigit)

/-- What a value is, as far as it can be told from its text. -/
inductive Kind where
  | string
  | int
  | double
  | bool
  | auto
  deriving DecidableEq, Repr

/-- The name of a kind. -/
def Kind.name : Kind → String
  | .string => "string"
  | .int => "int"
  | .double => "double"
  | .bool => "bool"
  | .auto => "auto"

/-- A text without the newline at its end, if there is one. -/
def dropNewline (cs : List Char) : List Char :=
  if cs.getLast? = some '\n' then cs.dropLast else cs

/-- Whether a text stands between two quotes of one sort. -/
def isQuoted (cs : List Char) : Bool :=
  match dropNewline cs with
  | [] => false
  | c :: rest => isQuote c && rest.getLast? == some c

/-- Whether a text is digits and nothing else. -/
def allDigits (cs : List Char) : Bool := !cs.isEmpty && cs.all isDigit

/-- Whether a text is a whole number. -/
def isInteger (cs : List Char) : Bool := allDigits (sign (dropNewline cs)).2

/-- Whether a text is a number with a point. -/
def isDecimal (cs : List Char) : Bool :=
  let rest := (sign (dropNewline cs)).2
  match rest.dropWhile isDigit with
  | [] => false
  | c :: part => c == '.' && !(rest.takeWhile isDigit).isEmpty && allDigits part

/-- Whether a text is a number. -/
def isNumber (cs : List Char) : Bool := isInteger cs || isDecimal cs

/-- Whether a text is one of the two truth values. -/
def isTruth (s : String) : Bool := s == "true" || s == "false"

/-- The kind of a value. -/
def kindOf : Leaf → Kind
  | none => .auto
  | some s =>
    if isTruth s then .bool
    else if isQuoted s.toList then .string
    else if isInteger s.toList then .int
    else if isDecimal s.toList then .double
    else .auto

end PlainCode.Literal
