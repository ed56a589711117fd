import PlainCode.Diagnostic
import PlainCode.Token.Basic

/-!
# Traces

With debugging on, every stage of a conversion says what it has done. A trace is a list of entries;
each of them is printed with a newline behind it.
-/

namespace PlainCode.Convert

/-- A text filled up with spaces in front. -/
def padLeft (width : Nat) (s : String) : String :=
  String.ofList (List.replicate (width - s.length) ' ') ++ s

/-- A text filled up with spaces behind. -/
def padRight (width : Nat) (s : String) : String :=
  s ++ String.ofList (List.replicate (width - s.length) ' ')

/-- The entry of one token. -/
def tokenEntry (number : Nat) (t : Token) : String :=
  "    Token " ++ padLeft 2 (toString number) ++ ": " ++ padRight 12 t.kind.name ++ " | Value: '" ++
    t.value ++ "'"

/-- The entries of tokens, counted from `number`. -/
def tokenEntriesFrom (number : Nat) : List Token → List String
  | [] => []
  | t :: ts => tokenEntry number t :: tokenEntriesFrom (number + 1) ts

/-- The entries of tokens. -/
def tokenEntries (ts : List Token) : List String := tokenEntriesFrom 0 ts

/-- A heading of the first order. -/
def headline (title : String) : List String := ["\n" ++ divider '=', title, divider '=']

end PlainCode.Convert
