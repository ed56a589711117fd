import PlainCode.Token.Basic

/-!
# Reading tokens from the left

The small steps that rules are made of: a value at the front, and a word at the front that may be
left out.
-/

namespace PlainCode.Token

/-- The tokens behind a keyword that may stand in front. -/
def skipWord (word : String) : List Token → List Token
  | [] => []
  | t :: ts => if t.isWord word then ts else t :: ts

/-- The tokens behind one of several keywords that may stand in front. -/
def skipOneOf (words : List String) : List Token → List Token
  | [] => []
  | t :: ts => if t.isOneOf words then ts else t :: ts

/-- The text of the value in front, and the tokens behind it. -/
def value? : List Token → Option (String × List Token)
  | [] => none
  | t :: ts => if t.isValue then some (t.spelling, ts) else none

end PlainCode.Token
