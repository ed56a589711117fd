import PlainCode.Literal.Kind
import PlainCode.Vocabulary

/-!
# Tokens

A token is a word of a canonical phrase together with its class. Keywords tell commands apart;
names, numbers, texts and truth values are what commands are about.
-/

namespace PlainCode

/-- The classes of words. -/
inductive TokenKind where
  | keyword
  | identifier
  | number
  | string
  | boolean
  | unknown
  deriving DecidableEq, Repr

/-- The name of a class. -/
def TokenKind.name : TokenKind → String
  | .keyword => "KEYWORD"
  | .identifier => "IDENTIFIER"
  | .number => "NUMBER"
  | .string => "STRING"
  | .boolean => "BOOLEAN"
  | .unknown => "UNKNOWN"

/-- A classified word. The value of a string is what stands between its quotes. -/
structure Token where
  kind : TokenKind
  value : String
  deriving DecidableEq, Repr

namespace Token

/-- The text of a token in a command: a string is in double quotes again. -/
def spelling (t : Token) : String :=
  if t.kind = .string then "\"" ++ t.value ++ "\"" else t.value

/-- The text of a list of tokens in a command. -/
def sentence (ts : List Token) : String := " ".intercalate (ts.map spelling)

/-- Whether a token can stand where a value is asked for. -/
def isValue (t : Token) : Bool :=
  match t.kind with
  | .number | .string | .identifier | .boolean => true
  | .keyword | .unknown => false

/-- Whether a token is a name. -/
def isName (t : Token) : Bool := t.kind == .identifier

/-- Whether a token is the keyword `word`. -/
def isWord (word : String) (t : Token) : Bool := t.kind == .keyword && t.value == word

/-- Whether a token is one of the keywords `words`. -/
def isOneOf (words : List String) (t : Token) : Bool := t.kind == .keyword && words.contains t.value

/-- The texts of the values among tokens. -/
def values (ts : List Token) : List String := (ts.filter isValue).map spelling

/-- Letters outside the basic alphabet that are letters of it but for their case. -/
def caseTwins : List Char := ['\u017F', '\u212A', '\u0130', '\u0131']

/-- Whether a character can begin a name: a basic letter or a twin of one, or a low line. -/
def beginsName (c : Char) : Bool := c.isAlpha || c == '_' || caseTwins.contains c

/-- Whether a text is a name: it begins as one, and goes on with the same characters or digits. -/
def isNameText : List Char → Bool
  | [] => false
  | c :: cs => beginsName c && cs.all fun d => beginsName d || d.isDigit

/-- The class of a word: the first of the classes, from texts in quotes to names, that it fits. -/
def ofWord (word : List Char) : Token :=
  let text := String.ofList word
  if Literal.isQuoted word then ⟨.string, String.ofList (word.drop 1).dropLast⟩
  else if Literal.isNumber word then ⟨.number, text⟩
  else if Literal.isTruth text then ⟨.boolean, text⟩
  else if Vocabulary.isKeyword text then ⟨.keyword, text⟩
  else if isNameText word then ⟨.identifier, text⟩
  else ⟨.unknown, text⟩

end Token

end PlainCode
