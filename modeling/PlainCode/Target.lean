import PlainCode.Json.Basic
import PlainCode.Text.Blank
import PlainCode.Text.Lowercase

/-!
# Target languages

The languages that code is written in. A language is asked for by name, in letters of any case and
with blanks around it; two of them have a second name.
-/

namespace PlainCode

/-- A language that code is written in. -/
inductive Target where
  | python
  | java
  | cpp
  deriving DecidableEq, Repr

namespace Target

/-- The name of a language. -/
def name : Target → String
  | .python => "python"
  | .java => "java"
  | .cpp => "cpp"

/-- All languages. -/
def all : List Target := [.python, .java, .cpp]

/-- The names that languages are known by, in small letters. -/
def names : List (String × Target) :=
  [("python", .python), ("java", .java), ("cpp", .cpp), ("c++", .cpp), ("py", .python)]

/-- The language of a name in letters of any case, with or without blanks around it. -/
def ofText? (text : String) : Option Target := names.lookup (Text.lower (Text.trim text))

/-- The language that a value names. A value that cannot be written names none. -/
def ofJson? (value : Json) : Option Target := value.plain?.bind ofText?

/-- What is said about a value that names no language. -/
def unsupported (value : Json) : String :=
  match value.display? with
  | none => Json.tooLong
  | some text =>
    "Unsupported language: " ++ text ++ ". Choose one of: " ++ ", ".intercalate (all.map name)

end Target

end PlainCode
