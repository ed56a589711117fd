import PlainCode.Command.Basic
import PlainCode.Literal.Kind
import PlainCode.Target

/-!
# Values, types and operators

How the target languages write what commands are about. The truth values and the missing value have
their own spelling in each language; all other values are written as they are. The languages with
declarations have a name for each kind of value, and the operators are the same in all three.
-/

namespace PlainCode.Target

open PlainCode.Literal (Kind)

/-- A truth value in a language. -/
def truth : Target → Bool → String
  | .python, true => "True"
  | .python, false => "False"
  | _, true => "true"
  | _, false => "false"

/-- The missing value in a language. -/
def absent : Target → String
  | .python => "None"
  | _ => "0"

/-- A value in a language. -/
def value (t : Target) : Leaf → String
  | none => t.absent
  | some s => if s = "true" then t.truth true else if s = "false" then t.truth false else s

/-- Values in a language, with a text between them. -/
def values (t : Target) (between : String) (vs : List Leaf) : String :=
  between.intercalate (vs.map t.value)

/-- The type that a Java variable is declared with. -/
def javaType : Kind → String
  | .string => "String"
  | .int => "int"
  | .double => "double"
  | .bool => "boolean"
  | .auto => "var"

/-- The type of the elements of a Java collection. -/
def javaElement : Kind → String
  | .string => "String"
  | .int => "Integer"
  | .double => "Double"
  | .bool => "Boolean"
  | .auto => "Object"

/-- The type that a C++ variable is declared with. -/
def cppType : Kind → String
  | .string => "std::string"
  | .int => "int"
  | .double => "double"
  | .bool => "bool"
  | .auto => "auto"

/-- What stands for a command where there is none. -/
def noop : Target → String
  | .python => "pass"
  | _ => ";"

/-- What begins a comment. -/
def commentMark : Target → String
  | .python => "#"
  | _ => "//"

/-- What ends a statement. -/
def terminator : Target → String
  | .python => ""
  | _ => ";"

end PlainCode.Target

namespace PlainCode

/-- The sign of a comparison, for the operators that there are. -/
def Condition.sign? : Leaf → Option String
  | some "greater" => some ">"
  | some "less" => some "<"
  | some "equal" => some "=="
  | some "not_equal" => some "!="
  | _ => none

/-- The sign of a calculation, for the operators that there are. -/
def Command.sign? : Leaf → Option String
  | some "add" => some "+"
  | some "subtract" => some "-"
  | some "multiply" => some "*"
  | some "divide" => some "/"
  | some "modulus" => some "%"
  | _ => none

end PlainCode
