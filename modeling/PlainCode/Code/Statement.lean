import PlainCode.Code.Line
import PlainCode.Code.Value

/-!
# Commands as code

A simple command is one statement. A compound one is a block: a header, the code of its body one
block deeper, and in the languages with braces a closing line. A body that was left out is written
as the statement that does nothing.

An operator that no language has cannot be written. `write` says which one it is: the first one
in the order in which the code would be written.
-/

namespace PlainCode.Code

open PlainCode.Literal (Kind kindOf)

/-- Why code cannot be written. -/
inductive Error where
  | unknownOperator (operator : Leaf)
  deriving DecidableEq, Repr

/-- What is said about an operator that no language has: its name in quotes. -/
def Error.message : Error → String
  | .unknownOperator none => Leaf.shown none
  | .unknownOperator (some operator) => Text.quoted operator

/-- The comparison that a condition makes. -/
def comparisonOf (c : Option Condition) : Condition := c.getD .missing

/-- The operator of a condition, if no language has it. -/
def unknownComparison? (c : Option Condition) : Option Leaf :=
  let operator := (comparisonOf c).operator
  if (Condition.sign? operator).isSome then none else some operator

/-- The first operator in a command that no language has. -/
def unknownOperator? : Command → Option Leaf
  | .compute operator _ _ _ => if (Command.sign? operator).isSome then none else some operator
  | .branch c thenBody elseBody =>
    (unknownComparison? c).or ((unknownOperator? thenBody).or (unknownOperator? elseBody))
  | .repeatWhile c body => (unknownComparison? c).or (unknownOperator? body)
  | .repeatFor _ _ _ _ body => unknownOperator? body
  | .define _ _ body => unknownOperator? body
  | _ => none

/-- A statement with what ends it. -/
def statement (t : Target) (text : String) : String := text ++ t.terminator

/-- A comparison. An operator that no language has stands for itself. -/
def condition (t : Target) (c : Condition) : String :=
  t.value c.left ++ " " ++ (Condition.sign? c.operator).getD c.operator.shown ++ " " ++
    t.value c.right

/-- A calculation. -/
def calculation (t : Target) (operator left right : Leaf) : String :=
  t.value left ++ " " ++ (Command.sign? operator).getD operator.shown ++ " " ++ t.value right

/-- A new variable. -/
def creation (t : Target) (name value : Leaf) : String :=
  let rest := name.shown ++ " = " ++ t.value value
  match t with
  | .python => rest
  | .java => Target.javaType (kindOf value) ++ " " ++ rest ++ ";"
  | .cpp => Target.cppType (kindOf value) ++ " " ++ rest ++ ";"

/-- The printing of values, with spaces between them. -/
def printing (t : Target) (vs : List Leaf) : String :=
  match t with
  | .python => "print(" ++ t.values ", " vs ++ ")"
  | .java => "System.out.println(" ++ t.values " + \" \" + " vs ++ ");"
  | .cpp => "std::cout << " ++ t.values " << \" \" << " vs ++ " << std::endl;"

/-- The reading of a variable. -/
def reading (t : Target) (name : Leaf) : String :=
  match t with
  | .python => name.shown ++ " = input()"
  | .java => name.shown ++ " = scanner.nextLine();"
  | .cpp => "std::cin >> " ++ name.shown ++ ";"

/-- A step of a variable up or down. The languages with braces have a short form for one. -/
def counting (t : Target) (name amount : Leaf) (sign : String) : String :=
  if amount = some "1" ∧ t ≠ .python then name.shown ++ sign ++ sign ++ ";"
  else statement t (name.shown ++ " " ++ sign ++ "= " ++ t.value amount)

/-- The kind that all values of a list are of. -/
def elementKind : List Leaf → Kind
  | [] => .auto
  | v :: vs => if vs.all fun w => kindOf w == kindOf v then kindOf v else .auto

/-- A new list. Where its elements have no kind in common, C++ finds their type itself, and takes
whole numbers if there are none. -/
def listCreation (t : Target) (list : Leaf) (vs : List Leaf) : String :=
  let name := list.shown
  let items := t.values ", " vs
  match t with
  | .python => name ++ " = [" ++ items ++ "]"
  | .java =>
    "ArrayList<" ++ Target.javaElement (elementKind vs) ++ "> " ++ name ++ " = new ArrayList<>(" ++
      (if vs.isEmpty then "" else "Arrays.asList(" ++ items ++ ")") ++ ");"
  | .cpp =>
    if elementKind vs = .auto then
      if vs.isEmpty then "std::vector<int> " ++ name ++ ";"
      else "std::vector " ++ name ++ " = \x7b" ++ items ++ "\x7d;"
    else
      "std::vector<" ++ Target.cppType (elementKind vs) ++ "> " ++ name ++ " = \x7b" ++ items ++
        "\x7d;"

/-- A value put at the end of a list. -/
def appending (t : Target) (list value : Leaf) : String :=
  match t with
  | .python => list.shown ++ ".append(" ++ t.value value ++ ")"
  | .java => list.shown ++ ".add(" ++ t.value value ++ ");"
  | .cpp => list.shown ++ ".push_back(" ++ t.value value ++ ");"

/-- A comment. -/
def comment (t : Target) (text : String) : String := t.commentMark ++ " " ++ text

/-- The statement of a command that is not compound. Instead of a form that no language has there
is a comment with its name. -/
def simple (t : Target) : Command → String
  | .create name value => creation t name value
  | .assign name value => statement t (name.shown ++ " = " ++ t.value value)
  | .print vs => printing t vs.items
  | .read name => reading t name
  | .compute operator left right result =>
    match result with
    | none | some "" => statement t (calculation t operator left right)
    | some name => statement t (name ++ " = " ++ calculation t operator left right)
  | .increment name amount => counting t name amount "+"
  | .decrement name amount => counting t name amount "-"
  | .call name args => statement t (name.shown ++ "(" ++ t.values ", " args.items ++ ")")
  | .giveBack none => statement t "return"
  | .giveBack (some value) => statement t ("return " ++ t.value (some value))
  | .createList name vs => listCreation t name vs.items
  | .append list value => appending t list value
  | .remark text => comment t text.shown
  | command => comment t ("Unsupported node type: " ++ command.form)

/-- How a counting loop in a language with braces goes on: the comparison with its end, and the
step. A step is downward if it is a number with a minus sign. -/
def loopStep (t : Target) (counter : String) (step : Leaf) : String × String :=
  let digits := step.shown.toList
  if step = some "1" then ("<", counter ++ "++")
  else if step = some "-1" then (">", counter ++ "--")
  else if digits.head? = some '-' ∧ Literal.isNumber digits then
    (">", counter ++ " -= " ++ String.ofList (digits.drop 1))
  else ("<", counter ++ " += " ++ t.value step)

/-- The header of a counting loop. -/
def loopHeader (t : Target) (counter start stop step : Leaf) : String :=
  let name := counter.shown
  match t with
  | .python =>
    let last := if step = some "1" then "" else ", " ++ t.value step
    "for " ++ name ++ " in range(" ++ t.value start ++ ", " ++ t.value stop ++ last ++ ")"
  | _ =>
    let (compare, update) := loopStep t name step
    "for (int " ++ name ++ " = " ++ t.value start ++ "; " ++ name ++ " " ++ compare ++ " " ++
      t.value stop ++ "; " ++ update ++ ")"

/-- Whether a command gives a value back. -/
def givesValue : Command → Bool
  | .giveBack (some _) => true
  | _ => false

/-- Parameters, each with a type in front. -/
def typedParams (type : String) (params : List Leaf) : String :=
  ", ".intercalate (params.map fun p => type ++ " " ++ p.shown)

/-- The header of a function. In the languages with declarations the type of its result depends on
whether a value is given back anywhere in it. -/
def functionHeader (t : Target) (function : Leaf) (params : List Leaf) (body : Command) : String :=
  let name := function.shown
  let hasResult := body.preorder.any givesValue
  match t with
  | .python => "def " ++ name ++ "(" ++ ", ".intercalate (params.map Leaf.shown) ++ ")"
  | .java =>
    "public static " ++ (if hasResult then "Object" else "void") ++ " " ++ name ++ "(" ++
      typedParams "Object" params ++ ")"
  | .cpp =>
    (if hasResult then "auto" else "void") ++ " " ++ name ++ "(" ++ typedParams "auto" params ++ ")"

/-- The header of a block that a comparison decides about. -/
def guardHeader (t : Target) (word : String) (c : Option Condition) : String :=
  match t with
  | .python => word ++ " " ++ condition t (comparisonOf c)
  | _ => word ++ " (" ++ condition t (comparisonOf c) ++ ")"

/-- What stands at the end of the header of a block. -/
def opening : Target → String
  | .python => ":"
  | _ => " \x7b"

/-- The line that closes a block. -/
def closing : Target → List Line
  | .python => []
  | _ => [⟨0, "\x7d"⟩]

/-- The line between the two bodies of a choice. -/
def elseLine : Target → Line
  | .python => ⟨0, "else:"⟩
  | _ => ⟨0, "\x7d else \x7b"⟩

/-- The lines of a body, one block deeper. A body without lines is the statement that does
nothing. -/
def inner (t : Target) (body : List Line) : List Line :=
  deepen 1 (if body.isEmpty then [⟨0, t.noop⟩] else body)

/-- A block. -/
def block (t : Target) (header : String) (body : List Line) : List Line :=
  ofText (header ++ opening t) ++ inner t body ++ closing t

/-- The lines of a command. A hole has none. -/
def linesOf (t : Target) : Command → List Line
  | .hole => []
  | .branch c thenBody elseBody =>
    let otherwise := if elseBody.isHole then [] else elseLine t :: inner t (linesOf t elseBody)
    ofText (guardHeader t "if" c ++ opening t) ++ inner t (linesOf t thenBody) ++ otherwise ++
      closing t
  | .repeatWhile c body => block t (guardHeader t "while" c) (linesOf t body)
  | .repeatFor counter start stop step body =>
    block t (loopHeader t counter start stop step) (linesOf t body)
  | .define name params body => block t (functionHeader t name params.items body) (linesOf t body)
  | command => ofText (simple t command)

/-- The code of a command. -/
def write (t : Target) (command : Command) : Except Error String :=
  match unknownOperator? command with
  | some operator => .error (.unknownOperator operator)
  | none => .ok (render (linesOf t command))

end PlainCode.Code
