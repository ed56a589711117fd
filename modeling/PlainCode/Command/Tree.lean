import PlainCode.Command.Basic

/-!
# Commands as drawn trees

A tree is drawn with one entry for each command: the lines that lead to it, the name of the slot it
is in, its form, and its fields. The fields are cut off after sixty characters.

A leaf that is missing is not shown. In a list it is shown as `None`, where a list without a text
for each leaf could not be drawn at all; no phrase leads to such a list.
-/

namespace PlainCode.Command

/-- A leaf in the drawing; one that is missing is not shown. -/
def shown (name : String) : Leaf → List String
  | none => []
  | some value => [name ++ "=" ++ value]

/-- Leaves in the drawing. One that is missing is shown all the same, as `None`. -/
def shownList (name : String) : Leaves → List String
  | none => []
  | some values => [name ++ "=[" ++ ", ".intercalate (values.map Leaf.shown) ++ "]"]

/-- The condition of a command in the drawing. -/
def shownCondition : Option Condition → List String
  | none => []
  | some c => ["condition=" ++ c.left.shown ++ " " ++ c.operator.shown ++ " " ++ c.right.shown]

/-- The fields of a command besides its slots, as the drawing shows them. -/
def details : Command → List String
  | .hole => []
  | .create name value => shown "name" name ++ shown "value" value
  | .assign name value => shown "name" name ++ shown "value" value
  | .print values => shownList "values" values
  | .read name => shown "variable" name
  | .compute operator left right result =>
    shown "operator" operator ++ shown "left" left ++ shown "right" right ++ shown "result" result
  | .increment name amount => shown "variable" name ++ shown "amount" amount
  | .decrement name amount => shown "variable" name ++ shown "amount" amount
  | .branch c _ _ => shownCondition c
  | .repeatWhile c _ => shownCondition c
  | .repeatFor counter start stop step _ =>
    shown "variable" counter ++ shown "start" start ++ shown "stop" stop ++ shown "step" step
  | .define name params _ => shown "name" name ++ shownList "params" params
  | .call name args => shown "name" name ++ shownList "args" args
  | .giveBack value => shown "value" value
  | .createList name values => shown "name" name ++ shownList "values" values
  | .append list value => shown "list_name" list ++ shown "value" value
  | .remark text => shown "text" text
  | .comparison c => shown "left" c.left ++ shown "operator" c.operator ++ shown "right" c.right
  | .foreign _ => []

/-- The most characters of fields that are shown. -/
def detailWidth : Nat := 60

/-- A text, cut off where it is too wide, with dots to say so. -/
def cutOff (text : String) : String :=
  if detailWidth < text.length then String.ofList (text.toList.take detailWidth) ++ "..." else text

/-- The form of a command in the drawing: capitals, unless the form is not a known one. -/
def heading (command : Command) : String :=
  if command.isKnown then command.form.toUpper else command.form

/-- A command in the drawing, without what leads to it. -/
def caption (command : Command) : String :=
  match command.details with
  | [] => command.heading
  | details => command.heading ++ " (" ++ cutOff (", ".intercalate details) ++ ")"

/-- The lines that lead to a command: a corner for the last one in its parent, a branch for any
other. -/
def connector (last : Bool) : String := if last then "└── " else "├── "

/-- What stands in front of the children of a command instead of the lines that lead to it. -/
def continuation (last : Bool) : String := if last then "    " else "│   "

/-- The entry of one command. -/
def entry (margin : String) (last : Bool) (label : String) (command : Command) : String :=
  margin ++ connector last ++ (if label = "" then "" else label ++ ": ") ++ command.caption

/-- The entries of a tree, from the margin in front of it, whether it is the last one in its parent,
and the name of its slot. -/
def draw (margin : String) (last : Bool) (label : String) : Command → List String
  | .hole => []
  | .branch c thenBody elseBody =>
    let inner := margin ++ continuation last
    entry margin last label (.branch c thenBody elseBody) ::
      (draw inner elseBody.isHole Slot.thenBody.name thenBody ++
        draw inner true Slot.elseBody.name elseBody)
  | .repeatWhile c body =>
    entry margin last label (.repeatWhile c body) ::
      draw (margin ++ continuation last) true Slot.body.name body
  | .repeatFor counter start stop step body =>
    entry margin last label (.repeatFor counter start stop step body) ::
      draw (margin ++ continuation last) true Slot.body.name body
  | .define name params body =>
    entry margin last label (.define name params body) ::
      draw (margin ++ continuation last) true Slot.body.name body
  | command => [entry margin last label command]

end PlainCode.Command
