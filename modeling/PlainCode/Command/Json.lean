import PlainCode.Command.Basic
import PlainCode.Json.Basic

/-!
# Commands as JSON

A command is an object with the name of its form and its fields. A hole in a slot is not written at
all, and anything else that is missing is written as `null`. Reading an object back gives the
command again; fields that may be left out have the values they take when a phrase leaves them out.
-/

namespace PlainCode

/-- The fields of a comparison. -/
def Condition.fields (c : Condition) : List (String × Json) :=
  [("left", Json.ofString? c.left), ("operator", Json.ofString? c.operator),
    ("right", Json.ofString? c.right)]

namespace Command

/-- A slot as a field: none for a hole. -/
def slotField (key : String) (body : Command) (json : Json) : List (String × Json) :=
  if body.isHole then [] else [(key, json)]

/-- A leaf as a field. -/
def leafField (key : String) (leaf : Leaf) : String × Json := (key, Json.ofString? leaf)

/-- Leaves as a field. -/
def leavesField (key : String) : Leaves → String × Json
  | none => (key, .null)
  | some leaves => (key, .arr (leaves.map Json.ofString?))

/-- The condition of a command as a field. -/
def conditionField : Option Condition → String × Json
  | none => ("condition", .null)
  | some c => ("condition", .obj c.fields)

/-- The fields of a command besides the name of its form. -/
def fields : Command → List (String × Json)
  | .hole => []
  | .create name value => [leafField "name" name, leafField "value" value]
  | .assign name value => [leafField "name" name, leafField "value" value]
  | .print values => [leavesField "values" values]
  | .read name => [leafField "variable" name]
  | .compute operator left right result =>
    [leafField "operator" operator, leafField "left" left, leafField "right" right,
      leafField "result" result]
  | .increment name amount => [leafField "variable" name, leafField "amount" amount]
  | .decrement name amount => [leafField "variable" name, leafField "amount" amount]
  | .branch c thenBody elseBody =>
    conditionField c ::
      (slotField "thenBody" thenBody (.obj (("type", .str thenBody.form) :: thenBody.fields)) ++
        slotField "elseBody" elseBody (.obj (("type", .str elseBody.form) :: elseBody.fields)))
  | .repeatWhile c body =>
    conditionField c ::
      slotField "body" body (.obj (("type", .str body.form) :: body.fields))
  | .repeatFor counter start stop step body =>
    [leafField "variable" counter, leafField "from" start, leafField "to" stop,
      leafField "step" step] ++
      slotField "body" body (.obj (("type", .str body.form) :: body.fields))
  | .define name params body =>
    [leafField "name" name, leavesField "params" params] ++
      slotField "body" body (.obj (("type", .str body.form) :: body.fields))
  | .call name args => [leafField "name" name, leavesField "args" args]
  | .giveBack value => [leafField "value" value]
  | .createList name values => [leafField "name" name, leavesField "values" values]
  | .append list value => [leafField "list" list, leafField "value" value]
  | .remark text => [leafField "text" text]
  | .comparison c => c.fields
  | .foreign _ => []

/-- A command as JSON; a hole is `null`. -/
def toJson (command : Command) : Json :=
  if command.isHole then .null else .obj (("type", .str command.form) :: command.fields)

/-- The leaf that a value stands for. -/
def leafOf? : Json → Option Leaf
  | .null => some none
  | .str s => some (some s)
  | _ => none

/-- The leaves that values stand for. -/
def leavesOf? : List Json → Option (List Leaf)
  | [] => some []
  | item :: items =>
    match leafOf? item, leavesOf? items with
    | some leaf, some leaves => some (leaf :: leaves)
    | _, _ => none

/-- The leaf in a field. -/
def leaf? (fields : List (String × Json)) (key : String) : Option Leaf :=
  (fields.lookup key).bind leafOf?

/-- The leaf in a field that may be left out. -/
def leafD? (fields : List (String × Json)) (key : String) (default : Leaf) : Option Leaf :=
  match fields.lookup key with
  | none => some default
  | some value => leafOf? value

/-- The leaves in a field. There are none in a field that is left out. -/
def leaves? (fields : List (String × Json)) (key : String) : Option Leaves :=
  match fields.lookup key with
  | none => some (some [])
  | some .null => some none
  | some (.arr items) => (leavesOf? items).map some
  | _ => none

/-- The name of the form that fields are of. -/
def form? (fields : List (String × Json)) : Option String :=
  match fields.lookup "type" with
  | some (.str form) => some form
  | _ => none

/-- The comparison that fields hold. -/
def condition? (fields : List (String × Json)) : Option Condition := do
  return ⟨← leaf? fields "left", ← leaf? fields "operator", ← leaf? fields "right"⟩

/-- The condition in its field. -/
def conditionField? (fields : List (String × Json)) : Option (Option Condition) :=
  match fields.lookup "condition" with
  | some .null => some none
  | some (.obj inner) => (condition? inner).map some
  | _ => none

/-- The command in a slot, among the commands that the fields hold. -/
def slot? (children : List (String × Option Command)) (key : String) : Option Command :=
  (children.lookup key).getD (some .hole)

/-- The command of a form, from its fields and the commands in them. -/
def build? (form : String) (fields : List (String × Json))
    (children : List (String × Option Command)) : Option Command :=
  match form with
  | "variable_creation" => do
    return .create (← leaf? fields "name") (← leafD? fields "value" none)
  | "assignment" => do return .assign (← leaf? fields "name") (← leaf? fields "value")
  | "print" => do return .print (← leaves? fields "values")
  | "input" => do return .read (← leaf? fields "variable")
  | "arithmetic" => do
    return .compute (← leaf? fields "operator") (← leaf? fields "left") (← leaf? fields "right")
      (← leafD? fields "result" none)
  | "increment" => do
    return .increment (← leaf? fields "variable") (← leafD? fields "amount" (some "1"))
  | "decrement" => do
    return .decrement (← leaf? fields "variable") (← leafD? fields "amount" (some "1"))
  | "if_statement" => do
    return .branch (← conditionField? fields) (← slot? children "thenBody")
      (← slot? children "elseBody")
  | "while_loop" => do
    return .repeatWhile (← conditionField? fields) (← slot? children "body")
  | "for_loop" => do
    return .repeatFor (← leaf? fields "variable") (← leaf? fields "from") (← leaf? fields "to")
      (← leafD? fields "step" (some "1")) (← slot? children "body")
  | "function_def" => do
    return .define (← leaf? fields "name") (← leaves? fields "params")
      (← slot? children "body")
  | "function_call" => do return .call (← leaf? fields "name") (← leaves? fields "args")
  | "return" => do return .giveBack (← leafD? fields "value" none)
  | "list_creation" => do
    return .createList (← leaf? fields "name") (← leaves? fields "values")
  | "append" => do return .append (← leaf? fields "list") (← leaf? fields "value")
  | "comment" => do return .remark (← leaf? fields "text")
  | "Condition" => do return .comparison (← condition? fields)
  | other => some (.foreign other)

mutual

/-- The command that a JSON value stands for. -/
def ofJson? : Json → Option Command
  | .null => some .hole
  | .obj fields => do build? (← form? fields) fields (childrenOf fields)
  | _ => none

/-- The commands that the values of fields stand for, as far as they do. -/
def childrenOf : List (String × Json) → List (String × Option Command)
  | [] => []
  | (key, value) :: fields => (key, ofJson? value) :: childrenOf fields

end

end Command

end PlainCode
