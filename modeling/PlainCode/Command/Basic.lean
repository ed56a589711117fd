import PlainCode.Leaf

/-!
# Commands

A command is a tree: what is to be done, and in the compound commands the commands in their bodies.
A body that was left out is a `hole`. Two more forms can occur where trees are made by hand: a
comparison that stands alone, and a form that nothing here knows, of which there is only the name.
No phrase leads to either. A form that is not known might have fields and bodies of its own, and a
program would begin as the commands in those bodies ask; such bodies are left out here.

Trees are of any depth. What is done with a tree goes down to its leaves, however far that is, and
there is nothing that runs out on the way.
-/

namespace PlainCode

/-- A comparison of two values. -/
structure Condition where
  left : Leaf
  operator : Leaf
  right : Leaf
  deriving DecidableEq, Repr, Inhabited

/-- A comparison that is missing compares nothing. -/
def Condition.missing : Condition := ⟨none, none, none⟩

/-- A command. Names and values are leaves, values with their quotes. Lists of them and the
condition of a compound command may be missing as well. -/
inductive Command where
  /-- Nothing: a body that was left out. -/
  | hole
  | create (name value : Leaf)
  | assign (name value : Leaf)
  | print (values : Leaves)
  | read (name : Leaf)
  | compute (operator left right result : Leaf)
  | increment (name amount : Leaf)
  | decrement (name amount : Leaf)
  | branch (condition : Option Condition) (thenBody elseBody : Command)
  | repeatWhile (condition : Option Condition) (body : Command)
  | repeatFor (counter start stop step : Leaf) (body : Command)
  | define (name : Leaf) (params : Leaves) (body : Command)
  | call (name : Leaf) (args : Leaves)
  | giveBack (value : Leaf)
  | createList (name : Leaf) (values : Leaves)
  | append (list value : Leaf)
  | remark (text : Leaf)
  /-- A comparison that stands where a command belongs. -/
  | comparison (condition : Condition)
  /-- A form that is known by its name only. -/
  | foreign (form : String)
  deriving DecidableEq, Repr, Inhabited

/-- The places for commands inside a command. -/
inductive Slot where
  | body
  | thenBody
  | elseBody
  deriving DecidableEq, Repr

/-- The name of a slot. -/
def Slot.name : Slot → String
  | .body => "body"
  | .thenBody => "then_body"
  | .elseBody => "else_body"

/-- The name of a slot in a sentence. -/
def Slot.words : Slot → String
  | .body => "body"
  | .thenBody => "then body"
  | .elseBody => "else body"

namespace Command

/-- Whether a place holds no command. -/
def isHole : Command → Bool
  | .hole => true
  | _ => false

/-- Whether a command defines a function. -/
def isFunction : Command → Bool
  | .define .. => true
  | _ => false

/-- The name of the form of a command. -/
def form : Command → String
  | .hole => ""
  | .create .. => "variable_creation"
  | .assign .. => "assignment"
  | .print .. => "print"
  | .read .. => "input"
  | .compute .. => "arithmetic"
  | .increment .. => "increment"
  | .decrement .. => "decrement"
  | .branch .. => "if_statement"
  | .repeatWhile .. => "while_loop"
  | .repeatFor .. => "for_loop"
  | .define .. => "function_def"
  | .call .. => "function_call"
  | .giveBack .. => "return"
  | .createList .. => "list_creation"
  | .append .. => "append"
  | .remark .. => "comment"
  | .comparison .. => "Condition"
  | .foreign form => form

/-- Whether a command is of one of the sixteen forms that the grammar and the targets know. -/
def isKnown : Command → Bool
  | .hole | .comparison .. | .foreign .. => false
  | _ => true

/-- The slots of a command, in order, each with the command in it. -/
def slots : Command → List (Slot × Command)
  | .branch _ thenBody elseBody => [(.thenBody, thenBody), (.elseBody, elseBody)]
  | .repeatWhile _ body => [(.body, body)]
  | .repeatFor _ _ _ _ body => [(.body, body)]
  | .define _ _ body => [(.body, body)]
  | _ => []

/-- A command with another command in one of its slots. -/
def fill (command : Command) (slot : Slot) (child : Command) : Command :=
  match command, slot with
  | .branch c _ elseBody, .thenBody => .branch c child elseBody
  | .branch c thenBody _, .elseBody => .branch c thenBody child
  | .repeatWhile c _, .body => .repeatWhile c child
  | .repeatFor counter start stop step _, .body => .repeatFor counter start stop step child
  | .define name params _, .body => .define name params child
  | command, _ => command

/-- All commands of a tree, each before those in its slots. Holes are left out. -/
def preorder : Command → List Command
  | .hole => []
  | .branch c thenBody elseBody =>
    .branch c thenBody elseBody :: (preorder thenBody ++ preorder elseBody)
  | .repeatWhile c body => .repeatWhile c body :: preorder body
  | .repeatFor counter start stop step body =>
    .repeatFor counter start stop step body :: preorder body
  | .define name params body => .define name params body :: preorder body
  | command => [command]

end Command

end PlainCode
