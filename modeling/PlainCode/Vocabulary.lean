/-!
# The vocabulary of commands

Commands are written in everyday words. Many words mean the same thing, and some mean nothing: a
word is replaced by the keyword it stands for, and a filler word is left out, unless it stands for
a keyword. All other words stand for themselves.
-/

namespace PlainCode.Vocabulary

/-- Everyday words and the keywords they stand for. -/
def synonyms : List (String × String) :=
  [("make", "create"), ("declare", "create"), ("define", "create"), ("initialize", "create"),
   ("init", "create"), ("new", "create"), ("let", "create"), ("var", "create"), ("assign", "set"),
   ("update", "set"), ("change", "set"), ("modify", "set"), ("equal", "value"),
   ("equals", "value"), ("as", "value"), ("with", "value"), ("of", "value"), ("be", "value"),
   ("values", "value"), ("display", "print"), ("show", "print"), ("output", "print"),
   ("write", "print"), ("log", "print"), ("echo", "print"), ("say", "print"), ("read", "input"),
   ("get", "input"), ("ask", "input"), ("prompt", "input"), ("accept", "input"),
   ("receive", "input"), ("plus", "add"), ("sum", "add"), ("subtract", "subtract"),
   ("minus", "subtract"), ("difference", "subtract"), ("multiply", "multiply"),
   ("times", "multiply"), ("product", "multiply"), ("divide", "divide"), ("over", "divide"),
   ("quotient", "divide"), ("modulo", "modulus"), ("mod", "modulus"), ("remainder", "modulus"),
   ("bigger", "greater"), ("more", "greater"), ("above", "greater"), ("larger", "greater"),
   ("exceeds", "greater"), ("smaller", "less"), ("below", "less"), ("fewer", "less"),
   ("under", "less"), ("same", "equal_to"), ("identical", "equal_to"), ("matches", "equal_to"),
   ("not", "not"), ("different", "not_equal"), ("unequal", "not_equal"), ("also", "and"),
   ("both", "and"), ("either", "or"), ("otherwise", "else"), ("alternatively", "else"),
   ("repeat", "while"), ("loop", "while"), ("iterate", "for"), ("increase", "increment"),
   ("raise", "increment"), ("grow", "increment"), ("decrease", "decrement"),
   ("reduce", "decrement"), ("shrink", "decrement"), ("lower", "decrement"),
   ("function", "function"), ("func", "function"), ("method", "function"),
   ("procedure", "function"), ("routine", "function"), ("subroutine", "function"),
   ("invoke", "call"), ("execute", "call"), ("run", "call"), ("give", "return"),
   ("send", "return"), ("respond", "return"), ("array", "list"), ("collection", "list"),
   ("push", "append"), ("insert", "append"), ("note", "comment"), ("remark", "comment"),
   ("save", "store"), ("keep", "store"), ("place", "store"), ("put", "store"), ("to", "to"),
   ("into", "to"), ("in", "in"), ("from", "from"), ("than", "than"), ("then", "then"),
   ("do", "do"), ("does", "do")]

/-- Words that say nothing in a command. -/
def fillers : List String :=
  ["please", "the", "a", "an", "is", "are", "was", "were", "it", "its", "this", "that", "these",
   "those", "my", "your", "his", "her", "our", "their", "should", "would", "could", "can", "will",
   "shall", "may", "might", "must", "now", "just", "also", "so", "very", "really", "actually",
   "basically", "simply", "named", "called"]

/-- The words that a command is recognised by. -/
def keywords : List String :=
  ["create", "set", "print", "input", "add", "subtract", "multiply", "divide", "modulus",
   "increment", "decrement", "if", "else", "while", "for", "do", "then", "define", "function",
   "call", "return", "append", "comment", "greater", "less", "equal_to", "not", "not_equal",
   "variable", "list", "array", "value", "to", "in", "from", "than", "store", "and", "or", "end",
   "by", "with", "parameter", "parameters", "true", "false"]

/-- The keywords of the arithmetic commands. -/
def arithmeticWords : List String := ["add", "subtract", "multiply", "divide", "modulus"]

/-- The word that a word of a command stands for, or nothing for a filler. -/
def meaning? (word : String) : Option String :=
  match synonyms.lookup word with
  | some keyword => some keyword
  | none => if fillers.contains word then none else some word

/-- Whether a word is a keyword. -/
def isKeyword (word : String) : Bool := keywords.contains word

end PlainCode.Vocabulary
