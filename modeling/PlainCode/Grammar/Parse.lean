import PlainCode.Diagnostic
import PlainCode.Grammar.Rule

/-!
# Reading commands

The first rule that reads the tokens decides which command they are. The tokens for its slots are
then read in the same way. Where no rule reads the tokens of a slot, the slot stays empty and a
warning says so: the command around it stands all the same.

Each reading of a slot has fewer tokens than the command it is in, so the number of tokens bounds
how deep the reading can go. There is no other bound: commands are read, written and drawn at any
depth, as if there were always room for one level more.
-/

namespace PlainCode

/-- Why tokens are no command. -/
inductive ParseError where
  | empty
  | unrecognized (tokens : List Token)
  deriving DecidableEq, Repr

namespace ParseError

/-- Commands that an error message gives as examples. -/
def examplePatterns : List String :=
  ["create variable x value 10", "print x", "if x greater than 5 then print x"]

/-- The code of an error. -/
def code : ParseError → String
  | .empty => "SYN002"
  | .unrecognized _ => "SYN001"

/-- A text in double quotes. -/
def inQuotes (text : String) : String := "\"" ++ text ++ "\""

/-- The wording of an error. -/
def message : ParseError → String
  | .empty => "Empty input"
  | .unrecognized tokens =>
    "Unrecognized command: " ++ inQuotes (Token.sentence tokens) ++ ".\nTry patterns like: " ++
      ", ".intercalate (examplePatterns.map inQuotes)

end ParseError

/-- A command that was read: by which rule, and with which warnings. -/
structure Parsed where
  rule : Rule
  command : Command
  warnings : List Diagnostic := []
  deriving DecidableEq, Repr

namespace Parsed

/-- The warning that the tokens of a slot were not understood. -/
def unreadBody (slot : Slot) (span : List Token) : Diagnostic where
  code := some "SYN010"
  message := some ("Could not parse " ++ slot.words ++ " " ++
    ParseError.inQuotes (Token.sentence span) ++ "; treated as empty")
  context := some (Token.sentence span)

/-- The first rule that reads the tokens, and what it reads. -/
def firstMatch? (rules : List Rule) (ts : List Token) : Option (Rule × Match) :=
  rules.findSome? fun rule => (rule.accept? ts).map fun m => (rule, m)

/-- A command with its slots filled from the tokens for them, and the warnings from doing so. -/
def fillSlots (parse : List Token → Except ParseError Parsed) :
    List (Slot × List Token) → Command → Command × List Diagnostic
  | [], command => (command, [])
  | (slot, span) :: rest, command =>
    if span.isEmpty then fillSlots parse rest command
    else
      match parse span with
      | .ok child =>
        let (done, warnings) := fillSlots parse rest (command.fill slot child.command)
        (done, child.warnings ++ warnings)
      | .error _ =>
        let (done, warnings) := fillSlots parse rest command
        (done, unreadBody slot span :: warnings)

/-- Reads a command at most `depth` commands deep. -/
def parseWithin (rules : List Rule) : Nat → List Token → Except ParseError Parsed
  | 0, _ => .error .empty
  | _ + 1, [] => .error .empty
  | depth + 1, t :: ts =>
    match firstMatch? rules (t :: ts) with
    | none => .error (.unrecognized (t :: ts))
    | some (rule, m) =>
      let (command, warnings) := fillSlots (parseWithin rules depth) m.spans m.command
      .ok ⟨rule, command, warnings⟩

end Parsed

/-- The command that tokens are by the given rules. -/
def parse (rules : List Rule) (ts : List Token) : Except ParseError Parsed :=
  Parsed.parseWithin rules ts.length ts

end PlainCode
