import PlainCode.Convert.Line
import PlainCode.Convert.Program

/-!
# Sessions

A session converts one text after another. All it keeps between two of them is whether debugging is
on; what it writes goes to one stream, behind what is on it already.
-/

namespace PlainCode.Convert

/-- The two ways of taking a text. -/
inductive Mode where
  | program
  | line
  deriving DecidableEq, Repr

namespace Mode

/-- The name of a mode. -/
def name : Mode → String
  | .program => "program"
  | .line => "line"

/-- Both modes. -/
def all : List Mode := [.program, .line]

/-- The mode that a value names. -/
def ofJson? : Json → Option Mode
  | .str "program" => some .program
  | .str "line" => some .line
  | _ => none

end Mode

/-- What becomes of a text in either mode. -/
inductive Outcome where
  | line (outcome : LineOutcome)
  | program (outcome : ProgramOutcome)

/-- The fields of an outcome in an answer. -/
def Outcome.fields : Outcome → List (String × Json)
  | .line o => lineFields o
  | .program o => programFields o

/-- Converts a text in either mode. -/
def Traced.convert (mode : Mode) (text language : Json) : Traced Outcome :=
  match mode with
  | .line => return .line (← Traced.line text language)
  | .program => return .program (← Traced.program text language)

/-- What becomes of a text in either mode. -/
def convert (mode : Mode) (text language : Json) : Except Failure Outcome :=
  (Traced.convert mode text language).result

/-- What a session is asked to do. -/
inductive Step where
  | convert (mode : Mode) (text language : Json)
  | setDebug (on : Bool)

/-- What a session answers: what a conversion comes to, if one was asked for, and the entries that
were written meanwhile. -/
structure Answer where
  result : Option (Except Failure Outcome)
  trace : List String

namespace Session

/-- One step of a session: the session that it leaves, the stream that it leaves, and the answer.
The trace is what is on the stream behind what was there before. -/
def step (s : Session) (stream : List String) : Step → Session × List String × Answer
  | .setDebug on => ({ s with debug := on }, stream, ⟨none, []⟩)
  | .convert mode text language =>
    let (result, written) := (Traced.convert mode text language).run s stream
    (s, written, ⟨some result, written.drop stream.length⟩)

/-- One step after another: the answers, and the stream that is left. A step that fails does not end
a session. -/
def run (s : Session) (stream : List String) : List Step → List Answer × List String
  | [] => ([], stream)
  | step :: steps =>
    let (next, written, answer) := s.step stream step
    let (answers, last) := next.run written steps
    (answer :: answers, last)

end Session

end PlainCode.Convert
