import PlainCode.Json.Basic
import PlainCode.Leaf
import PlainCode.Text.Split

/-!
# Diagnostics

What is said about a text that could not be understood, or only in part: a code, a message, the
line it is about, and the words it is about. A report gathers errors and warnings, each in the
order in which they were found, and prints them all, errors first.
-/

namespace PlainCode

/-- Something to say about a line of a text; line zero, or no line, is the text as a whole. -/
structure Diagnostic where
  code : Leaf
  message : Leaf
  line : Option Int := some 0
  context : Leaf := some ""
  deriving DecidableEq, Repr

namespace Diagnostic

/-- The number of the line that a diagnostic is about, as text. -/
def lineText (d : Diagnostic) : String := Leaf.shown (d.line.map toString)

/-- Whether a line is one of a text, and not the text as a whole. -/
def isLine (line : Option Int) : Bool := line.any (· != 0)

/-- Where a diagnostic points. -/
def location (d : Diagnostic) : String := if isLine d.line then "line " ++ d.lineText else "input"

/-- A diagnostic in one text. -/
def format (d : Diagnostic) : String :=
  "[" ++ d.code.shown ++ "] " ++ d.location ++ ": " ++ d.message.shown

/-- A diagnostic of a given line. A line that is not given leaves it as it is. -/
def onLine (line : Option Int) (d : Diagnostic) : Diagnostic :=
  if isLine line then { d with line := line } else d

/-- What answers tell of a diagnostic. -/
def toJson (d : Diagnostic) : Json :=
  .obj [("line", Json.ofInt? d.line), ("error", Json.ofString? d.message),
    ("code", Json.ofString? d.code)]

/-- A text with a deeper margin on every line but the first. -/
def hanging (text : String) : String := "\n      ".intercalate (Text.lines text)

/-- The entries of a printed report about one diagnostic. -/
def entries (d : Diagnostic) : List String :=
  ("  " ++ hanging d.format) ::
    match d.context with
    | none | some "" => []
    | some context => ["      context: " ++ context]

end Diagnostic

/-- A line across a report. -/
def divider (c : Char) : String := String.ofList (List.replicate 70 c)

/-- A heading between two such lines, with an empty line above. -/
def banner (title : String) : List String := ["\n" ++ divider '-', title, divider '-']

/-- The diagnostics of a text. -/
structure Report where
  source : Leaf
  errors : List Diagnostic := []
  warnings : List Diagnostic := []
  deriving DecidableEq, Repr

namespace Report

/-- A report with one more error. -/
def add (r : Report) (d : Diagnostic) : Report := { r with errors := r.errors ++ [d] }

/-- A report with one more warning, about a given line. -/
def warn (r : Report) (d : Diagnostic) (line : Option Int) : Report :=
  { r with warnings := r.warnings ++ [d.onLine line] }

/-- Whether a report has errors. -/
def hasErrors (r : Report) : Bool := !r.errors.isEmpty

/-- The entries of a printed report; there are none if there is nothing to report. -/
def entries (r : Report) : List String :=
  if r.errors.isEmpty && r.warnings.isEmpty then []
  else banner "DIAGNOSTICS" ++ (r.errors ++ r.warnings).flatMap Diagnostic.entries

end Report

/-- Entries as text, each ended by a newline. -/
def printed (entries : List String) : String := String.join (entries.map (· ++ "\n"))

end PlainCode
