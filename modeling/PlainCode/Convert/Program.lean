import PlainCode.Code.Program
import PlainCode.Command.Json
import PlainCode.Command.Tree
import PlainCode.Convert.Trace
import PlainCode.Convert.Traced
import PlainCode.Grammar.Parse
import PlainCode.Phrase
import PlainCode.Token.Segment

/-!
# Converting a program

A text is taken line by line. Lines with nothing to say are passed over, each other line is a
phrase of its own, and lines that are no commands are reported as errors. There is a program as
soon as one line is a command.

What is known of a text grows with each of its lines (`Progress`), and so does the trace.
-/

namespace PlainCode.Convert

/-- A line of a text, and what it was read as. -/
structure ReadLine where
  number : Nat
  text : String
  tokens : List Token
  parsed : Except ParseError Parsed

namespace ReadLine

/-- Reads a line. -/
def of (line : Phrase.NumberedLine) : ReadLine :=
  let tokens := Token.ofText line.text
  { number := line.number, text := line.text, tokens := tokens, parsed := parse grammar tokens }

/-- The command on a line, with the number of the line. -/
def command? (l : ReadLine) : Option (Nat × Command) :=
  match l.parsed with
  | .ok parsed => some (l.number, parsed.command)
  | .error _ => none

/-- A report with what there is to say about a line. -/
def report (r : Report) (l : ReadLine) : Report :=
  match l.parsed with
  | .ok parsed => parsed.warnings.foldl (fun r w => r.warn w (some l.number)) r
  | .error e => r.add ⟨some e.code, some e.message, some l.number, some l.text⟩

end ReadLine

/-- A program that was converted: its code, its commands, and the lines they stand on. -/
structure ProgramResult where
  code : String
  commands : List Command
  lines : List Nat
  deriving DecidableEq, Repr

/-- What becomes of a text: what there is to say about it, how many tokens it has, and the program,
if there is one. -/
structure ProgramOutcome where
  errors : List Diagnostic
  warnings : List Diagnostic
  totalTokens : Nat
  result : Option ProgramResult
  deriving DecidableEq, Repr

/-- The outcome of a text of which nothing was read, for one reason. -/
def ProgramOutcome.refused (d : Diagnostic) : ProgramOutcome := ⟨[d], [], 0, none⟩

/-- What is known of a text behind some of its lines: what there is to say about them, their
commands, each with the number of its line, and how many tokens they have. -/
structure Progress where
  report : Report
  commands : List (Nat × Command) := []
  totalTokens : Nat := 0

open PlainCode.Convert.Traced in
/-- Takes in one more line. -/
def Progress.take (p : Progress) (l : ReadLine) : Traced Progress := do
  trace ["\n  Line " ++ toString l.number ++ ": " ++ toString l.tokens.length ++ " tokens"]
  trace (tokenEntries l.tokens)
  match l.parsed with
  | .ok parsed => whenDebug (trace (parsed.command.draw "    " true ""))
  | .error e => trace ["    ❌ " ++ e.message]
  return { report := l.report p.report, commands := p.commands ++ l.command?.toList,
           totalTokens := p.totalTokens + l.tokens.length }

/-- What a conversion starts from: the text, and those of its lines that say something. -/
structure ProgramStages where
  target : Target
  source : String
  lines : List ReadLine

namespace ProgramStages

/-- The text and its lines. A value that is no string has nothing to convert. -/
def run (target : Target) (text : Json) : ProgramStages :=
  let source := Phrase.ofJson text
  { target := target, source := source,
    lines := (Phrase.numberedLines source).map ReadLine.of }

open PlainCode.Convert.Traced in
/-- Takes in the lines one after the other, and writes the code of their commands. -/
def traced (s : ProgramStages) : Traced ProgramOutcome := do
  whenDebug do
    trace (headline "DEBUG MODE - TRANSLATION PROCESS")
    trace ["\nTarget language: " ++ s.target.name]
  trace (banner "PHASE 1: NORMALIZATION")
  trace (s.lines.map fun l => "  Line " ++ padLeft 2 (toString l.number) ++ ": " ++ l.text)
  if s.lines.isEmpty then
    return .refused { code := some "NRM001", message := some "Empty input" }
  else
    trace (banner "PHASE 2-3: LEXICAL + SYNTAX ANALYSIS")
    let p ← s.lines.foldlM Progress.take { report := { source := some s.source } }
    trace ["\n  Total tokens: " ++ toString p.totalTokens]
    whenDebug (write p.report.entries)
    if p.commands.isEmpty then return ⟨p.report.errors, p.report.warnings, p.totalTokens, none⟩
    else
      let code ← codeOf (Code.writeProgram s.target (p.commands.map (·.2)))
      trace (banner ("PHASE 4: CODE GENERATION (" ++ s.target.name ++ ")"))
      trace [code]
      whenDebug (trace ["\n" ++ divider '=', "TRANSLATION COMPLETE", divider '=' ++ "\n"])
      return ⟨p.report.errors, p.report.warnings, p.totalTokens,
        some ⟨code, p.commands.map (·.2), p.commands.map (·.1)⟩⟩

/-- The outcome of the stages, or why there is none. -/
def outcome (s : ProgramStages) : Except Failure ProgramOutcome := s.traced.result

end ProgramStages

/-- Converts a text, taken line by line, into the language that a value names. A language that is
not known leaves no trace. -/
def Traced.program (text language : Json) : Traced ProgramOutcome :=
  match Target.ofJson? language with
  | none => pure (.refused { code := some "GEN001", message := some (Target.unsupported language) })
  | some target => (ProgramStages.run target text).traced

/-- What becomes of a text, taken line by line, in the language that a value names. -/
def program (text language : Json) : Except Failure ProgramOutcome :=
  (Traced.program text language).result

/-- The trace of converting a text, taken line by line. -/
def programTrace (text language : Json) : List String := (Traced.program text language).entries

/-- The fields of an outcome in an answer. -/
def programFields (o : ProgramOutcome) : List (String × Json) :=
  [("success", .bool o.result.isSome), ("errors", .arr (o.errors.map Diagnostic.toJson)),
    ("warnings", .arr (o.warnings.map Diagnostic.toJson)), ("totalTokens", .int o.totalTokens)] ++
    match o.result with
    | none => []
    | some r =>
      [("code", .str r.code), ("nodes", .arr (r.commands.map Command.toJson)),
        ("lines", .arr (r.lines.map fun n : Nat => .int n))]

end PlainCode.Convert
