import PlainCode.Code.Statement
import PlainCode.Command.Json
import PlainCode.Command.Tree
import PlainCode.Convert.Trace
import PlainCode.Convert.Traced
import PlainCode.Grammar.Parse
import PlainCode.Phrase
import PlainCode.Token.Segment

/-!
# Converting one command

A text is taken as one phrase: it is put into canonical form, cut into tokens, read as a command,
and written as code. `LineStages` holds what each stage gives. A conversion goes through the stages
in that order, says what each of them has given, and ends with the first one that has nothing to go
on with.

A text that is no string has nothing to convert, but it is shown before that is found out. So a
conversion of a number that is too long to be written fails, where that of any other value is
answered.
-/

namespace PlainCode.Convert

/-- Why a phrase is not converted. -/
inductive LineError where
  | unsupported (language : Json)
  | empty
  | noTokens
  | unreadable (cause : ParseError)

/-- The wording of an error. -/
def LineError.message : LineError → String
  | .unsupported language => Target.unsupported language
  | .empty => "Empty input"
  | .noTokens => "No tokens found"
  | .unreadable cause => cause.message

/-- A command that was converted. -/
structure LineResult where
  code : String
  command : Command
  warnings : List Diagnostic
  deriving DecidableEq, Repr

/-- What becomes of a phrase. -/
abbrev LineOutcome := Except LineError LineResult

/-- What the stages of a conversion give. The text as it was given can be shown only if it can be
written. -/
structure LineStages where
  target : Target
  raw : Option String
  canonical : String
  tokens : List Token
  parsed : Except ParseError Parsed

/-- The stages up to the command. A value that is no string has nothing to convert. -/
def LineStages.run (target : Target) (text : Json) : LineStages :=
  let canonical := Phrase.canonical (Phrase.ofJson text)
  let tokens := Token.ofText canonical
  { target := target, raw := text.plain?, canonical := canonical, tokens := tokens,
    parsed := parse grammar tokens }

open PlainCode.Convert.Traced in
/-- Goes through the stages. -/
def LineStages.traced (s : LineStages) : Traced LineOutcome := do
  trace (banner "PHASE 1: NORMALIZATION")
  let raw ← textOf s.raw
  trace ["  '" ++ raw ++ "' -> '" ++ s.canonical ++ "'"]
  if s.canonical = "" then return .error .empty
  else
    trace (banner "PHASE 2: LEXICAL ANALYSIS (Tokenization)")
    trace (tokenEntries s.tokens)
    if s.tokens.isEmpty then return .error .noTokens
    else
      trace (banner "PHASE 3: SYNTAX ANALYSIS (Parsing & AST Generation)")
      match s.parsed with
      | .error cause =>
        trace ["  ❌ " ++ cause.message]
        return .error (.unreadable cause)
      | .ok parsed =>
        whenDebug (trace (parsed.command.draw "" true ""))
        let code ← codeOf (Code.write s.target parsed.command)
        trace (banner ("PHASE 4: CODE GENERATION (" ++ s.target.name ++ ")"))
        trace [code]
        return .ok ⟨code, parsed.command, parsed.warnings⟩

/-- The outcome of the stages, or why there is none. -/
def LineStages.outcome (s : LineStages) : Except Failure LineOutcome := s.traced.result

/-- Converts a text, taken as one phrase, into the language that a value names. A language that is
not known leaves no trace. -/
def Traced.line (text language : Json) : Traced LineOutcome :=
  match Target.ofJson? language with
  | none => pure (.error (.unsupported language))
  | some target => (LineStages.run target text).traced

/-- What becomes of a text, taken as one phrase, in the language that a value names. -/
def line (text language : Json) : Except Failure LineOutcome := (Traced.line text language).result

/-- The trace of converting a text, taken as one phrase. -/
def lineTrace (text language : Json) : List String := (Traced.line text language).entries

/-- The fields of an outcome in an answer. -/
def lineFields : LineOutcome → List (String × Json)
  | .error e => [("success", .bool false), ("error", .str e.message)]
  | .ok r =>
    [("success", .bool true), ("code", .str r.code), ("ast", r.command.toJson),
      ("warnings", .arr (r.warnings.map Diagnostic.toJson))]

end PlainCode.Convert
