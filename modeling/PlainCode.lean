import PlainCode.Code.Line
import PlainCode.Code.Program
import PlainCode.Code.Statement
import PlainCode.Code.Value
import PlainCode.Command.Basic
import PlainCode.Command.Json
import PlainCode.Command.Tree
import PlainCode.Console.Arguments
import PlainCode.Console.Dialogue
import PlainCode.Console.File
import PlainCode.Console.Run
import PlainCode.Convert.Line
import PlainCode.Convert.Program
import PlainCode.Convert.Session
import PlainCode.Convert.Trace
import PlainCode.Convert.Traced
import PlainCode.Diagnostic
import PlainCode.Grammar.Condition
import PlainCode.Grammar.Parse
import PlainCode.Grammar.Rule
import PlainCode.Json.Basic
import PlainCode.Json.Double
import PlainCode.Json.Reader
import PlainCode.Leaf
import PlainCode.Literal.Kind
import PlainCode.Literal.Numeral
import PlainCode.Literal.Quoted
import PlainCode.Literal.Span
import PlainCode.Main
import PlainCode.Phrase
import PlainCode.Proofs.Answers
import PlainCode.Proofs.Blocks
import PlainCode.Proofs.BodySpans
import PlainCode.Proofs.Characters
import PlainCode.Proofs.Clauses
import PlainCode.Proofs.Comparisons
import PlainCode.Proofs.CountingLoops
import PlainCode.Proofs.DebugAnswers
import PlainCode.Proofs.DeclaredTypes
import PlainCode.Proofs.Dialogues
import PlainCode.Proofs.Drawings
import PlainCode.Proofs.Fields
import PlainCode.Proofs.Files
import PlainCode.Proofs.FixedPoint
import PlainCode.Proofs.Hoisting
import PlainCode.Proofs.Imports
import PlainCode.Proofs.Layout
import PlainCode.Proofs.LineByLine
import PlainCode.Proofs.Matches
import PlainCode.Proofs.Numerals
import PlainCode.Proofs.OneLine
import PlainCode.Proofs.Payloads
import PlainCode.Proofs.Pieces
import PlainCode.Proofs.Pruning
import PlainCode.Proofs.Quoting
import PlainCode.Proofs.Reading
import PlainCode.Proofs.Remarks
import PlainCode.Proofs.Requests
import PlainCode.Proofs.Requoting
import PlainCode.Proofs.ScannerScope
import PlainCode.Proofs.Scans
import PlainCode.Proofs.Segmentation
import PlainCode.Proofs.Sentences
import PlainCode.Proofs.Serialization
import PlainCode.Proofs.Sessions
import PlainCode.Proofs.Sources
import PlainCode.Proofs.Spans
import PlainCode.Proofs.Statements
import PlainCode.Proofs.Templates
import PlainCode.Proofs.TokenStreams
import PlainCode.Proofs.Tokens
import PlainCode.Proofs.Tracing
import PlainCode.Proofs.Trees
import PlainCode.Proofs.UnreadBodies
import PlainCode.Proofs.WordByWord
import PlainCode.Samples
import PlainCode.Service
import PlainCode.Service.Address
import PlainCode.Service.Body
import PlainCode.Service.Order
import PlainCode.Service.Route
import PlainCode.Target
import PlainCode.Text.Blank
import PlainCode.Text.Capitals
import PlainCode.Text.Casing
import PlainCode.Text.Digit
import PlainCode.Text.Encoding
import PlainCode.Text.Indent
import PlainCode.Text.Lowercase
import PlainCode.Text.Printable
import PlainCode.Text.Quoted
import PlainCode.Text.Ranges
import PlainCode.Text.Split
import PlainCode.Text.Word
import PlainCode.Token.Basic
import PlainCode.Token.Reading
import PlainCode.Token.Segment
import PlainCode.Vocabulary
