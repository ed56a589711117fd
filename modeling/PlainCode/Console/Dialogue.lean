import PlainCode.Convert.Session
import PlainCode.Samples

/-!
# The dialogue

Without a file the command line greets the user with some samples, and then takes one line after
another: switches of the language and of debugging, the word that ends the dialogue, and phrases
to convert. The state between two lines is the language and whether debugging is on.
-/

namespace PlainCode.Console

open PlainCode.Convert (Session Traced)

/-- The state of a dialogue: the language, whether code is shown by its trace alone, and the
session that converts phrases. -/
structure Dialogue where
  language : Target
  verbose : Bool
  session : Session
  deriving DecidableEq, Repr

/-- What a line of a dialogue leads to. -/
structure Turn where
  state : Dialogue
  output : String := ""
  finished : Bool := false
  deriving DecidableEq, Repr

/-- A line of a dialogue, without the blanks around it, by what it asks for. -/
inductive Request where
  | quit
  | language (name : String)
  | debug (on : Bool)
  | nothing
  | phrase (text : String)
  deriving DecidableEq, Repr

/-- What a line asks for. Letters of any case will do. -/
def Request.ofLine (line : String) : Request :=
  let text := Text.trim line
  let small := Text.lower text
  if small = "quit" ∨ small = "exit" ∨ small = "q" then .quit
  else if small.startsWith "lang " then .language (String.ofList (text.toList.drop 5))
  else if small = "debug on" then .debug true
  else if small = "debug off" then .debug false
  else if text = "" then .nothing
  else .phrase text

namespace Dialogue

/-- The state in which a dialogue begins. -/
def start (target : Target) (debug : Bool) : Dialogue := ⟨target, debug, ⟨debug⟩⟩

/-- What stands in front of a line that the user types. -/
def prompt (d : Dialogue) : String := "\n" ++ d.language.name ++ "> "

/-- What the user sees of a phrase: its code, unless the trace has shown it, and its warnings, or
what is wrong with it. -/
def shownOutcome (d : Dialogue) : Convert.LineOutcome → List String
  | .error e => ["\n❌ ERROR: " ++ e.message]
  | .ok r =>
    (if d.verbose then [] else [Text.indent r.code 1 "  "]) ++
      r.warnings.map fun w => "  ⚠ " ++ w.message.shown

/-- Does what a line asks for. -/
def take (d : Dialogue) : Request → Except Convert.Failure Turn
  | .quit => .ok { state := d, output := "Goodbye!\n", finished := true }
  | .language name =>
    match Target.ofText? name with
    | some target =>
      .ok { state := { d with language := target },
            output := "Target language: " ++ target.name ++ "\n" }
    | none => .ok { state := d, output := "❌ ERROR: " ++ Target.unsupported (.str name) ++ "\n" }
  | .debug true =>
    .ok { state := { d with verbose := true, session := ⟨true⟩ },
          output := "🔍 Debug mode enabled\n" }
  | .debug false =>
    .ok { state := { d with verbose := false, session := ⟨false⟩ },
          output := "Debug mode disabled\n" }
  | .nothing => .ok { state := d }
  | .phrase text =>
    let (result, written) := (Traced.line (.str text) (.str d.language.name)).run d.session []
    result.map fun outcome =>
      { state := d, output := printed written ++ printed (d.shownOutcome outcome) }

/-- Answers a line. -/
def turn (d : Dialogue) (line : String) : Except Convert.Failure Turn :=
  d.take (Request.ofLine line)

/-- Everything that a dialogue prints, from its first prompt to its end. -/
def transcript (d : Dialogue) : List String → Except Convert.Failure String
  | [] => .ok d.prompt
  | line :: rest =>
    match d.turn line with
    | .error e => .error e
    | .ok t =>
      if t.finished then .ok (d.prompt ++ t.output)
      else (t.state.transcript rest).map fun text => d.prompt ++ t.output ++ text

end Dialogue

/-- The number of samples in the greeting. -/
def greetingSamples : Nat := 3

/-- A sample in the greeting, with its number, and what becomes of it. -/
def sampleText (d : Dialogue) (number : Nat) (s : Sample) : Except Convert.Failure String :=
  let (result, written) := (Traced.program (.str s.code) (.str d.language.name)).run d.session []
  result.map fun outcome =>
    let code := match outcome.result with
      | some result => result.code
      | none => ""
    printed ["\nExample " ++ toString number ++ ": " ++ s.title] ++ printed written ++
      printed [Text.indent s.code 1 "  > ", Text.indent code 1 "  "]

/-- Samples in the greeting, counted from `number`. -/
def sampleTexts (d : Dialogue) (number : Nat) : List Sample → Except Convert.Failure String
  | [] => .ok ""
  | s :: rest =>
    match sampleText d number s with
    | .error e => .error e
    | .ok text => (sampleTexts d (number + 1) rest).map fun more => text ++ more

/-- The greeting up to its samples. -/
def greetingHead (d : Dialogue) : String :=
  printed ([divider '=', "ENGLISH TO CODE TRANSLATOR", divider '=', ""] ++
    (if d.verbose then ["🔍 DEBUG MODE ENABLED", ""] else []) ++
    ["Example translations:", divider '-'])

/-- The greeting behind its samples: what can be typed. -/
def greetingTail : String :=
  printed ["\n" ++ divider '=', "\nInteractive Mode:", "Commands:",
    "  <text>      - Translate an English command",
    "  lang <name> - Switch target language (python, java, cpp)",
    "  debug on    - Enable debug mode",
    "  debug off   - Disable debug mode",
    "  quit        - Exit program", divider '=']

/-- What a dialogue begins with. -/
def greeting (d : Dialogue) : Except Convert.Failure String :=
  (sampleTexts d 1 (samples.take greetingSamples)).map fun text =>
    greetingHead d ++ text ++ greetingTail

end PlainCode.Console
