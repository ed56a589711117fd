import PlainCode.Convert.Session

/-!
# Orders

A request to convert has its text, language, mode and debug switch in a JSON object. What is wrong
with it is found in the order of text, mode and language. A value that does not count as given is
an empty object, and any other value that is no object makes the service fail.

An order for debugging is converted in a session with debugging, of which the answer has the trace.
It also has the tokens of the text. These are found anew, line by line, also where the text is
converted as one phrase.

The value of a request was read as JSON, and whatever is read can be written again, so a value can
always be shown in a refusal.
-/

namespace PlainCode.Service

open PlainCode.Convert (Mode Outcome Traced)

/-- An answer. There is no JSON value where the path or the method is wrong. -/
structure Response where
  status : Nat
  json : Option Json := none

/-- A refusal, with what is wrong. -/
def refusal (message : String) : Response :=
  ⟨400, some (.obj [("success", .bool false), ("error", .str message)])⟩

/-- The answer to a request that cannot be dealt with. -/
def failure (message : String) : Response :=
  ⟨500, some (.obj [("success", .bool false), ("error", .str message), ("traceback", .null),
    ("debug_output", .str "")])⟩

/-- What is said about a value that has no fields. -/
def noFields (kind : String) : String := "'" ++ kind ++ "' object has no attribute 'get'"

/-- The kind of a JSON value without fields, in the words of a failure. -/
def kindName : Json → String
  | .bool _ => "bool"
  | .int _ => "int"
  | .double _ => "float"
  | .str _ => "str"
  | .arr _ => "list"
  | .null | .obj _ => ""

/-- What is said about a value that is no mode. -/
def unknownMode (value : Json) : String :=
  "Unknown mode " ++ value.display ++ "; use one of: " ++
    ", ".intercalate (Mode.all.map Mode.name)

/-- A request to convert that nothing is wrong with. -/
structure Order where
  text : String
  mode : Mode
  target : Target
  debug : Bool
  deriving DecidableEq, Repr

/-- The order that a JSON object holds, or what is wrong with it. -/
def Order.read (data : Json) : Except String Order :=
  match data.fieldD "text" (.str "") with
  | .str text =>
    if Text.blank text then .error "No text provided"
    else
      let mode := data.fieldD "mode" (.str "program")
      match Mode.ofJson? mode with
      | none => .error (unknownMode mode)
      | some mode =>
        let language := data.fieldD "language" (.str "python")
        match Target.ofJson? language with
        | none => .error (Target.unsupported language)
        | some target =>
          .ok ⟨text, mode, target, (data.fieldD "debug" (.bool false)).isGiven⟩
  | _ => .error "No text provided"

/-- The tokens of a line in an answer, counted from `number`. -/
def tokenItems (number : Nat) : List Token → List Json
  | [] => []
  | t :: ts =>
    .obj [("num", .int number), ("type", .str t.kind.name), ("value", .str t.value)] ::
      tokenItems (number + 1) ts

/-- What an answer reports of a line: its canonical form and its tokens. -/
structure LineReport where
  line : Phrase.NumberedLine
  tokens : List Json

/-- What an answer reports of the lines of a text. -/
def lineReports (text : String) : List LineReport :=
  (Phrase.numberedLines text).map fun line => ⟨line, tokenItems 0 (Token.ofText line.text)⟩

/-- A report of a line as JSON. -/
def LineReport.toJson (r : LineReport) : Json :=
  .obj [("line", .int r.line.number), ("normalized", .str r.line.text), ("tokens", .arr r.tokens)]

/-- The fields that debugging adds to an answer, with a trace. -/
def debugFields (order : Order) (trace : String) : List (String × Json) :=
  let reports := lineReports order.text
  [("debug_output", .str trace), ("tokens", .arr (reports.map LineReport.toJson)),
    ("debug_metadata", .obj [("output_length", .int trace.length),
      ("tokens_count", .int (reports.flatMap LineReport.tokens).length)])]

/-- The fields that every answer to an order has. -/
def answerFields (order : Order) (outcome : Outcome) : List (String × Json) :=
  outcome.fields ++
    [("language", .str order.target.name), ("mode", .str order.mode.name)]

/-- The answer to an order. -/
def fulfil (order : Order) : Response :=
  let (result, written) :=
    (Traced.convert order.mode (.str order.text) (.str order.target.name)).run ⟨order.debug⟩ []
  match result with
  | .error e => failure e.message
  | .ok outcome =>
    ⟨200, some (.obj (answerFields order outcome ++
      if order.debug then debugFields order (printed written) else []))⟩

/-- The answer to a request to convert, from its JSON value. A value that does not count as given is
an empty object. -/
def convertValue (value : Json) : Response :=
  let data := if value.isGiven then value else .obj []
  match data with
  | .obj fields =>
    match Order.read (.obj fields) with
    | .error message => refusal message
    | .ok order => fulfil order
  | other => failure (noFields (kindName other))

end PlainCode.Service
