import PlainCode.Samples
import PlainCode.Service.Body
import PlainCode.Service.Order
import PlainCode.Service.Route
import PlainCode.Text.Capitals

/-!
# The service

Conversions over HTTP: a request names an address and a method, and is answered with a status and a
JSON value. The address and the method decide about the route, and only the route to convert looks
at the body of the request.
-/

namespace PlainCode.Service

/-- A request. A body counts only together with its content type. -/
structure Request where
  method : String
  address : String
  contentType : Option String := none
  body : String := ""
  deriving DecidableEq, Repr

/-- The names of all languages. -/
def languageNames : Json := Json.strings (Target.all.map Target.name)

/-- What the service says about itself. -/
def about : Json :=
  .obj [("service", .str "English-to-code translator"), ("languages", languageNames),
    ("endpoints", Json.strings
      [Route.convert.path, Route.languages.path, Route.examples.path])]

/-- The sample programs. -/
def sampleList : Json :=
  .arr (samples.map fun s => .obj [("title", .str s.title), ("code", .str s.code)])

/-- What a route brings, given the JSON value of the request. -/
def Route.content (value : Json) : Route → Response
  | .index => ⟨200, some about⟩
  | .languages => ⟨200, some (.obj [("languages", languageNames)])⟩
  | .examples => ⟨200, some (.obj [("examples", sampleList)])⟩
  | .convert => convertValue value
  | .asset => ⟨404, none⟩

/-- The answer of a route to a method that it takes, given the JSON value of the request. `OPTIONS`
asks for nothing. `HEAD` asks for the status alone, but only if it is written in capitals. -/
def answer (route : Route) (method : String) (value : Json) : Response :=
  if Text.capitals method = "OPTIONS" then ⟨200, none⟩
  else if method = "HEAD" then ⟨(route.content value).status, none⟩
  else route.content value

/-- The answer to a method and an address, given the JSON value of the request. Letters of any case
will do for the method. -/
def respondTo (method address : String) (value : Json) : Response :=
  match Destination.of (Text.capitals method) (Address.split address.toList) with
  | .found route => answer route method value
  | .moved => ⟨308, none⟩
  | .refused => ⟨405, none⟩
  | .mismatched => ⟨400, none⟩
  | .unknown => ⟨404, none⟩

/-- The answer to a request. -/
def respond (r : Request) : Response :=
  respondTo r.method r.address (payload r.contentType r.body)

end PlainCode.Service
