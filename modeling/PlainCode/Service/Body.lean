import PlainCode.Json.Reader
import PlainCode.Text.Lowercase

/-!
# Bodies of requests

A body is read as JSON if its content type says so. It may be in any of the encodings of
`Text.Encoding`. A body that cannot be read is no value.
-/

namespace PlainCode.Service

/-- Whether a character may stand around a media type. -/
def isSpacing (c : Char) : Bool := c == ' ' || c == '\t'

/-- The media type of a content type: what stands in front of its parameters, in small letters. -/
def mediaType (contentType : String) : String :=
  let type := (contentType.toList.takeWhile (· != ';')).dropWhile isSpacing
  Text.lower (String.ofList (type.reverse.dropWhile isSpacing).reverse)

/-- Whether a content type is one of JSON. -/
def isJsonType (contentType : String) : Bool :=
  let type := mediaType contentType
  type == "application/json" || (type.startsWith "application/" && type.endsWith "+json")

/-- The value of a body with its content type; `null` if it has none that can be read. -/
def payload (contentType : Option String) (body : String) : Json :=
  if contentType.any isJsonType then ((Text.redecoded body).bind Json.read?).getD .null else .null

end PlainCode.Service
