import PlainCode.Service.Address

/-!
# Routes

What can be asked for, and by which methods. A path that is right but for slashes leads to a route
all the same, only not at once: the answer points to the right path.
-/

namespace PlainCode.Service

/-- What can be asked for. -/
inductive Route where
  | index
  | languages
  | examples
  | convert
  /-- A file by its name, whatever that is. There are no files. -/
  | asset
  deriving DecidableEq, Repr

/-- The path of a route, or what stands in front of the name of a file. -/
def Route.path : Route → String
  | .index => "/"
  | .languages => "/api/languages"
  | .examples => "/api/examples"
  | .convert => "/api/translate"
  | .asset => "/static/"

/-- The methods that a route takes. -/
def Route.methods : Route → List String
  | .convert => ["POST", "OPTIONS"]
  | _ => ["GET", "HEAD", "OPTIONS"]

/-- Whether a path is that of a file: behind the folder something that does not begin with a slash,
and no line end further on. -/
def isAssetPath (path : List Char) : Bool :=
  match Json.afterWord? Route.asset.path.toList path with
  | some (c :: rest) => c != '/' && !rest.contains '\n'
  | _ => false

/-- Whether a path leads to a route. -/
def Route.serves (path : List Char) : Route → Bool
  | .asset => isAssetPath path
  | route => route.path.toList == path

/-- All routes. -/
def routes : List Route := [.index, .languages, .examples, .convert, .asset]

/-- The route of a path. -/
def route? (path : List Char) : Option Route := routes.find? (Route.serves path)

/-- Where a request leads. -/
inductive Destination where
  | found (route : Route)
  /-- The path is another one. -/
  | moved
  /-- The route does not take the method. -/
  | refused
  /-- A socket was asked for, and the route is none. -/
  | mismatched
  | unknown
  deriving DecidableEq, Repr

/-- Where a method and a path lead, if `reached` is where the route is reached by a method that it
takes. -/
def Route.destination (route : Route) (method : String) (reached : Destination) : Destination :=
  if route.methods.contains method then reached else .refused

/-- Where a method and an address lead. The empty path is the index without its slash. -/
def Destination.of (method : String) (address : Address) : Destination :=
  let path := address.place
  match route? path with
  | some route => route.destination method (if address.isSocket then .mismatched else .found route)
  | none =>
    if path.isEmpty then
      if Route.index.methods.contains method && !address.isSocket then .moved else .unknown
    else
      match route? (mergeSlashes path) with
      | some route => route.destination method (if address.isSocket then .mismatched else .moved)
      | none => .unknown

end PlainCode.Service
