import MarkupGrammar.Json.Octets
import MarkupGrammar.Service.Target

/-!
# Requests

A request has a method, a target and perhaps a body. Its target says which resource is meant: of the
target's path, percent-decoded, the segments between slashes count. A body counts only as JSON, and
only if its type says so; a body that cannot be read is as good as none. A request that cannot be
sent is a fault.

A path with a doubled slash leads nowhere itself. If it leads somewhere without, the answer says so.
-/

namespace MarkupGrammar

/-- A request. -/
structure Request where
  method : Text
  target : Text
  contentType : Option Text
  body : Text

namespace Request

/-- The path with one slash for each run of slashes. -/
def mergeSlashes : Text → Text
  | [] => []
  | [c] => [c]
  | c :: d :: r =>
    if c = CodePoint.ofChar '/' && d = c then mergeSlashes (d :: r) else c :: mergeSlashes (d :: r)

/-- Whether a type of content is JSON or built on it. -/
def isJsonType (contentType : Text) : Bool :=
  let isGap (c : CodePoint) : Bool := c.val = 0x20 || c.val = 0x09
  let t := (Text.dropEndWhile isGap ((Host.partition ';' contentType).1.dropWhile isGap)).lower
  t = Text.ofString "application/json"
    || (Text.startsWith (Text.ofString "application/") t && Text.endsWith (Text.ofString "+json") t)

/-- The value in the body of a request; null when there is none. Only a body that is nested too
deeply is a fault. -/
def payload (r : Request) : Except Fault Json :=
  match r.contentType with
  | none => .ok .null
  | some contentType =>
    if isJsonType contentType then
      match (Json.textOfBody r.body).map Json.parse with
      | some (.ok v) => .ok v
      | some (.error .tooDeep) => .error .tooDeep
      | _ => .ok .null
    else .ok .null

end Request

/-- What a path leads to. -/
inductive Route where
  | schemas
  | grammarImport
  | attributes (schema element : Text)
  | validation
  | detection
  /-- A file that goes with the pages. There are none. -/
  | asset
deriving DecidableEq

namespace Route

/-- Whether what follows the first segment of an asset's path names a file, on one line. -/
def isFile : List Text → Bool
  | [] => false
  | segment :: segments =>
    !segment.isEmpty && (segment :: segments).all fun t => !t.contains (CodePoint.ofChar '\n')

/-- The route of a path. -/
def ofPath? (path : Text) : Option Route :=
  let is (word : String) (t : Text) : Bool := t = Text.ofString word
  match (Text.splitOn (CodePoint.ofChar '/') path).drop 1 with
  | [api, a] =>
    if is "api" api && is "schemas" a then some .schemas
    else if is "api" api && is "validate" a then some .validation
    else if is "api" api && is "detect" a then some .detection
    else if is "static" api && isFile [a] then some .asset
    else none
  | [api, a, b] =>
    if is "api" api && is "schemas" a && is "rng" b then some .grammarImport
    else if is "static" api && isFile [a, b] then some .asset
    else none
  | [api, a, schema, c, element, e] =>
    if is "api" api && is "schemas" a && is "elements" c && is "attributes" e
        && !schema.isEmpty && !element.isEmpty then
      some (.attributes schema element)
    else if is "static" api && isFile [a, schema, c, element, e] then some .asset
    else none
  | top :: segments => if is "static" top && isFile segments then some .asset else none
  | [] => none

/-- The methods that a route is made for. -/
def method : Route → String
  | .schemas => "GET"
  | .attributes .. => "GET"
  | .asset => "GET"
  | .grammarImport => "POST"
  | .validation => "POST"
  | .detection => "POST"

/-- Whether what a route answers depends on the body of the request. -/
def takesBody (r : Route) : Bool := r.method == "POST"

/-- Whether a route can be asked with a method. What can be got can also be asked for its head, and
every route for its options. -/
def allows (r : Route) (method : Text) : Bool :=
  method = Text.ofString r.method || method = Text.ofString "OPTIONS"
    || (r.method == "GET" && method = Text.ofString "HEAD")

end Route

/-- Where a request leads. -/
inductive Destination where
  | route (r : Route)
  | wrongMethod
  /-- To a route, but not by the scheme of the request. -/
  | wrongScheme
  | elsewhere
  | nowhere

namespace Request

/-- The method in capitals. -/
def verb (r : Request) : Text := r.method.upper

/-- Whether a scheme keeps a connection open for messages. No route is made for that. -/
def isForMessages (scheme : Text) : Bool :=
  scheme = Text.ofString "ws" || scheme = Text.ofString "wss"

/-- Where a path leads that is asked for by a scheme. -/
def destinationOf (r : Request) (scheme path : Text) : Destination :=
  let follow (route : Route) (found : Destination) : Destination :=
    if !route.allows r.verb then .wrongMethod
    else if isForMessages scheme then .wrongScheme
    else found
  match Route.ofPath? path with
  | some route => follow route (.route route)
  | none =>
    match Route.ofPath? (mergeSlashes path) with
    | some route => follow route .elsewhere
    | none => .nowhere

/-- Where a request leads, if it can be sent. -/
def destination (r : Request) : Except Fault Destination := do
  let (scheme, path) ← Target.resolve r.target
  let isLineEnd (c : CodePoint) : Bool := c.val = 0x0A || c.val = 0x0D
  if (r.contentType.getD []).any isLineEnd then throw .lineEndInHeader
  if (r.body ++ (← Target.ofText r.target).query).any CodePoint.isSurrogate then throw .unencodable
  return r.destinationOf scheme path

end Request

end MarkupGrammar
