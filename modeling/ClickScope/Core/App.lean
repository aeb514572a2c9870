import ClickScope.Core.Schemas
import ClickScope.Core.Redirect

/-!
# The Application

From an HTTP request to the program of its handler: body parsing, the order of
the mounted routers, and the validated redirect routes.

A path is matched segment by segment, in the order the routers are mounted,
without regard to case, and with one trailing slash to spare. A route that is
`/` behind the path its router is mounted at has its own slash as well as the
one to spare, so two slashes are taken at the end of its path. A parameter is
one segment that is not empty, and is percent-decoded once the whole pattern
has matched, whatever the method; one that does not decode ends the matching.
`app.use` and the documentation router match a prefix, for every method.

`express.json()` reads a body of a JSON content type, which `Payload` has
already read, and leaves `req.body` undefined for any other. The rate limiters,
the security headers and the logging around a request are left out.

## Main definitions

* `HttpRequest`, `Payload`: A request, as far as the handlers depend on it.
* `expressJson`: What becomes of the body.
* `routes`, `dispatch`: The mounted routes, and the endpoint of a request.
* `isFresh`: When an answer is not sent again.
* `visitRoute`, `unlockRoute`: The redirect routes, validation included.
-/

namespace ClickScope

open Async Zod

inductive Method : Type
  | get
  | head
  | post
  | patch
  | delete
  | other
deriving DecidableEq, Repr

/-- A request body: JSON that parses to a value, or another content type. -/
inductive Payload : Type
  | json (value : JsValue)
  | other (contentType : String) (text : String)
  | empty

structure HttpRequest where
  method : Method
  path : String
  payload : Payload

/-- `req.body` behind `express.json()`. -/
def expressJson : Payload → JsValue
  | .json value => value
  | .other _ _ => .undefined
  | .empty => .undefined

/-- What answers a request. -/
inductive Endpoint : Type
  | root
  | health
  | docs
  | openapi
  | signup
  | login
  | googleStart
  | googleCallback
  | me
  | createLink
  | listLinks
  | getLink (id : String)
  | linkStats (id : String)
  | updateLink (id : String)
  | deleteLink (id : String)
  | visit (shortCode : String)
  | unlock (shortCode : String)
  /-- A parameter that does not decode. -/
  | undecodable
  | notFound
deriving DecidableEq, Repr

inductive Segment : Type
  | literal (s : String)
  | param
deriving DecidableEq, Repr

/-- A mounted route. Without a method it is a `use`. `atMount` says that it is the
    route `/` of its router. -/
structure Route where
  method : Option Method
  pattern : List Segment
  isPrefix : Bool
  atMount : Bool := false
  endpoint : List String → Endpoint

def route (method : Method) (pattern : List Segment) (endpoint : Endpoint) : Route :=
  { method := some method, pattern := pattern, isPrefix := false, endpoint := fun _ => endpoint }

/-- The route `/` of a router. -/
def mountRoute (method : Method) (pattern : List Segment) (endpoint : Endpoint) : Route :=
  { route method pattern endpoint with atMount := true }

/-- A route with one parameter. -/
def paramRoute (method : Method) (pattern : List Segment) (endpoint : String → Endpoint) : Route :=
  { method := some method, pattern := pattern, isPrefix := false,
    endpoint := fun params => endpoint (params.headD "") }

/-- The routes of all routers, in the order the application mounts them. -/
def routes : List Route :=
  [mountRoute .get [] .root,
    route .get [.literal "health"] .health,
    { method := none, pattern := [.literal "docs"], isPrefix := true, endpoint := fun _ => .docs },
    route .get [.literal "openapi.json"] .openapi,
    route .post [.literal "api", .literal "auth", .literal "signup"] .signup,
    route .post [.literal "api", .literal "auth", .literal "login"] .login,
    route .get [.literal "api", .literal "auth", .literal "google"] .googleStart,
    route .get [.literal "api", .literal "auth", .literal "google", .literal "callback"]
      .googleCallback,
    route .get [.literal "api", .literal "auth", .literal "me"] .me,
    mountRoute .post [.literal "api", .literal "links"] .createLink,
    mountRoute .get [.literal "api", .literal "links"] .listLinks,
    paramRoute .get [.literal "api", .literal "links", .param] .getLink,
    paramRoute .get [.literal "api", .literal "links", .param, .literal "stats"] .linkStats,
    paramRoute .patch [.literal "api", .literal "links", .param] .updateLink,
    paramRoute .delete [.literal "api", .literal "links", .param] .deleteLink,
    paramRoute .get [.param] .visit,
    paramRoute .post [.param, .literal "unlock"] .unlock]

/-- The segments of a path, without one trailing slash. -/
def segments (path : String) : List (List Char) :=
  let parts := (path.toList.splitOn '/').drop 1
  if parts.getLast? = some [] then parts.dropLast else parts

/-- Match a pattern against the segments it is for: the raw parameters, and the
    segments that are left. -/
def matchSegments : List Segment → List (List Char) →
    Option (List (List Char) × List (List Char))
  | [], rest => some ([], rest)
  | _ :: _, [] => none
  | .literal s :: pattern, part :: parts =>
      if part.map Char.toLower = s.toList.map Char.toLower then matchSegments pattern parts
      else none
  | .param :: pattern, part :: parts =>
      if part = [] then none
      else (matchSegments pattern parts).map (fun r => (part :: r.1, r.2))

/-- What a route leaves of a path it matches: nothing, or one more slash at a
    mount, and anything if it is a prefix. -/
def Route.takes (r : Route) (more : List (List Char)) : Bool :=
  r.isPrefix || more == [] || (r.atMount && more == [[]])

/-- A route for `GET` answers `HEAD` as well. -/
def handlesMethod : Option Method → Method → Bool
  | none, _ => true
  | some .get, .head => true
  | some m, m' => m == m'

def decodeParams (raw : List (List Char)) : Option (List String) :=
  raw.mapM (fun part => (decodeURIComponent part).map String.ofList)

/-- The first route that matches the path and handles the method. -/
def firstMatch (method : Method) (parts : List (List Char)) : List Route → Endpoint
  | [] => .notFound
  | r :: rest =>
      match matchSegments r.pattern parts with
      | none => firstMatch method parts rest
      | some (raw, more) =>
          if r.takes more = false then firstMatch method parts rest
          else
            match decodeParams raw with
            | none => .undecodable
            | some params =>
                if handlesMethod r.method method then r.endpoint params
                else firstMatch method parts rest

def dispatch (method : Method) (path : String) : Endpoint :=
  firstMatch method (segments path) routes

/-- `req.fresh`, when the answer is sent: the status of a `GET` or `HEAD` is one
    of success, and the client has the body already. Express answers 304 then,
    without a body. -/
def isFresh (method : Method) (statusCode : Nat) (hasBody : Bool) : Bool :=
  (method == .get || method == .head) && decide (200 ≤ statusCode) && decide (statusCode < 300) &&
    hasBody

/-- The text of a field a schema has found to be a text. -/
def textField (v : JsValue) (key : String) : String :=
  match v with
  | .object fields =>
      match get fields key with
      | .string s => s
      | _ => ""
  | _ => ""

/-- The parameters of a redirect route. -/
def shortCodeParams (shortCode : String) : JsValue := .object [("shortCode", .string shortCode)]

/-- `GET /:shortCode`, from the matched path on. -/
def visitRoute (P : Platform) (shortCode : String) (cookie referrer userAgent : Option String) :
    Api Response := do
  let params ← validateParams shortCodeParamSchema (shortCodeParams shortCode)
  let parsedParams ← parse shortCodeParamSchema params
  visit P
    { shortCode := textField parsedParams "shortCode", cookie := cookie, referrer := referrer,
      userAgent := userAgent }

/-- `POST /:shortCode/unlock`, from the matched path on. -/
def unlockRoute (shortCode : String) (body : JsValue) : Api Response := do
  let params ← validateParams shortCodeParamSchema (shortCodeParams shortCode)
  let validBody ← validateBody unlockBodySchema body
  let parsedParams ← parse shortCodeParamSchema params
  let parsedBody ← parse unlockBodySchema validBody
  unlock
    { shortCode := textField parsedParams "shortCode",
      password := textField parsedBody "password" }

end ClickScope
