import ClickScope.Core.RateLimit
import ClickScope.Core.SearchParams
import ClickScope.Json.Text

/-!
# The Error Handler

What becomes of an error, and the pipeline that passes errors to the handler.

An error comes from the service, as an `AppError` or as anything else that was
thrown, or from the framework: the body parser and the router pass errors of
their own, which carry a status of a client error. The handler tells the
errors of the service that are expected from all others by their class.

The request has its id and its CORS headers when its body is read, and its body
when its path is matched. The middleware for CORS answers every preflight
request itself. The handlers of the matched routes are a parameter of the
pipeline: whatever they end with in some run.

The body parser is one of the framework's packages. Of it no more is assumed
than that it does not accept a body of the JSON type that is too long, in an
unsupported charset, or no JSON object or array.

## Main definitions

* `HttpError`, `Thrown`: The errors that reach the handler.
* `createErrorHandler`: The handler.
* `acceptableBody`, `Framework`: What the body parser and the router do.
* `app`: The pipeline.
-/

namespace ClickScope

open Zod

section Handler

/-- `config.NODE_ENV` -/
inductive NodeEnv : Type
  | development
  | production
  | test
deriving DecidableEq, Repr

/-- An error of the framework, with a status of a client error. -/
structure HttpError where
  status : Nat
  message : String
  client : 400 ≤ status ∧ status < 500

/-- What reaches the error handler. -/
inductive Thrown : Type
  | service (e : LimitedErr)
  | framework (e : HttpError)

/-- The details of an `AppError`, of a validator or of a limiter. -/
inductive Details : Type
  | fields (issues : List (String × String))
  | retryAfterSeconds (seconds : Nat)
deriving DecidableEq, Repr

/-- An `AppError`, as the handler reads it. -/
structure Operational where
  statusCode : Nat
  code : ErrorCode
  message : String
  details : Option Details
deriving DecidableEq, Repr

/-- `err instanceof AppError`, and what it is then. -/
def Thrown.appError : Thrown → Option Operational
  | .service (.err (.app e)) =>
      some { statusCode := e.statusCode, code := e.code, message := e.message,
             details := e.details.map .fields }
  | .service (.tooManyRequests message seconds) =>
      some { statusCode := 429, code := .tooManyRequests, message := message,
             details := some (.retryAfterSeconds seconds) }
  | .service (.err _) => none
  | .framework _ => none

/-- `err.message`. The messages of the packages are a parameter. -/
def Thrown.message (describe : Err → String) : Thrown → String
  | .service (.err (.app e)) => e.message
  | .service (.err e) => describe e
  | .service (.tooManyRequests message _) => message
  | .framework e => e.message

/-- The body of every error response. -/
structure ErrorEnvelope where
  code : ErrorCode
  message : String
  requestId : String
  details : Option Details
deriving DecidableEq, Repr

/-- A call of `Sentry.captureException`, with its tags. -/
structure Capture where
  err : Thrown
  requestId : String
  statusCode : String
  isOperational : String

inductive AnswerBody : Type
  | text (s : String)
  | error (e : ErrorEnvelope)
deriving DecidableEq, Repr

/-- How a request was answered, and what was captured of it. -/
structure HttpAnswer where
  statusCode : Nat
  body : AnswerBody
  captured : Option Capture

def createErrorHandler (nodeEnv : NodeEnv) (describe : Err → String) (err : Thrown)
    (requestId : String) : HttpAnswer :=
  let statusCode := (err.appError.map (·.statusCode)).getD 500
  let code := (err.appError.map (·.code)).getD .internalError
  let clientMessage := match err.appError with
    | some e => e.message
    | none => if nodeEnv = .production then "Internal Server Error" else err.message describe
  { statusCode := statusCode,
    body := .error
      { code := code, message := clientMessage, requestId := requestId,
        details := err.appError.bind (·.details) },
    captured :=
      if 500 ≤ statusCode then some
        { err := err, requestId := requestId, statusCode := statusCode.repr,
          isOperational := if err.appError.isSome then "true" else "false" }
      else none }

end Handler

section Bodies

/-- A Content-Type header that was parsed. -/
structure MediaType where
  essence : String
  charset : Option String
deriving DecidableEq, Repr

/-- The limit of `express.json()`, in bytes. -/
def BODY_LIMIT : Nat := 102400

def isContainer : JsValue → Bool
  | .array _ => true
  | .object _ => true
  | _ => false

/-- Whether `express.json()` accepts a body: it has another type, or it is short
    enough, in a supported charset, and empty or a JSON object or array. -/
def acceptableBody (decode : String → List UInt8 → Option (List Char)) (type : MediaType)
    (bytes : List UInt8) : Bool :=
  type.essence != "application/json" ||
    (decide (bytes.length ≤ BODY_LIMIT) &&
      match decode (type.charset.getD "utf-8") bytes with
      | none => false
      | some text => text.isEmpty || (Json.parse text).any isContainer)

/-- What the packages of the framework do: decoding a charset, the body parser,
    and the error of the router for a parameter that does not decode. -/
structure Framework where
  decode : String → List UInt8 → Option (List Char)
  json : Option MediaType → Option (List UInt8) → Except HttpError JsValue
  decodeError : String → HttpError
  rejects : ∀ type bytes, acceptableBody decode type bytes = false →
    ∃ e, json (some type) (some bytes) = .error e

end Bodies

section Pipeline

/-- A request, as far as the pipeline depends on it. -/
structure Incoming where
  method : String
  path : String
  originalUrl : String
  requestId : Option String
  contentType : Option MediaType
  body : Option (List UInt8)

def methodOf : String → Method
  | "GET" => .get
  | "HEAD" => .head
  | "POST" => .post
  | "PATCH" => .patch
  | "DELETE" => .delete
  | _ => .other

def MAX_INBOUND_ID_LENGTH : Nat := 200

/-- `req.id`: the id the request brought with it, or a fresh one. -/
def requestContext (inbound : Option String) (fresh : String) : String :=
  match inbound with
  | none => fresh
  | some id => if 0 < jsLength id ∧ jsLength id ≤ MAX_INBOUND_ID_LENGTH then id else fresh

/-- A response of a handler. -/
structure Sent where
  statusCode : Nat
  body : String
deriving DecidableEq, Repr

/-- What the handlers of each endpoint end with. -/
abbrev RouteHandlers : Type := Endpoint → JsValue → Except LimitedErr Sent

/-- The answer of the middleware for CORS, to a preflight request. -/
def corsMiddleware (req : Incoming) : Option Sent :=
  if req.method = "OPTIONS" then some { statusCode := 204, body := "" } else none

def notFoundHandler (req : Incoming) : AppError :=
  notFound ("Route not found: " ++ req.method ++ " " ++ req.originalUrl)

/-- A request from its body on. -/
def handleRequest (F : Framework) (handlers : RouteHandlers) (req : Incoming) :
    Except Thrown Sent :=
  match F.json req.contentType req.body with
  | .error e => .error (.framework e)
  | .ok body =>
      match dispatch (methodOf req.method) req.path with
      | .undecodable => .error (.framework (F.decodeError req.path))
      | .notFound => .error (.service (.err (.app (notFoundHandler req))))
      | endpoint => (handlers endpoint body).mapError .service

/-- The application. `fresh` is what `randomUUID` returns for the request. -/
def app (F : Framework) (nodeEnv : NodeEnv) (describe : Err → String) (handlers : RouteHandlers)
    (req : Incoming) (fresh : String) : HttpAnswer :=
  match corsMiddleware req with
  | some sent => { statusCode := sent.statusCode, body := .text sent.body, captured := none }
  | none =>
      match handleRequest F handlers req with
      | .ok sent => { statusCode := sent.statusCode, body := .text sent.body, captured := none }
      | .error err => createErrorHandler nodeEnv describe err (requestContext req.requestId fresh)

end Pipeline

end ClickScope
