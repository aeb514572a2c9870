import ClickScope.Core.Server
import ClickScope.Zod.Collections

/-!
# The Description of the API

What the OpenAPI document says each route answers with, and what it does answer.

The document is generated from a registry, with one entry for each route but
those of the document itself. An entry lists the statuses the route can be
answered with, and for most of them the schema of the body. These schemas are
written by hand: nothing at run time compares an answer with them.

The bodies are the values the handlers give to `res.json`. A date among them
becomes a text when it is written. The times the health checks took are
arguments here.

Express tags every body it sends. It answers a `GET` or `HEAD` with 304 and no
body if the client says that it has a body with this tag, and never sends a body
to a `HEAD`.

## Main definitions

* `AuthUserSchema`, `LinkSchema`, ...: The schemas of the answers.
* `PathItem`, `pathItem`: The registry.
* `Sending.content`: What a handler sends.
* `Freshness`, `answerStatus`, `answerContent`: What the client gets of it.
-/

namespace ClickScope

open Async Zod

section Schemas

def AuthUserSchema (H : Host) : Schema :=
  Zod.object .strip [
    ("id", Zod.string [Zod.uuid H "Invalid uuid"]),
    ("email", Zod.string [Zod.email H "Invalid email"]),
    ("emailVerified", Zod.boolean),
    ("createdAt", Zod.string [Zod.datetime "Invalid datetime"]),
    ("updatedAt", Zod.string [Zod.datetime "Invalid datetime"])]

def linkShape (H : Host) : List (String × Schema) :=
  [("id", Zod.string [Zod.uuid H "Invalid uuid"]),
    ("userId", Zod.string [Zod.uuid H "Invalid uuid"]),
    ("shortCode", Zod.string []),
    ("destinationUrl", Zod.string [Zod.url H "Invalid url"]),
    ("expiresAt", Zod.nullable (Zod.string [Zod.datetime "Invalid datetime"])),
    ("maxClicks", Zod.nullable (Zod.number [Zod.int])),
    ("clickCount", Zod.number [Zod.int]),
    ("isActive", Zod.boolean),
    ("isPasswordProtected", Zod.boolean),
    ("createdAt", Zod.string [Zod.datetime "Invalid datetime"]),
    ("updatedAt", Zod.string [Zod.datetime "Invalid datetime"])]

def LinkSchema (H : Host) : Schema := Zod.object .strip (linkShape H)

def PaginationSchema : Schema :=
  Zod.object .strip [
    ("total", Zod.number [Zod.int]),
    ("limit", Zod.number [Zod.int]),
    ("offset", Zod.number [Zod.int]),
    ("hasMore", Zod.boolean)]

def LinkClickStatsSchema (H : Host) : Schema :=
  Zod.object .strip [
    ("linkId", Zod.string [Zod.uuid H "Invalid uuid"]),
    ("days", Zod.number [Zod.int]),
    ("stats", Zod.array (Zod.object .strip [
      ("day", Zod.string []),
      ("clicks", Zod.number [Zod.int])]))]

def dependencyStatusSchema : Schema :=
  Zod.object .strip [
    ("status", Zod.enumeration ["ok", "error"]),
    ("latencyMs", Zod.number [])]

def HealthReportSchema : Schema :=
  Zod.object .strip [
    ("status", Zod.enumeration ["ok", "degraded"]),
    ("checks", Zod.object .strip [
      ("database", dependencyStatusSchema),
      ("redis", dependencyStatusSchema),
      ("queue", Zod.object .strip [
        ("status", Zod.enumeration ["ok", "degraded", "error"]),
        ("latencyMs", Zod.number []),
        ("waiting", Zod.number [Zod.int])])])]

def ErrorEnvelopeSchema : Schema :=
  Zod.object .strip [
    ("error", Zod.object .strip [
      ("code", Zod.string []),
      ("message", Zod.string []),
      ("requestId", Zod.string []),
      ("details", Zod.optional Zod.unknown)])]

end Schemas

section Registry

/-- What a response declares of its body: JSON of a schema, HTML, or nothing. -/
inductive Declared : Type
  | json (schema : Schema)
  | html
  | nothing

/-- An entry of the registry: the route, whether it has the bearer scheme, and
    its responses. -/
structure PathItem where
  method : Method
  path : String
  security : Bool
  responses : List (Nat × Declared)

def jsonContent (schema : Schema) : Declared := .json schema

def errorResponse : Declared := jsonContent ErrorEnvelopeSchema

/-- `z.object({ user, token })` -/
def sessionSchema (H : Host) : Schema :=
  Zod.object .strip [("user", AuthUserSchema H), ("token", Zod.string [])]

/-- `z.object({ link })` -/
def linkAnswerSchema (H : Host) : Schema := Zod.object .strip [("link", LinkSchema H)]

/-- `registry.registerPath`, for the route of an endpoint. -/
def pathItem (H : Host) : Endpoint → Option PathItem
  | .root => some
      { method := .get, path := "/", security := false,
        responses := [
          (200, jsonContent (Zod.object .strip [
            ("name", Zod.string []), ("version", Zod.string [])]))] }
  | .health => some
      { method := .get, path := "/health", security := false,
        responses := [
          (200, jsonContent HealthReportSchema),
          (503, jsonContent HealthReportSchema)] }
  | .signup => some
      { method := .post, path := "/api/auth/signup", security := false,
        responses := [
          (201, jsonContent (sessionSchema H)),
          (400, errorResponse), (409, errorResponse), (429, errorResponse),
          (500, errorResponse)] }
  | .login => some
      { method := .post, path := "/api/auth/login", security := false,
        responses := [
          (200, jsonContent (sessionSchema H)),
          (400, errorResponse), (401, errorResponse), (429, errorResponse),
          (500, errorResponse)] }
  | .googleStart => some
      { method := .get, path := "/api/auth/google", security := false,
        responses := [(302, .nothing)] }
  | .googleCallback => some
      { method := .get, path := "/api/auth/google/callback", security := false,
        responses := [
          (302, .nothing),
          (400, errorResponse), (409, errorResponse), (500, errorResponse)] }
  | .me => some
      { method := .get, path := "/api/auth/me", security := true,
        responses := [
          (200, jsonContent (Zod.object .strip [("user", AuthUserSchema H)])),
          (401, errorResponse), (500, errorResponse)] }
  | .createLink => some
      { method := .post, path := "/api/links", security := true,
        responses := [
          (201, jsonContent (linkAnswerSchema H)),
          (400, errorResponse), (401, errorResponse), (409, errorResponse), (429, errorResponse),
          (500, errorResponse)] }
  | .listLinks => some
      { method := .get, path := "/api/links", security := true,
        responses := [
          (200, jsonContent (Zod.object .strip [
            ("links", Zod.array (LinkSchema H)), ("pagination", PaginationSchema)])),
          (400, errorResponse), (401, errorResponse), (500, errorResponse)] }
  | .getLink _ => some
      { method := .get, path := "/api/links/\x7bid\x7d", security := true,
        responses := [
          (200, jsonContent (linkAnswerSchema H)),
          (400, errorResponse), (401, errorResponse), (404, errorResponse),
          (500, errorResponse)] }
  | .linkStats _ => some
      { method := .get, path := "/api/links/\x7bid\x7d/stats", security := true,
        responses := [
          (200, jsonContent (LinkClickStatsSchema H)),
          (400, errorResponse), (401, errorResponse), (404, errorResponse),
          (500, errorResponse)] }
  | .updateLink _ => some
      { method := .patch, path := "/api/links/\x7bid\x7d", security := true,
        responses := [
          (200, jsonContent (linkAnswerSchema H)),
          (400, errorResponse), (401, errorResponse), (404, errorResponse),
          (500, errorResponse)] }
  | .deleteLink _ => some
      { method := .delete, path := "/api/links/\x7bid\x7d", security := true,
        responses := [
          (204, .nothing),
          (400, errorResponse), (401, errorResponse), (404, errorResponse),
          (500, errorResponse)] }
  | .visit _ => some
      { method := .get, path := "/\x7bshortCode\x7d", security := false,
        responses := [
          (200, .html),
          (302, .nothing),
          (404, errorResponse), (410, errorResponse), (500, errorResponse)] }
  | .unlock _ => some
      { method := .post, path := "/\x7bshortCode\x7d/unlock", security := false,
        responses := [
          (302, .nothing),
          (400, errorResponse),
          (401, .html),
          (404, errorResponse), (410, errorResponse), (429, errorResponse),
          (500, errorResponse)] }
  | .docs => none
  | .openapi => none
  | .undecodable => none
  | .notFound => none

end Registry

section Bodies

/-- A whole number. -/
def intJson (n : Int) : JsValue := .number (.finite n)

/-- A nullable column. -/
def nullable {α : Type} (f : α → JsValue) : Option α → JsValue
  | none => .null
  | some a => f a

def dateJson (t : Int) : JsValue := .date (some t)

def authUserJson (user : AuthUser) : JsValue :=
  .object [
    ("id", .string user.id),
    ("email", .string user.email),
    ("emailVerified", .boolean user.emailVerified),
    ("createdAt", dateJson user.createdAt),
    ("updatedAt", dateJson user.updatedAt)]

def linkFields (link : Link) : List (String × JsValue) :=
  [("id", .string link.id),
    ("userId", .string link.userId),
    ("shortCode", .string link.shortCode),
    ("destinationUrl", .string link.destinationUrl),
    ("expiresAt", nullable dateJson link.expiresAt),
    ("maxClicks", nullable intJson link.maxClicks),
    ("clickCount", intJson link.clickCount),
    ("isActive", .boolean link.isActive),
    ("isPasswordProtected", .boolean link.isPasswordProtected),
    ("createdAt", dateJson link.createdAt),
    ("updatedAt", dateJson link.updatedAt)]

def linkJson (link : Link) : JsValue := .object (linkFields link)

def sessionJson (s : Session) : JsValue :=
  .object [("user", authUserJson s.user), ("token", .string s.token)]

def paginationJson (page : LinkPage) : JsValue :=
  .object [
    ("total", intJson page.total),
    ("limit", intJson page.limit),
    ("offset", intJson page.offset),
    ("hasMore", .boolean page.hasMore)]

def linkBodyJson : LinkBody → JsValue
  | .link link => .object [("link", linkJson link)]
  | .page page =>
      .object [
        ("links", .array (page.links.map linkJson)),
        ("pagination", paginationJson page)]

def dayJson (s : LinkClickStats) : JsValue :=
  .object [("day", .string s.day), ("clicks", intJson s.clicks)]

def statsJson (linkId : String) (days : Int) (stats : List LinkClickStats) : JsValue :=
  .object [
    ("linkId", .string linkId),
    ("days", intJson days),
    ("stats", .array (stats.map dayJson))]

def CheckStatus.name : CheckStatus → String
  | .ok => "ok"
  | .degraded => "degraded"
  | .error => "error"

/-- How long the checks of the health route took, in milliseconds. -/
structure Latencies where
  database : Nat
  redis : Nat
  queue : Nat

def dependencyJson (status : CheckStatus) (latencyMs : Nat) : JsValue :=
  .object [("status", .string status.name), ("latencyMs", intJson latencyMs)]

def healthJson (latencies : Latencies) (report : HealthReport) : JsValue :=
  .object [
    ("status", .string report.status.name),
    ("checks", .object [
      ("database", dependencyJson report.database latencies.database),
      ("redis", dependencyJson report.redis latencies.redis),
      ("queue", .object [
        ("status", .string report.queue.name),
        ("latencyMs", intJson latencies.queue),
        ("waiting", intJson report.waiting)])])]

def serviceName : String := "clickscope-api"

def serviceVersion : String := "0.1.0"

def rootJson : JsValue :=
  .object [("name", .string serviceName), ("version", .string serviceVersion)]

def ErrorCode.name : ErrorCode → String
  | .badRequest => "BAD_REQUEST"
  | .unauthorized => "UNAUTHORIZED"
  | .forbidden => "FORBIDDEN"
  | .notFound => "NOT_FOUND"
  | .gone => "GONE"
  | .conflict => "CONFLICT"
  | .tooManyRequests => "TOO_MANY_REQUESTS"
  | .internalError => "INTERNAL_ERROR"

def detailsJson : Details → JsValue
  | .fields issues => .array (issues.map (fun i =>
      .object [("field", .string i.1), ("message", .string i.2)]))
  | .retryAfterSeconds seconds => .object [("retryAfterSeconds", intJson seconds)]

/-- The envelope of an error. The details are there if there are any. -/
def errorJson (e : ErrorEnvelope) : JsValue :=
  .object [("error", .object ([
    ("code", .string e.code.name),
    ("message", .string e.message),
    ("requestId", .string e.requestId)] ++
      (e.details.map (fun d => ("details", detailsJson d))).toList))]

/-- What is sent behind a status: JSON, HTML, anything else, or no body. -/
inductive Content : Type
  | json (value : JsValue)
  | html (text : String)
  | other
  | empty

def Sending.content (latencies : Latencies) : Sending → Content
  | .session _ s => .json (sessionJson s)
  | .account user => .json (.object [("user", authUserJson user)])
  | .google _ => .other
  | .link r => .json (linkBodyJson r.body)
  | .stats linkId days entries => .json (statsJson linkId days entries)
  | .noContent => .empty
  | .redirect (.redirect _ _) => .other
  | .redirect (.html _ body) => .html body
  | .health report => .json (healthJson latencies report)
  | .static .root => .json rootJson
  | .static _ => .other
  | .plain _ => .empty

def errorContent : AnswerBody → Content
  | .text _ => .other
  | .error e => .json (errorJson e)

end Bodies

section Answers

/-- What is asked of the ETag of a body, by the If-None-Match and Cache-Control
    headers of a request. The tags and the comparison are those of two packages;
    without an If-None-Match no client has a body. -/
structure Freshness where
  hasBody : Option String → Option String → Content → Bool
  unconditional : ∀ cacheControl content, hasBody none cacheControl content = false

/-- What the answers of a server depend on besides what its handlers send. -/
structure Answering where
  nodeEnv : NodeEnv
  describe : Err → String
  requestId : String
  latencies : Latencies
  freshness : Freshness

/-- A body the client has is not sent again. -/
def notModified (A : Answering) (req : Request) (sending : Sending) : Bool :=
  isFresh (methodOf req.incoming.method) sending.status
    (A.freshness.hasBody req.ifNoneMatch req.cacheControl (sending.content A.latencies))

/-- The status of the answer: what a handler throws goes to the error handler. -/
def answerStatus (A : Answering) (req : Request) : Except Thrown Sending → Nat
  | .ok sending => if notModified A req sending then 304 else sending.status
  | .error err => (createErrorHandler A.nodeEnv A.describe err A.requestId).statusCode

/-- What would be sent behind the status, to another method than `HEAD`. -/
def fullContent (A : Answering) (req : Request) : Except Thrown Sending → Content
  | .ok sending => if notModified A req sending then .empty else sending.content A.latencies
  | .error err => errorContent (createErrorHandler A.nodeEnv A.describe err A.requestId).body

/-- What is sent behind the status. -/
def answerContent (A : Answering) (req : Request) (r : Except Thrown Sending) : Content :=
  if methodOf req.incoming.method = .head then .empty else fullContent A req r

end Answers

end ClickScope
