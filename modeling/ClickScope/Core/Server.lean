import ClickScope.Core.ErrorHandler
import ClickScope.Core.LinkRoutes
import ClickScope.Core.System

/-!
# The Server

Every endpoint of the application as a program, from the request to what is
sent, and all requests and jobs as a pool.

The middleware of a route comes first, in the order the route lists it: the
bearer check, the limiter, the validation. The limiters count in a Redis of
their own. A command to it can fail, before or after it took effect, and then
the limiter lets the request pass without a count.

A bearer token need not name an account: the check of an unlock token leaves
`req.userId` undefined. A statement that is given it as the owner compares with
NULL, which finds no row, and an insert is refused by the column. Such a
handler is the handler of an account, with its statements performed by
`nobody`.

The answers of the root, documentation and health routes are the same for all
requests up to what the health checks find. What swagger-ui sends is left out.

## Main definitions

* `HttpOp`, `Http`: The operations and programs of the server.
* `RateLimits`, `limiter`: The four limiters, with a store that can fail.
* `postSignup`, `postLogin`, `getMe`, ...: The handlers.
* `asOwner`: A handler that works for the account of a token.
* `endpointProgram`, `handle`: The program of an endpoint, and of a request.
* `server`: The pool.
-/

namespace ClickScope

open Async Zod FixedWindow

section Operations

/-- An operation of the server: counting a hit in a window of that many
    milliseconds, one of the service, one that is given no owner, or a check of
    the health route. -/
inductive HttpOp : Type
  | increment (windowMs : Nat) (key : String)
  | api (op : Op)
  | nobody (op : Op)
  | checkDatabase
  | checkRedis
  | getWaitingCount
deriving DecidableEq, Repr

@[reducible] def HttpOp.Res : HttpOp → Type
  | .increment _ _ => Except Unit Window
  | .api op => op.Res
  | .nobody op => op.Res
  | .checkDatabase => Bool
  | .checkRedis => Bool
  | .getWaitingCount => Except Unit Nat

/-- The programs of the server. -/
abbrev Http (α : Type) := Prog HttpOp HttpOp.Res Thrown α

/-- What a program of the service throws. -/
def ofService (e : Err) : Thrown := .service (.err e)

def api {α : Type} (x : Api α) : Http α := x.embed .api (fun _ r => r) ofService

/-- A program that is given no owner. -/
def nobody {α : Type} (x : Api α) : Http α := x.embed .nobody (fun _ r => r) ofService

/-- What a statement answers that is given NULL for the owner, if it is given
    one at all. -/
def forNobody : (s : Stmt) → Option (Except DbError s.Rows)
  | .userById _ => some (.ok [])
  | .insertLink l =>
      some (.error
        (if (textOk l.shortCode && textOk l.destinationUrl && textOk? l.passwordHash) = false then
          .invalidByteSequence
        else if int4Ok? l.maxClicks = false then rangeError (l.maxClicks.getD 0)
        else if timestampOk? l.expiresAt = false then .datetimeFieldOverflow
        else .notNullViolation))
  | .listLinks _ limit offset =>
      some (if int8Ok limit = false then .error (rangeError limit)
        else if int8Ok offset = false then .error (rangeError offset)
        else if limit < 0 ∨ offset < 0 then .error .invalidRowCount
        else .ok [])
  | .countLinks _ => some (.ok 0)
  | .linkById id _ =>
      some (match uuidError id with
        | some e => .error e
        | none => .ok [])
  | .updateLink _ _ _ values =>
      some (match values.findSome? SqlValue.bindError with
        | some e => .error e
        | none => .ok [])
  | .deleteLink id _ =>
      some (match uuidError id with
        | some e => .error e
        | none => .ok [])
  | .clickStats id _ since =>
      some (match uuidError id with
        | some e => .error e
        | none =>
            if timestampOk? (some since) = false then .error .datetimeFieldOverflow else .ok [])
  | _ => none

end Operations

section Limiters

/-- What the configuration says of the limiters. It has been checked that all
    numbers are positive. -/
structure RateLimits extends RateLimitConfig where
  RATE_LIMIT_AUTH_WINDOW_SECONDS : Nat
  RATE_LIMIT_AUTH_MAX : Nat
  RATE_LIMIT_LINKS_WINDOW_SECONDS : Nat
  RATE_LIMIT_LINKS_MAX : Nat
  auth_window_pos : 0 < RATE_LIMIT_AUTH_WINDOW_SECONDS
  auth_max_pos : 0 < RATE_LIMIT_AUTH_MAX
  links_window_pos : 0 < RATE_LIMIT_LINKS_WINDOW_SECONDS
  links_max_pos : 0 < RATE_LIMIT_LINKS_MAX

def signupLimiter (config : RateLimits) : Limiter :=
  { windowSeconds := config.RATE_LIMIT_AUTH_WINDOW_SECONDS, max := config.RATE_LIMIT_AUTH_MAX,
    name := "auth-signup" }

def loginLimiter (config : RateLimits) : Limiter :=
  { windowSeconds := config.RATE_LIMIT_AUTH_WINDOW_SECONDS, max := config.RATE_LIMIT_AUTH_MAX,
    name := "auth-login" }

def linksCreateLimiter (config : RateLimits) : Limiter :=
  { windowSeconds := config.RATE_LIMIT_LINKS_WINDOW_SECONDS, max := config.RATE_LIMIT_LINKS_MAX,
    name := "links-create" }

/-- A limiter as a middleware. It passes a request when its store fails. -/
def limiter (l : Limiter) (key : String) : Http Unit :=
  .await (.increment l.windowMs (l.storeKey key)) (fun (r : Except Unit Window) =>
    match r with
    | .error _ => .ret ()
    | .ok w =>
        if l.max < w.count then
          .await (.api .dateNow) (fun (now : Nat) =>
            .throw (.service (.tooManyRequests "Too many requests. Please try again later."
              (retryAfterSeconds l now w))))
        else .ret ())

end Limiters

section Health

inductive CheckStatus : Type
  | ok
  | degraded
  | error
deriving DecidableEq, Repr

def QUEUE_DEPTH_DEGRADED_THRESHOLD : Nat := 100

/-- A health report. The latencies are left out. -/
structure HealthReport where
  status : CheckStatus
  database : CheckStatus
  redis : CheckStatus
  queue : CheckStatus
  waiting : Int
deriving DecidableEq, Repr

/-- The `status` of a dependency that was checked. -/
def timed (ok : Bool) : CheckStatus := if ok then .ok else .error

def checkQueueDepth : Except Unit Nat → CheckStatus × Int
  | .ok waiting =>
      (if QUEUE_DEPTH_DEGRADED_THRESHOLD < waiting then .degraded else .ok, waiting)
  | .error _ => (.error, -1)

def healthReport (database redis : Bool) (waiting : Except Unit Nat) : HealthReport :=
  let queue := checkQueueDepth waiting
  let allOk := timed database == .ok && timed redis == .ok && queue.1 == .ok
  { status := if allOk then .ok else .degraded, database := timed database, redis := timed redis,
    queue := queue.1, waiting := queue.2 }

def getHealthReport : Http HealthReport :=
  .await .checkDatabase (fun (database : Bool) =>
    .await .checkRedis (fun (redis : Bool) =>
      .await .getWaitingCount (fun (waiting : Except Unit Nat) =>
        .ret (healthReport database redis waiting))))

end Health

section Requests

/-- A request, with all that the handlers read of it. Which of its parallel
    queries is first, and the browser it comes from, are recorded with it. -/
structure Request where
  incoming : Incoming
  ip : String
  authorization : Option String
  cookie : Option String
  referrer : Option String
  userAgent : Option String
  ifNoneMatch : Option String := none
  cacheControl : Option String := none
  query : JsValue
  countFirst : Bool
  browser : Nat

/-- What is sent. -/
inductive Sending : Type
  | session (status : Nat) (s : Session)
  | account (user : AuthUser)
  | google (r : GoogleReply)
  | link (r : LinkReply)
  | stats (linkId : String) (days : Int) (stats : List LinkClickStats)
  | noContent
  | redirect (r : Response)
  | health (report : HealthReport)
  | static (endpoint : Endpoint)
  | plain (sent : Sent)
deriving DecidableEq, Repr

/-- The status a handler gives its response. -/
def Sending.status : Sending → Nat
  | .session status _ => status
  | .account _ => 200
  | .google _ => 302
  | .link r => r.status
  | .stats _ _ _ => 200
  | .noContent => 204
  | .redirect r => r.statusCode
  | .health report => if report.status = .ok then 200 else 503
  | .static _ => 200
  | .plain sent => sent.statusCode

/-- Where the server runs: the platform, the packages, and what the driver makes
    of a `sub` that is neither a text nor an integer. -/
structure Deployment where
  P : Platform
  H : Host
  F : Framework
  G : IpKeyGenerator
  limits : RateLimits
  otherSub : Option String

end Requests

section AuthRoutes

/-- `POST /api/auth/signup`, behind its limiter. -/
def postSignup (P : Platform) (H : Host) (body : JsValue) : Api Sending := do
  let validBody ← validateBody (signupSchema H) body
  let parsed ← parse (signupSchema H) validBody
  let s ← signup P (textField parsed "email") (textField parsed "password")
  pure (.session 201 s)

/-- `POST /api/auth/login`, behind its limiter. -/
def postLogin (P : Platform) (H : Host) (body : JsValue) : Api Sending := do
  let validBody ← validateBody (loginSchema H) body
  let parsed ← parse (loginSchema H) validBody
  let s ← login P (textField parsed "email") (textField parsed "password")
  pure (.session 200 s)

/-- `GET /api/auth/google` -/
def getGoogle : Api Sending := do
  let r ← googleStart
  pure (.google r)

/-- The parsed query of a callback. -/
def callbackRequest (browser : Nat) (parsed : JsValue) : GoogleRequest :=
  { browser := browser, state := textField parsed "state",
    code := textOf (fieldOf parsed "code"), error := textOf (fieldOf parsed "error") }

/-- `GET /api/auth/google/callback` -/
def getGoogleCallback (P : Platform) (browser : Nat) (query : JsValue) : Api Sending := do
  let validQuery ← validateQuery googleCallbackQuerySchema query
  let parsed ← parse googleCallbackQuerySchema validQuery
  let r ← googleCallback P (callbackRequest browser parsed)
  pure (.google r)

/-- `GET /api/auth/me`, behind the bearer check. -/
def getMe (userId : String) : Api Sending := do
  let user ← getUserById userId
  match user with
  | none => .throw (.app (unauthorized "Invalid or expired token"))
  | some user => pure (.account user)

end AuthRoutes

section LinkRoutes

def MAX_STATS_DAYS : Int := 365

/-- The days a parsed query asks for. They are clamped. -/
def statsDays (parsed : JsValue) : Int :=
  min ((intOf (fieldOf parsed "days")).getD 0) MAX_STATS_DAYS

/-- `GET /api/links/:id` -/
def getOneLink (H : Host) (userId id : String) : Api Sending := do
  let params ← validateParams (idParamSchema H) (idParams id)
  let parsedParams ← parse (idParamSchema H) params
  let link ← getLink userId (textField parsedParams "id")
  match link with
  | none => .throw (.app (notFound "Link not found"))
  | some link => pure (.link { status := 200, body := .link link })

/-- `GET /api/links/:id/stats` -/
def getLinkStats (H : Host) (userId id : String) (query : JsValue) : Api Sending := do
  let params ← validateParams (idParamSchema H) (idParams id)
  let validQuery ← validateQuery (linkStatsQuerySchema H) query
  let parsedParams ← parse (idParamSchema H) params
  let parsedQuery ← parse (linkStatsQuerySchema H) validQuery
  let now ← dateNow
  let stats ← getLinkClickStats userId (textField parsedParams "id")
    (now - statsDays parsedQuery * 24 * 60 * 60 * 1000)
  match stats with
  | none => .throw (.app (notFound "Link not found"))
  | some stats => pure (.stats (textField parsedParams "id") (statsDays parsedQuery) stats)

/-- `DELETE /api/links/:id` -/
def deleteOneLink (H : Host) (userId id : String) : Api Sending := do
  let params ← validateParams (idParamSchema H) (idParams id)
  let parsedParams ← parse (idParamSchema H) params
  let deleted ← deleteLink userId (textField parsedParams "id")
  if deleted then pure .noContent else .throw (.app (notFound "Link not found"))

end LinkRoutes

section Pipeline

/-- `requireAuth` as a middleware: what it leaves in `req.userId`. -/
def authenticate (P : Platform) (authorization : Option String) : Http (Option ClaimValue) := do
  let now ← api dateNow
  match requireAuth P (seconds now) authorization with
  | .error e => .throw (ofService (.app e))
  | .ok sub => pure sub

/-- The owner a statement is given for a claim, NULL being none. -/
def ownerOf (D : Deployment) : Option ClaimValue → Option String
  | none => none
  | some (.str s) => some s
  | some (.num n) => some (toString n)
  | some .other => D.otherSub

/-- A handler for the account of a token. -/
def asOwner {α : Type} (owner : Option String) (handler : String → Api α) : Http α :=
  match owner with
  | some userId => api (handler userId)
  | none => nobody (handler "")

/-- The key of the link limiter: `req.userId ?? ipKeyGenerator(req.ip ?? '')`. -/
def linksKey (D : Deployment) (owner : Option String) (req : Request) : String :=
  owner.getD (D.G.key req.ip)

/-- A request to one of the routes behind the bearer check. -/
def authenticated (D : Deployment) (req : Request) (next : Option String → Http Sending) :
    Http Sending := do
  let sub ← authenticate D.P req.authorization
  next (ownerOf D sub)

def asLink (x : Api LinkReply) : Api Sending := do
  let r ← x
  pure (.link r)

def asRedirect (x : Api Response) : Api Sending := do
  let r ← x
  pure (.redirect r)

/-- `POST /:shortCode/unlock` as its limiter sees it. -/
def postedUnlock (req : Request) (shortCode : String) (body : JsValue) : UnlockPost :=
  { ip := req.ip, shortCode := shortCode, body := body }

/-- What answers a request at each endpoint, middleware included. -/
def endpointProgram (D : Deployment) (req : Request) (body : JsValue) : Endpoint → Http Sending
  | .root => .ret (.static .root)
  | .health => do
      let report ← getHealthReport
      pure (.health report)
  | .docs => .ret (.static .docs)
  | .openapi => .ret (.static .openapi)
  | .signup => do
      limiter (signupLimiter D.limits) (D.G.key req.ip)
      api (postSignup D.P D.H body)
  | .login => do
      limiter (loginLimiter D.limits) (D.G.key req.ip)
      api (postLogin D.P D.H body)
  | .googleStart => api getGoogle
  | .googleCallback => api (getGoogleCallback D.P req.browser req.query)
  | .me => authenticated D req (fun owner => asOwner owner getMe)
  | .createLink => authenticated D req (fun owner => do
      limiter (linksCreateLimiter D.limits) (linksKey D owner req)
      asOwner owner (fun userId => asLink (postLink D.H userId body)))
  | .listLinks => authenticated D req (fun owner =>
      asOwner owner (fun userId => asLink (getLinks D.H req.countFirst userId req.query)))
  | .getLink id => authenticated D req (fun owner =>
      asOwner owner (fun userId => getOneLink D.H userId id))
  | .linkStats id => authenticated D req (fun owner =>
      asOwner owner (fun userId => getLinkStats D.H userId id req.query))
  | .updateLink id => authenticated D req (fun owner =>
      asOwner owner (fun userId => asLink (patchLink D.H userId id body)))
  | .deleteLink id => authenticated D req (fun owner =>
      asOwner owner (fun userId => deleteOneLink D.H userId id))
  | .visit shortCode =>
      api (asRedirect (visitRoute D.P shortCode req.cookie req.referrer req.userAgent))
  | .unlock shortCode => do
      limiter (unlockLimiter D.limits.toRateLimitConfig)
        (unlockKey D.G (postedUnlock req shortCode body))
      api (asRedirect (unlockRoute shortCode body))
  | .undecodable => .throw (.framework (D.F.decodeError req.incoming.path))
  | .notFound => .throw (ofService (.app (notFoundHandler req.incoming)))

/-- The endpoints behind the bearer check. -/
def needsToken : Endpoint → Bool
  | .me | .createLink | .listLinks | .getLink _ | .linkStats _ | .updateLink _ | .deleteLink _ =>
      true
  | _ => false

/-- A request, from the first middleware to what is sent or thrown. -/
def handle (D : Deployment) (req : Request) : Http Sending :=
  match corsMiddleware req.incoming with
  | some sent => .ret (.plain sent)
  | none =>
      match D.F.json req.incoming.contentType req.incoming.body with
      | .error e => .throw (.framework e)
      | .ok body =>
          endpointProgram D req body (dispatch (methodOf req.incoming.method) req.incoming.path)

end Pipeline

section Pool

/-- What the server and the worker are asked to do. -/
inductive Work : Type
  | request (req : Request)
  | clickJob (data : ClickJobData)
  | cleanupJob

/-- The world of the service, the counts of the limiters, and how many jobs the
    click queue says are waiting. -/
structure ServerWorld where
  app : World
  hits : Store String
  waiting : Nat

/-- The clock moves, and jobs come and go. -/
inductive ServerEnv : Type
  | tick (ms : Nat)
  | backlog (waiting : Nat)

def execServer (P : Platform) (tid : Nat) :
    (op : HttpOp) → Choice → ServerWorld → Option (op.Res × ServerWorld)
  | .increment windowMs key, ch, w =>
      let counted := { w with hits := (hit windowMs w.app.now key w.hits).2 }
      match ch.fault with
      | .none => some (.ok (hit windowMs w.app.now key w.hits).1, counted)
      | .lost => some (.error (), w)
      | .unacknowledged => some (.error (), counted)
  | .api op, ch, w => (exec P tid op ch w.app).map (fun r => (r.1, { w with app := r.2 }))
  | .nobody (.db s), ch, w =>
      match forNobody s with
      | some r => some (r, w)
      | none => (exec P tid (.db s) ch w.app).map (fun r => (r.1, { w with app := r.2 }))
  | .nobody op, ch, w => (exec P tid op ch w.app).map (fun r => (r.1, { w with app := r.2 }))
  | .checkDatabase, ch, w => some (ch.fault == .none, w)
  | .checkRedis, ch, w => some (ch.fault == .none, w)
  | .getWaitingCount, ch, w =>
      match ch.fault with
      | .none => some (.ok w.waiting, w)
      | _ => some (.error (), w)

/-- A click job and a cleanup job, among the requests. -/
def work (D : Deployment) : Work → Http Sending
  | .request req => handle D req
  | .clickJob data => (api (processClickJob data)).bind (fun _ => .ret .noContent)
  | .cleanupJob => (api sweepExpiredLinks).bind (fun _ => .ret .noContent)

/-- All requests and jobs as a pool. -/
def server (D : Deployment) :
    System HttpOp HttpOp.Res Thrown Sending Work ServerEnv Choice ServerWorld where
  exec := execServer D.P
  body := work D
  env := fun e w => match e with
    | .tick ms => some { w with app := { w.app with now := w.app.now + ms } }
    | .backlog waiting => some { w with waiting := waiting }
  reap := fun tid w => { w with app := { w.app with db := w.app.db.closeTx tid } }

end Pool

end ClickScope
