import ClickScope.Core.LinkService
import ClickScope.Core.Tokens
import ClickScope.Core.Text

/-!
# The Redirect Routes

`GET /:shortCode` and `POST /:shortCode/unlock`, from the validated request to
the response.

The handlers look the link up through the cache, check its dead states, and
then part: the `GET` checks the unlock grant of the cookie and records the
click, the `POST` checks the password and issues a grant. A failure to enqueue
the click is swallowed. An `AppError` is thrown for the error middleware to
format, and so is the `URIError` a malformed cookie value raises.

## Main definitions

* `deadStateError`: The check both routes share.
* `renderInterstitial`: The password form.
* `unlocked`: The grant check of the `GET`.
* `visit`, `unlock`: The two handlers.
-/

namespace ClickScope

open Async

/-- `UNLOCK_COOKIE_MAX_AGE_MS` -/
def UNLOCK_COOKIE_MAX_AGE_MS : Nat := 30 * 60 * 1000

def cookieNameFor (shortCode : String) : String := "link_unlock_" ++ shortCode

/-- The password form, with an error message above it if one is given. -/
def renderInterstitial (shortCode : String) (errorMessage : Option String) : String :=
  let safeShortCode := escapeHtml shortCode
  let errorHtml := match truthy errorMessage with
    | none => ""
    | some message => "<p>" ++ escapeHtml message ++ "</p>"
  "<!doctype html>
<html lang=\"en\">
<head><meta charset=\"utf-8\"><title>Password required</title></head>
<body>
  <h1>This link is password protected</h1>
  " ++ errorHtml ++ "
  <form method=\"POST\" action=\"/" ++ safeShortCode ++ "/unlock\">
    <label for=\"password\">Password</label>
    <input type=\"password\" id=\"password\" name=\"password\" required autofocus>
    <button type=\"submit\">Unlock</button>
  </form>
</body>
</html>"

/-- The dead state that applies, in priority order. -/
def deadStateError (now : Nat) (link : RedirectLink) : Option AppError :=
  if link.isActive = false then some (gone "This link has been deactivated")
  else if link.expiresAt.any (fun t => decide (t ≤ (now : Int))) then
    some (gone "This link has expired")
  else if link.maxClicks.any (fun n => decide (n ≤ (link.clickCount : Int))) then
    some (gone "This link has reached its click limit")
  else none

/-- What the handler of the `GET` reads of a request. -/
structure VisitRequest where
  shortCode : String
  cookie : Option String
  referrer : Option String
  userAgent : Option String
deriving DecidableEq, Repr

structure UnlockRequest where
  shortCode : String
  password : String
deriving DecidableEq, Repr

/-- A `Set-Cookie` of the unlock route. -/
structure UnlockCookie where
  name : String
  value : String
  maxAge : Nat
  path : String
deriving DecidableEq, Repr

/-- The responses of the two handlers: `res.redirect(302, url)`, or a page. -/
inductive Response : Type
  | redirect (url : String) (cookie : Option UnlockCookie)
  | html (statusCode : Nat) (body : String)
deriving DecidableEq, Repr

def Response.statusCode : Response → Nat
  | .redirect _ _ => 302
  | .html statusCode _ => statusCode

/-- The Location header of a redirect. Express encodes what it is given. -/
def Response.location (P : Platform) : Response → Option String
  | .redirect url _ => some (P.encodeUrl url)
  | .html _ _ => none

/-- The page that is sent, if one is. -/
def Response.page : Response → Option String
  | .redirect _ _ => none
  | .html _ body => some body

/-- Whether the request carries a valid grant for the link. -/
def unlocked (P : Platform) (now : Nat) (req : VisitRequest) (link : RedirectLink) :
    Except Err Bool :=
  match readCookie req.cookie (cookieNameFor req.shortCode) with
  | .error e => .error e
  | .ok token =>
      match truthy token with
      | none => .ok false
      | some token => .ok (decide (verifyUnlockToken P (seconds now) token = some link.id))

/-- The link behind a request, if it is live: 404 without one, 410 if dead. -/
def liveLink (shortCode : String) : Api RedirectLink := do
  let link ← getLinkByShortCode shortCode
  match link with
  | none => .throw (.app (notFound "Link not found"))
  | some link => do
      let now ← dateNow
      match deadStateError now link with
      | some deadError => .throw (.app deadError)
      | none => pure link

/-- `enqueueClick` inside the handler's `try`, whose `catch` only logs. -/
def enqueueClick (data : ClickJobData) : Api Unit :=
  (.await (.enqueue data) (fun r => match r with
    | .ok _ => .ret ()
    | .error _ => .throw .queue) : Api Unit).tryCatch (fun _ => .ret ())

/-- The end of the `GET`: record the click and redirect. -/
def recordAndRedirect (req : VisitRequest) (link : RedirectLink) : Api Response := do
  let clickId ← randomUUID
  enqueueClick
    { clickId := clickId, linkId := link.id, shortCode := req.shortCode,
      referrer := req.referrer, userAgent := req.userAgent }
  pure (.redirect link.destinationUrl none)

/-- `GET /:shortCode` -/
def visit (P : Platform) (req : VisitRequest) : Api Response := do
  let link ← liveLink req.shortCode
  match truthy link.passwordHash with
  | none => recordAndRedirect req link
  | some _ => do
      let now ← dateNow
      match unlocked P now req link with
      | .error e => .throw e
      | .ok false => pure (.html 200 (renderInterstitial req.shortCode none))
      | .ok true => recordAndRedirect req link

/-- `POST /:shortCode/unlock` -/
def unlock (req : UnlockRequest) : Api Response := do
  let link ← liveLink req.shortCode
  match truthy link.passwordHash with
  | none => pure (.redirect ("/" ++ req.shortCode) none)
  | some passwordHash => do
      let valid ← verifyPassword req.password passwordHash
      if valid then do
        let token ← signUnlockToken link.id
        pure (.redirect ("/" ++ req.shortCode) (some
          { name := cookieNameFor req.shortCode, value := token,
            maxAge := UNLOCK_COOKIE_MAX_AGE_MS, path := "/" ++ req.shortCode }))
      else pure (.html 401 (renderInterstitial req.shortCode
        (some "Incorrect password. Please try again.")))

end ClickScope
