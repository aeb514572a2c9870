import ClickScope.Core.World
import ClickScope.Zod.Schema

/-!
# The Request Schemas

What the routers check of a request before they handle it, and the middleware
that does.

Every handler parses twice: the middleware writes its output to
`req.validated`, and the handler parses that with the same schema again. The
two parses are two programs here, each with its own reading of the clock, since
one refinement compares a date with it.

A schema that refines by `new URL(url)` throws on a text that is no URL, since
the refinement runs after the `url` check whether or not that found an issue.

## Main definitions

* `signupSchema`, `createLinkSchema`, ...: The schemas of the three routers.
* `RouteSchema`: All of them.
* `makeValidator`: The middleware.
* `parse`: The second parse, in the handler.
-/

namespace ClickScope

open Async Zod

/-- A check on the text a schema came to. Of anything else it would throw. -/
def stringCheck (check : String → Option Bool) : Nat → JsValue → Option Bool
  | _, .string s => check s
  | _, _ => none

/-- A check on the date a schema came to, and the clock. -/
def dateCheck (check : Nat → Int → Bool) : Nat → JsValue → Option Bool
  | now, .date (some t) => some (check now t)
  | _, _ => none

def signupSchema (H : Host) : Schema :=
  Zod.object .strip [
    ("email", Zod.string [Zod.email H "Must be a valid email address"]),
    ("password", Zod.string [Zod.min 8 "Password must be at least 8 characters"])]

def loginSchema (H : Host) : Schema :=
  Zod.object .strip [
    ("email", Zod.string [Zod.email H "Must be a valid email address"]),
    ("password", Zod.string [Zod.min 1 "Password is required"])]

def googleCallbackQuerySchema : Schema :=
  Zod.object .strip [
    ("state", Zod.string [] "Missing OAuth state parameter"),
    ("code", Zod.optional (Zod.string [])),
    ("error", Zod.optional (Zod.string []))]

def idParamSchema (H : Host) : Schema :=
  Zod.object .strip [("id", Zod.string [Zod.uuid H "id must be a valid UUID"])]

/-- A text, an `http` or `https` URL. -/
def destinationUrlSchema (H : Host) : Schema :=
  Zod.refine (Zod.string [Zod.url H "destinationUrl must be a valid URL"])
    (stringCheck (fun url => (H.urlProtocol url).map (["http:", "https:"].contains ·)))
    "destinationUrl must use http or https"

def futureDateSchema (H : Host) : Schema :=
  Zod.refine (Zod.coerceDate H) (dateCheck (fun now t => decide ((now : Int) < t)))
    "expiresAt must be in the future"

def linkPasswordSchema : Schema :=
  Zod.string [Zod.min 1 "password must not be empty",
    Zod.max 72 "password must be at most 72 characters"]

/-- The characters of a generated short code. -/
def ALPHABET : List Char :=
  "0123456789ABCDEFGHIJKLMNOPQRSTUVWXYZabcdefghijklmnopqrstuvwxyz".toList

def DEFAULT_SHORT_CODE_LENGTH : Nat := 7

def MIN_ALIAS_LENGTH : Nat := 3

def MAX_ALIAS_LENGTH : Nat := 32

def RESERVED_SHORT_CODES : List String :=
  ["api", "health", "docs", "auth", "login", "signup", "admin", "static", "assets",
    "favicon.ico", "robots.txt"]

/-- The letters outside ASCII that have a lower case have none in a reserved
    code, so the lower case of ASCII decides. -/
def isReservedShortCode (code : String) : Bool :=
  RESERVED_SHORT_CODES.contains (String.ofList (code.toList.map Char.toLower))

/-- `/^[a-zA-Z0-9_-]+$/` -/
def aliasPattern (s : String) : Bool :=
  decide (s ≠ "") && s.toList.all (fun c => c.isAlphanum || c == '_' || c == '-')

def customAliasSchema : Schema :=
  Zod.refine
    (Zod.string [
      Zod.min MIN_ALIAS_LENGTH "Alias must be at least 3 characters",
      Zod.max MAX_ALIAS_LENGTH "Alias must be at most 32 characters",
      Zod.regex aliasPattern "Alias may only contain letters, numbers, hyphens, and underscores"])
    (stringCheck (fun code => some (!isReservedShortCode code)))
    "This alias is reserved and cannot be used"

/-- The number of the `maxClicks` fields. -/
def maxClicksSchema : Schema :=
  Zod.number [Zod.int, Zod.positive "maxClicks must be a positive integer"]

def createLinkShape (H : Host) : List (String × Schema) :=
  [("destinationUrl", destinationUrlSchema H),
    ("customAlias", Zod.optional customAliasSchema),
    ("expiresAt", Zod.optional (futureDateSchema H)),
    ("maxClicks", Zod.optional maxClicksSchema),
    ("password", Zod.optional linkPasswordSchema)]

def createLinkSchema (H : Host) : Schema :=
  Zod.object .strip (createLinkShape H)

def updateLinkShape (H : Host) : List (String × Schema) :=
  [("destinationUrl", Zod.optional (destinationUrlSchema H)),
    ("expiresAt", Zod.optional (Zod.nullable (futureDateSchema H))),
    ("maxClicks", Zod.optional (Zod.nullable maxClicksSchema)),
    ("isActive", Zod.optional Zod.boolean),
    ("password", Zod.optional (Zod.nullable linkPasswordSchema))]

def updateLinkSchema (H : Host) : Schema :=
  Zod.object .strict (updateLinkShape H)

def MAX_PAGE_SIZE : Int := 100

def DEFAULT_PAGE_SIZE : Int := 20

def listLinksQueryShape (H : Host) : List (String × Schema) :=
  [("limit", Zod.default (Zod.coerceNumber H
      [Zod.int, Zod.positive "limit must be a positive integer"])
      (.number (.finite DEFAULT_PAGE_SIZE))),
    ("offset", Zod.default (Zod.coerceNumber H
      [Zod.int, Zod.nonnegative "offset must be 0 or greater"]) (.number (.finite 0)))]

def listLinksQuerySchema (H : Host) : Schema :=
  Zod.object .strip (listLinksQueryShape H)

def DEFAULT_STATS_DAYS : Int := 30

def linkStatsQuerySchema (H : Host) : Schema :=
  Zod.object .strip [
    ("days", Zod.default (Zod.coerceNumber H
      [Zod.int, Zod.positive "days must be a positive integer"])
      (.number (.finite DEFAULT_STATS_DAYS)))]

def shortCodeParamSchema : Schema :=
  Zod.object .strip [("shortCode", Zod.string [Zod.min 1, Zod.max MAX_ALIAS_LENGTH])]

def unlockBodySchema : Schema :=
  Zod.object .strict [("password", Zod.string [Zod.min 1])]

/-- The schemas the routers validate with. -/
inductive RouteSchema : Type
  | signup
  | login
  | googleCallbackQuery
  | createLink
  | updateLink
  | listLinksQuery
  | linkStatsQuery
  | idParam
  | shortCodeParam
  | unlockBody
deriving DecidableEq, Repr

def RouteSchema.schema (H : Host) : RouteSchema → Schema
  | .signup => signupSchema H
  | .login => loginSchema H
  | .googleCallbackQuery => googleCallbackQuerySchema
  | .createLink => createLinkSchema H
  | .updateLink => updateLinkSchema H
  | .listLinksQuery => listLinksQuerySchema H
  | .linkStatsQuery => linkStatsQuerySchema H
  | .idParam => idParamSchema H
  | .shortCodeParam => shortCodeParamSchema
  | .unlockBody => unlockBodySchema

theorem createLinkShape_nodup (H : Host) : ((createLinkShape H).map (·.1)).Nodup := by
  simp [createLinkShape]

theorem updateLinkShape_nodup (H : Host) : ((updateLinkShape H).map (·.1)).Nodup := by
  simp [updateLinkShape]

theorem listLinksQueryShape_nodup (H : Host) : ((listLinksQueryShape H).map (·.1)).Nodup := by
  simp [listLinksQueryShape]

/-- The part of a request a validator reads. -/
inductive ValidationTarget : Type
  | body
  | query
  | params
deriving DecidableEq, Repr

def ValidationTarget.name : ValidationTarget → String
  | .body => "body"
  | .query => "query"
  | .params => "params"

/-- One entry of the error's details: where the issue is, and its message. -/
def detailOf (target : ValidationTarget) (i : Issue) : String × String :=
  let field := String.intercalate "." i.path
  (if field = "" then target.name else field, i.message)

/-- What `makeValidator` makes of a part of a request: what it leaves in
    `req.validated`, or the error it fails the request with. -/
def validated (schema : Schema) (target : ValidationTarget) (now : Nat) (raw : JsValue) :
    Except Err JsValue :=
  match safeParse schema now raw with
  | none => .error .typeError
  | some (.failure issues) =>
      .error (.app (badRequest "Validation failed" (some (issues.map (detailOf target)))))
  | some (.success data) => .ok data

/-- The validating middleware. -/
def makeValidator (schema : Schema) (target : ValidationTarget) (raw : JsValue) : Api JsValue := do
  let now ← dateNow
  match validated schema target now raw with
  | .error e => .throw e
  | .ok data => pure data

def validateBody (schema : Schema) : JsValue → Api JsValue := makeValidator schema .body

def validateQuery (schema : Schema) : JsValue → Api JsValue := makeValidator schema .query

def validateParams (schema : Schema) : JsValue → Api JsValue := makeValidator schema .params

/-- What `schema.parse` makes of what the middleware left. -/
def parsed (schema : Schema) (now : Nat) (data : JsValue) : Except Err JsValue :=
  match safeParse schema now data with
  | none => .error .typeError
  | some (.failure issues) => .error (.zodError issues)
  | some (.success out) => .ok out

/-- `schema.parse` in a handler. -/
def parse (schema : Schema) (data : JsValue) : Api JsValue := do
  let now ← dateNow
  match parsed schema now data with
  | .error e => .throw e
  | .ok out => pure out

end ClickScope
