import ClickScope.Core.App

/-!
# The Link Routes

The handlers that create, list and patch links, from the raw part of the
request on.

Each handler parses what its middleware validated once more, and builds the
input of the link service from it. A patch takes the values from the second
parse and, for the fields that can be null, their presence from the first:
`'expiresAt' in body` tells a null apart from a field that was left out.

The owner is the account `requireAuth` found; it and the rate limiter come
before the validation.

## Main definitions

* `createInput`, `updateInput`, `listOptions`: What a parsed request asks for.
* `postLink`, `getLinks`, `patchLink`: The handlers.
* `LinkRequest`: A request to one of them.
-/

namespace ClickScope

open Async Zod

/-- `value[key]`, of an object. -/
def fieldOf (v : JsValue) (key : String) : JsValue :=
  match v with
  | .object fields => get fields key
  | _ => .undefined

/-- `key in value`, of an object. -/
def hasField (v : JsValue) (key : String) : Bool :=
  match v with
  | .object fields => has fields key
  | _ => false

/-- A text, with none for `undefined` and for null. -/
def textOf : JsValue → Option String
  | .string s => some s
  | _ => none

def timeOf : JsValue → Option Int
  | .date time => time
  | _ => none

/-- An integer, which is what a number with an integer check is. -/
def intOf : JsValue → Option Int
  | .number n => n.toInt?
  | _ => none

def boolOf : JsValue → Option Bool
  | .boolean b => some b
  | _ => none

/-- The input of `createLink`. -/
def createInput (parsed : JsValue) : CreateLinkInput :=
  { destinationUrl := textField parsed "destinationUrl"
    customAlias := textOf (fieldOf parsed "customAlias")
    expiresAt := timeOf (fieldOf parsed "expiresAt")
    maxClicks := intOf (fieldOf parsed "maxClicks")
    password := textOf (fieldOf parsed "password") }

/-- The value of a field that is in the body, where `undefined` counts as null. -/
def presentIn {α : Type} (body : JsValue) (key : String) (value : Option α) : Option (Option α) :=
  if hasField body key then some value else none

/-- The input of `updateLink`. -/
def updateInput (body parsed : JsValue) : UpdateLinkInput :=
  { destinationUrl := textOf (fieldOf parsed "destinationUrl")
    expiresAt := presentIn body "expiresAt" (timeOf (fieldOf parsed "expiresAt"))
    maxClicks := presentIn body "maxClicks" (intOf (fieldOf parsed "maxClicks"))
    isActive := boolOf (fieldOf parsed "isActive")
    password := presentIn body "password" (textOf (fieldOf parsed "password")) }

/-- The options of `listLinks`. The limit is clamped. -/
def listOptions (parsed : JsValue) : ListLinksOptions :=
  { limit := min ((intOf (fieldOf parsed "limit")).getD 0) MAX_PAGE_SIZE
    offset := (intOf (fieldOf parsed "offset")).getD 0 }

/-- The body of a listing. -/
structure LinkPage where
  links : List Link
  total : Nat
  limit : Int
  offset : Int
  hasMore : Bool
deriving DecidableEq, Repr

def linkPage (options : ListLinksOptions) (result : ListLinksResult) : LinkPage :=
  { links := result.links, total := result.total, limit := options.limit,
    offset := options.offset,
    hasMore := decide (options.offset + result.links.length < result.total) }

/-- The body of an answer. -/
inductive LinkBody : Type
  | link (link : Link)
  | page (page : LinkPage)
deriving DecidableEq, Repr

/-- What a handler answers with. What it throws is answered elsewhere. -/
structure LinkReply where
  status : Nat
  body : LinkBody
deriving DecidableEq, Repr

/-- `POST /api/links` -/
def postLink (H : Host) (userId : String) (body : JsValue) : Api LinkReply := do
  let validBody ← validateBody (createLinkSchema H) body
  let parsed ← parse (createLinkSchema H) validBody
  let link ← createLink userId (createInput parsed)
  pure { status := 201, body := .link link }

/-- `GET /api/links` -/
def getLinks (H : Host) (countFirst : Bool) (userId : String) (rawQuery : JsValue) :
    Api LinkReply := do
  let validQuery ← validateQuery (listLinksQuerySchema H) rawQuery
  let parsed ← parse (listLinksQuerySchema H) validQuery
  let result ← listLinks countFirst userId (listOptions parsed)
  pure { status := 200, body := .page (linkPage (listOptions parsed) result) }

/-- The parameters of a link route. -/
def idParams (id : String) : JsValue := .object [("id", .string id)]

/-- `PATCH /api/links/:id` -/
def patchLink (H : Host) (userId id : String) (body : JsValue) : Api LinkReply := do
  let params ← validateParams (idParamSchema H) (idParams id)
  let validBody ← validateBody (updateLinkSchema H) body
  let parsedParams ← parse (idParamSchema H) params
  let parsed ← parse (updateLinkSchema H) validBody
  let link ← updateLink userId (textField parsedParams "id") (updateInput validBody parsed)
  match link with
  | none => .throw (.app (notFound "Link not found"))
  | some link => pure { status := 200, body := .link link }

/-- A request to one of the handlers, and the account it is made for. -/
inductive LinkRequest : Type
  | create (userId : String) (body : JsValue)
  | list (countFirst : Bool) (userId : String) (rawQuery : JsValue)
  | update (userId id : String) (body : JsValue)

def LinkRequest.handler (H : Host) : LinkRequest → Api LinkReply
  | .create userId body => postLink H userId body
  | .list countFirst userId rawQuery => getLinks H countFirst userId rawQuery
  | .update userId id body => patchLink H userId id body

end ClickScope
