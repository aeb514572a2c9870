import ClickScope.Core.World
import ClickScope.Iso.Instant

/-!
# The Link Service

The functions of the link service, and the cache in front of the redirect
lookup.

Each function is the program of its queries and Redis commands, in the order
the code awaits them. Every Redis command of the cache is wrapped in a handler
that swallows the failure, so an unreachable Redis costs a cached answer and
nothing else. The logging beside it is left out.

`customAlias` and `password` are tested for truthiness, so an empty string
counts as absent there; `truthy` is that test.

## Main definitions

* `getLinkByShortCode`: The redirect lookup, cache first.
* `createLink`: Create a link under an alias or a generated code.
* `listLinks`, `getLink`: Reading one's own links.
* `updateLink`: A partial update, assembled at run time.
* `deleteLink`, `getLinkClickStats`: Deleting, and daily click counts.
-/

namespace ClickScope

open Async

/-- How many times `createLink` retries a freshly generated code. -/
def MAX_GENERATION_ATTEMPTS : Nat := 5

def LINK_CACHE_PREFIX : String := "link:"

def LINK_CACHE_TTL_SECONDS : Nat := 300

/-- The lifetime of an entry for a link with a click cap. -/
def LINK_CACHE_CAPPED_TTL_SECONDS : Nat := 5

def LINK_CACHE_NEGATIVE_TTL_SECONDS : Nat := 30

def linkCacheKey (shortCode : String) : String := LINK_CACHE_PREFIX ++ shortCode

theorem linkCacheKey_inj {a b : String} (h : linkCacheKey a = linkCacheKey b) : a = b := by
  have hlist := congrArg String.toList h
  simp only [linkCacheKey, String.toList_append, List.append_cancel_left_eq] at hlist
  exact String.toList_injective hlist

/-- A string field that passes a truthiness test. -/
def truthy : Option String → Option String
  | none => none
  | some s => if s = "" then none else some s

/-- What passes the test is the string itself. -/
theorem truthy_some {s : Option String} {x : String} (h : truthy s = some x) : s = some x := by
  cases s with
  | none => cases h
  | some y =>
      simp only [truthy] at h
      by_cases hy : y = ""
      · rw [if_pos hy] at h
        cases h
      · rw [if_neg hy] at h
        exact h

def hashPassword (plain : String) : Api String := .await (.bcryptHash plain) .ret

def verifyPassword (plain hash : String) : Api Bool := .await (.bcryptCompare plain hash) .ret

def generateShortCode : Api String := .await .generateId .ret

/-- What a cache lookup found: nothing, or a link or a known miss. -/
inductive CachedLink : Type
  | notFound
  | found (link : Option RedirectLink)
deriving DecidableEq, Repr

/-- Read a raw cache value. A link key never holds a state's `one`. -/
def readCached : Option RedisValue → CachedLink
  | none => .notFound
  | some .missSentinel => .found none
  | some (.link l) => .found (some l)
  | some .one => .notFound

def getCachedLink (shortCode : String) : Api CachedLink :=
  (do
    let raw ← redis (.get (linkCacheKey shortCode))
    pure (readCached raw)).tryCatch (fun _ => .ret .notFound)

def setCachedLink (shortCode : String) (link : RedirectLink) (ttlSeconds : Nat) : Api Unit :=
  (redis (.set (linkCacheKey shortCode) (.link link) ttlSeconds)).tryCatch (fun _ => .ret ())

def setCachedMiss (shortCode : String) : Api Unit :=
  (redis (.set (linkCacheKey shortCode) .missSentinel LINK_CACHE_NEGATIVE_TTL_SECONDS)).tryCatch
    (fun _ => .ret ())

def invalidateLinkCache (shortCode : String) : Api Unit :=
  (redis (.del (linkCacheKey shortCode))).tryCatch (fun _ => .ret ())

/-- The lifetime of a cached link. -/
def linkTtl (link : RedirectLink) : Nat :=
  if link.maxClicks = none then LINK_CACHE_TTL_SECONDS else LINK_CACHE_CAPPED_TTL_SECONDS

/-- Cache the outcome of a lookup. -/
def fillCache (shortCode : String) : Option RedirectLink → Api Unit
  | none => setCachedMiss shortCode
  | some link => setCachedLink shortCode link (linkTtl link)

def getLinkByShortCode (shortCode : String) : Api (Option RedirectLink) := do
  let cached ← getCachedLink shortCode
  match cached with
  | .found link => pure link
  | .notFound => do
      let rows ← query (.redirectLookup shortCode)
      let link := rows.head?.map toRedirectLink
      fillCache shortCode link
      pure link

/-- The inserted row, or nothing if the short code was taken. -/
def insertLink (userId shortCode : String) (input : CreateLinkInput)
    (passwordHash : Option String) : Api (Option LinkRow) :=
  (do
    let rows ← query (.insertLink
      { userId := userId, shortCode := shortCode, destinationUrl := input.destinationUrl,
        passwordHash := passwordHash, expiresAt := input.expiresAt,
        maxClicks := input.maxClicks })
    match rows.head? with
    | none => .throw (.error "Insert returned no row")
    | some inserted => pure (some inserted)).tryCatch
      (fun err => if err.isUniqueViolation then .ret none else .throw err)

/-- The generation loop, with the attempts that are left. -/
def createGenerated (userId : String) (input : CreateLinkInput) (passwordHash : Option String) :
    Nat → Api Link
  | 0 => .throw (.app (internal "Failed to generate a unique short code after multiple attempts"))
  | attempts + 1 => do
      let shortCode ← generateShortCode
      let row ← insertLink userId shortCode input passwordHash
      match row with
      | some row => pure (toLink row)
      | none => createGenerated userId input passwordHash attempts

/-- The custom-alias branch of `createLink`. -/
def createAliased (userId customAlias : String) (input : CreateLinkInput)
    (passwordHash : Option String) : Api Link := do
  let existing ← query (.linkIdByCode customAlias)
  match existing.head? with
  | some _ => .throw (.app (conflict "This alias is already taken"))
  | none => do
      let row ← insertLink userId customAlias input passwordHash
      match row with
      | none => .throw (.app (conflict "This alias is already taken"))
      | some row => do
          invalidateLinkCache customAlias
          pure (toLink row)

/-- The hash of a password that is given, or none. -/
def hashGiven : Option String → Api (Option String)
  | none => pure none
  | some plain => do
      let hash ← hashPassword plain
      pure (some hash)

def createLink (userId : String) (input : CreateLinkInput) : Api Link := do
  let passwordHash ← hashGiven (truthy input.password)
  match truthy input.customAlias with
  | some customAlias => createAliased userId customAlias input passwordHash
  | none => createGenerated userId input passwordHash MAX_GENERATION_ATTEMPTS

/-- The two queries run in parallel; `countFirst` says which of them reaches
    the database first. -/
def listLinks (countFirst : Bool) (userId : String) (options : ListLinksOptions) :
    Api ListLinksResult :=
  if countFirst then do
    let total ← query (.countLinks userId)
    let rows ← query (.listLinks userId options.limit options.offset)
    pure { links := rows.map toLink, total := total }
  else do
    let rows ← query (.listLinks userId options.limit options.offset)
    let total ← query (.countLinks userId)
    pure { links := rows.map toLink, total := total }

def getLink (userId linkId : String) : Api (Option Link) := do
  let rows ← query (.linkById linkId userId)
  pure (rows.head?.map toLink)

/-- The `setClauses` and `values` a partial update has collected so far. -/
structure SetList where
  setClauses : List SetClause
  values : List SqlValue
deriving DecidableEq, Repr

/-- `values.push(v); setClauses.push(col = $n)`, if the field is present. -/
def SetList.push (col : LinkColumn) (v : Option SqlValue) (s : SetList) : SetList :=
  match v with
  | none => s
  | some v =>
      { setClauses := s.setClauses ++ [.param col (s.values.length + 1)],
        values := s.values ++ [v] }

/-- The set list of an input, with the password already hashed. -/
def setListOf (input : UpdateLinkInput) (passwordHash : Option (Option String)) : SetList :=
  ((((({ setClauses := [], values := [] } : SetList).push .destinationUrl
    (input.destinationUrl.map (fun u => .text (some u)))).push .expiresAt
    (input.expiresAt.map .timestamp)).push .maxClicks
    (input.maxClicks.map .integer)).push .isActive
    (input.isActive.map .boolean)).push .passwordHash
    (passwordHash.map .text)

/-- The hash of the password field: absent, cleared, or replaced. -/
def hashField : Option (Option String) → Api (Option (Option String))
  | none => pure none
  | some none => pure (some none)
  | some (some plain) => do
      let hash ← hashPassword plain
      pure (some (some hash))

/-- The end of `updateLink`, with the set list collected. An empty one leaves
    nothing to update, and the link is only read. -/
def sendUpdate (userId linkId : String) (s : SetList) : Api (Option Link) :=
  if s.setClauses.length = 0 then getLink userId linkId
  else do
    let values := s.values ++ [.uuid linkId, .account userId]
    let rows ← query (.updateLink (s.setClauses ++ [.updatedAtNow]) (values.length - 1)
      values.length values)
    match rows.head? with
    | none => pure none
    | some row => do
        invalidateLinkCache row.shortCode
        pure (some (toLink row))

def updateLink (userId linkId : String) (input : UpdateLinkInput) : Api (Option Link) := do
  let passwordHash ← hashField input.password
  sendUpdate userId linkId (setListOf input passwordHash)

/-- `day.toISOString().slice(0, 10)` -/
def dayLabel (day : Int) : String := String.ofList ((Iso.toISOString day).take 10)

def getLinkClickStats (userId linkId : String) (sinceDate : Int) :
    Api (Option (List LinkClickStats)) := do
  let link ← getLink userId linkId
  match link with
  | none => pure none
  | some _ => do
      let rows ← query (.clickStats linkId userId sinceDate)
      pure (some (rows.map (fun row => { day := dayLabel row.1, clicks := row.2 })))

def deleteLink (userId linkId : String) : Api Bool := do
  let rows ← query (.deleteLink linkId userId)
  match rows.head? with
  | none => pure false
  | some (_, shortCode) => do
      invalidateLinkCache shortCode
      pure true

end ClickScope
