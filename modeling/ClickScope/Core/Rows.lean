import Mathlib.Data.Option.Basic

/-!
# Rows and Records

The columns of the three tables, and the records the services build from
them.

Instants are milliseconds since the epoch. Identifiers are the text Postgres
prints for a `uuid`, since that is what the services compare and put into
tokens. A nullable column is an `Option`.

`RedirectLink` is a record of its own rather than a `Link`: it is the one
shape that carries the password hash, and `Link` has no field that could.

## Main definitions

* `UserRow`, `LinkRow`, `ClickRow`: The tables' columns.
* `Link`, `RedirectLink`, `AuthUser`: What the services return.
* `toLink`, `toRedirectLink`, `toAuthUser`: The column mappings.
-/

namespace ClickScope

/-- A row of `users`. -/
structure UserRow where
  id : String
  email : String
  passwordHash : Option String
  oauthProvider : Option String
  oauthId : Option String
  emailVerified : Bool
  createdAt : Nat
  updatedAt : Nat
deriving DecidableEq, Repr

/-- A row of `links`. -/
structure LinkRow where
  id : String
  userId : String
  shortCode : String
  destinationUrl : String
  passwordHash : Option String
  expiresAt : Option Int
  maxClicks : Option Int
  clickCount : Nat
  isActive : Bool
  createdAt : Nat
  updatedAt : Nat
deriving DecidableEq, Repr

/-- A row of `clicks`. -/
structure ClickRow where
  id : String
  linkId : String
  clickedAt : Nat
  referrer : Option String
  userAgent : Option String
  jobId : String
deriving DecidableEq, Repr

/-- The payload of one click job, shared by the producer and the worker. -/
structure ClickJobData where
  clickId : String
  linkId : String
  shortCode : String
  referrer : Option String
  userAgent : Option String
deriving DecidableEq, Repr

/-- The user shape returned to callers. It has no field for a hash. -/
structure AuthUser where
  id : String
  email : String
  emailVerified : Bool
  createdAt : Nat
  updatedAt : Nat
deriving DecidableEq, Repr

def toAuthUser (row : UserRow) : AuthUser :=
  { id := row.id, email := row.email, emailVerified := row.emailVerified,
    createdAt := row.createdAt, updatedAt := row.updatedAt }

/-- The link shape returned to its owner. `isPasswordProtected` is derived in
    SQL, so the hash itself is never selected. -/
structure Link where
  id : String
  userId : String
  shortCode : String
  destinationUrl : String
  expiresAt : Option Int
  maxClicks : Option Int
  clickCount : Nat
  isActive : Bool
  isPasswordProtected : Bool
  createdAt : Nat
  updatedAt : Nat
deriving DecidableEq, Repr

def toLink (row : LinkRow) : Link :=
  { id := row.id, userId := row.userId, shortCode := row.shortCode,
    destinationUrl := row.destinationUrl, expiresAt := row.expiresAt,
    maxClicks := row.maxClicks, clickCount := row.clickCount, isActive := row.isActive,
    isPasswordProtected := row.passwordHash.isSome, createdAt := row.createdAt,
    updatedAt := row.updatedAt }

/-- The link shape of the public redirect, and of the cache. -/
structure RedirectLink where
  id : String
  destinationUrl : String
  passwordHash : Option String
  expiresAt : Option Int
  maxClicks : Option Int
  clickCount : Nat
  isActive : Bool
deriving DecidableEq, Repr

def toRedirectLink (row : LinkRow) : RedirectLink :=
  { id := row.id, destinationUrl := row.destinationUrl, passwordHash := row.passwordHash,
    expiresAt := row.expiresAt, maxClicks := row.maxClicks, clickCount := row.clickCount,
    isActive := row.isActive }

structure CreateLinkInput where
  destinationUrl : String
  customAlias : Option String
  expiresAt : Option Int
  maxClicks : Option Int
  password : Option String
deriving DecidableEq, Repr

/-- A partial update. The outer `Option` is whether the key is present; for a
    nullable field the inner one is its value, `some none` clearing it. -/
structure UpdateLinkInput where
  destinationUrl : Option String
  expiresAt : Option (Option Int)
  maxClicks : Option (Option Int)
  isActive : Option Bool
  password : Option (Option String)
deriving DecidableEq, Repr

structure ListLinksOptions where
  limit : Int
  offset : Int
deriving DecidableEq, Repr

structure ListLinksResult where
  links : List Link
  total : Nat
deriving DecidableEq, Repr

/-- One day's clicks, under the label of the day. -/
structure LinkClickStats where
  day : String
  clicks : Nat
deriving DecidableEq, Repr

/-- The identity read out of a verified Google token. -/
structure GoogleIdentity where
  googleId : String
  email : String
  emailVerified : Bool
deriving DecidableEq, Repr

end ClickScope
