import ClickScope.Core.LinkService
import ClickScope.Core.Tokens
import ClickScope.Core.Text

/-!
# Accounts and the OAuth Flow

The account functions, the OAuth state store, and the two Google routes.

`signup`, `login` and `findOrCreateOAuthUser` each look an account up and may
insert one, in separate statements; what happens to a lost race is decided in
the handler around the insert. `recoverInsert` is that handler for the OAuth
case: it looks the identity up again, and only reports a conflict when it
still is not there.

The callback route is given the query parameters it validated. Nothing else
of the request reaches it: the `browser` of a `GoogleRequest` is recorded for
statements about runs, and no program reads it.

## Main definitions

* `signup`, `login`, `findOrCreateOAuthUser`: Accounts and their tokens.
* `storeState`, `consumeState`: The single-use OAuth states.
* `exchangeCodeForIdentity`: Google's answer to an authorization code.
* `googleStart`, `googleCallback`: The two routes of the flow.
-/

namespace ClickScope

open Async

def INVALID_CREDENTIALS_MESSAGE : String := "Invalid email or password"

def ACCOUNT_EXISTS_MESSAGE : String := "An account with this email already exists"

def SIGN_IN_WITH_PASSWORD_MESSAGE : String :=
  "An account with this email already exists — sign in with your password"

/-- What the account functions return. -/
structure Session where
  user : AuthUser
  token : String
deriving DecidableEq, Repr

/-- A hash made once at startup, for comparisons that must fail anyway. -/
def DUMMY_PASSWORD_HASH (P : Platform) : String :=
  P.bcrypt.hash "dummy-password-for-timing-safety-only" P.dummySalt

def verifyAgainstDummyHash (P : Platform) (plain : String) : Api Bool :=
  verifyPassword plain (DUMMY_PASSWORD_HASH P)

/-- `{ user, token: signToken(user.id) }` -/
def sessionFor (P : Platform) (row : UserRow) : Api Session := do
  let user := toAuthUser row
  let token ← signToken P user.id
  pure { user := user, token := token }

/-- The insert statement of an account, with its returned row. -/
def insertAccount (u : NewUser) : Api UserRow := do
  let rows ← query (.insertUser u)
  match rows.head? with
  | none => .throw (.error "Insert returned no row")
  | some inserted => pure inserted

def signup (P : Platform) (email password : String) : Api Session := do
  let existing ← query (.userIdByEmail email)
  match existing.head? with
  | some _ => .throw (.app (conflict ACCOUNT_EXISTS_MESSAGE))
  | none => do
      let passwordHash ← hashPassword password
      let row ← (insertAccount
        { email := email, passwordHash := some passwordHash, oauthProvider := none,
          oauthId := none, emailVerified := false }).tryCatch
        (fun err => if err.isUniqueViolation then .throw (.app (conflict ACCOUNT_EXISTS_MESSAGE))
          else .throw err)
      sessionFor P row

def login (P : Platform) (email password : String) : Api Session := do
  let rows ← query (.userByEmail email)
  match rows.head? with
  | none => do
      let _ ← verifyAgainstDummyHash P password
      .throw (.app (unauthorized INVALID_CREDENTIALS_MESSAGE))
  | some row =>
      match row.passwordHash with
      | none => do
          let _ ← verifyAgainstDummyHash P password
          .throw (.app (unauthorized INVALID_CREDENTIALS_MESSAGE))
      | some passwordHash => do
          let passwordMatches ← verifyPassword password passwordHash
          if passwordMatches then sessionFor P row
          else .throw (.app (unauthorized INVALID_CREDENTIALS_MESSAGE))

/-- The handler around the OAuth insert: after a unique violation, the row
    that now holds the identity, or a conflict if none does. -/
def recoverInsert (provider oauthId : String) (err : Err) : Api UserRow :=
  if err.isUniqueViolation then do
    let retry ← query (.userByOAuth provider oauthId)
    match retry.head? with
    | some retryRow => pure retryRow
    | none => .throw (.app (conflict SIGN_IN_WITH_PASSWORD_MESSAGE))
  else .throw err

/-- The part of `findOrCreateOAuthUser` after the identity was not found. -/
def createOAuthUser (P : Platform) (provider oauthId email : String) (emailVerified : Bool) :
    Api Session := do
  let existingPassword ← query (.userIdByEmail email)
  match existingPassword.head? with
  | some _ => .throw (.app (conflict SIGN_IN_WITH_PASSWORD_MESSAGE))
  | none => do
      let row ← (insertAccount
        { email := email, passwordHash := none, oauthProvider := some provider,
          oauthId := some oauthId, emailVerified := emailVerified }).tryCatch
        (recoverInsert provider oauthId)
      sessionFor P row

def findOrCreateOAuthUser (P : Platform) (provider oauthId email : String)
    (emailVerified : Bool) : Api Session :=
  if emailVerified then do
    let existingOAuth ← query (.userByOAuth provider oauthId)
    match existingOAuth.head? with
    | some oauthRow => sessionFor P oauthRow
    | none => createOAuthUser P provider oauthId email emailVerified
  else .throw (.app (badRequest "Google account email is not verified"))

/-- The account a token names, or none. An absent id matches no row. -/
def getUserById (id : String) : Api (Option AuthUser) := do
  let rows ← query (.userById id)
  pure (rows.head?.map toAuthUser)

def STATE_TTL_SECONDS : Nat := 600

def STATE_KEY_PREFIX : String := "oauth:state:"

def stateKey (state : String) : String := STATE_KEY_PREFIX ++ state

theorem stateKey_inj {a b : String} (h : stateKey a = stateKey b) : a = b := by
  have hlist := congrArg String.toList h
  simp only [stateKey, String.toList_append, List.append_cancel_left_eq] at hlist
  exact String.toList_injective hlist

/-- States and cached links are kept under different keys. -/
theorem stateKey_ne_linkCacheKey (state shortCode : String) :
    stateKey state ≠ linkCacheKey shortCode := by
  intro h
  have hlist := congrArg (fun s => s.toList.head?) h
  have hstate : STATE_KEY_PREFIX.toList.head? = some 'o' := by decide
  have hlink : LINK_CACHE_PREFIX.toList.head? = some 'l' := by decide
  simp only [stateKey, linkCacheKey, String.toList_append, List.head?_append, hstate, hlink,
    Option.some_or, Option.some.injEq] at hlist
  exact absurd hlist (by decide)

def generateState : Api String := .await .randomState .ret

def storeState (state : String) : Api Unit :=
  redis (.set (stateKey state) .one STATE_TTL_SECONDS)

/-- Whether the state was there. Reading it removes it. -/
def consumeState (state : String) : Api Bool := do
  let value ← redis (.getdel (stateKey state))
  pure value.isSome

/-- `client.getToken(code)`; a failed call is thrown. -/
def getToken (code : String) : Api (Option String) :=
  .await (.getToken code) (fun r => match r with
    | .ok idToken => .ret idToken
    | .error _ => .throw .google)

/-- `client.verifyIdToken(...)` with the ticket's payload; a failed call is thrown. -/
def verifyIdToken (idToken : String) : Api (Option IdTokenPayload) :=
  .await (.verifyIdToken idToken) (fun r => match r with
    | .ok payload => .ret payload
    | .error _ => .throw .google)

/-- The identity of a token payload; both of its claims are required. -/
def identityOf (payload : Option IdTokenPayload) : Option GoogleIdentity :=
  match payload with
  | none => none
  | some p =>
      match truthy p.sub, truthy p.email with
      | some sub, some email =>
          some { googleId := sub, email := email, emailVerified := p.emailVerified.getD false }
      | _, _ => none

def exchangeCodeForIdentity (code : String) : Api GoogleIdentity := do
  let idToken ← getToken code
  match truthy idToken with
  | none => .throw (.app (badRequest "Google did not return an identity token"))
  | some idToken => do
      let payload ← verifyIdToken idToken
      match identityOf payload with
      | none => .throw (.app (badRequest "Google identity token is missing required claims"))
      | some identity => pure identity

/-- The validated query of a callback, and the browser that made it. -/
structure GoogleRequest where
  browser : Nat
  state : String
  code : Option String
  error : Option String
deriving DecidableEq, Repr

/-- The answers of the two Google routes, all of them redirects. -/
inductive GoogleReply : Type
  /-- To the consent screen, with the state. -/
  | consent (state : String)
  /-- Back to the frontend after a denial. -/
  | denied (location : String)
  /-- Back to the frontend with a session token in the fragment. -/
  | loggedIn (location token : String)
deriving DecidableEq, Repr

/-- `GET /google` -/
def googleStart : Api GoogleReply := do
  let state ← generateState
  storeState state
  pure (.consent state)

/-- Where a login ends: the frontend, with the token in the fragment. -/
def loginLocation (P : Platform) (token : String) : String :=
  P.frontendUrl ++ "#token=" ++ String.ofList (encodeURIComponent token.toList)

/-- The callback once its state was accepted. -/
def acceptCallback (P : Platform) (req : GoogleRequest) : Api GoogleReply :=
  match truthy req.error with
  | some _ => pure (.denied (P.frontendUrl ++ "?error=oauth_denied"))
  | none =>
      match truthy req.code with
      | none => .throw (.app (badRequest "Missing authorization code"))
      | some code => do
          let identity ← exchangeCodeForIdentity code
          let session ← findOrCreateOAuthUser P "google" identity.googleId identity.email
            identity.emailVerified
          pure (.loggedIn (loginLocation P session.token) session.token)

/-- `GET /google/callback` -/
def googleCallback (P : Platform) (req : GoogleRequest) : Api GoogleReply := do
  let stateValid ← consumeState req.state
  if stateValid then acceptCallback P req
  else .throw (.app (badRequest "Invalid or expired OAuth state"))

end ClickScope
