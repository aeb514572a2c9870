import ClickScope.Core.World

/-!
# Session and Unlock Tokens

The two token families, their checks, and the bearer middleware.

Both families are signed with the one secret. A session token names a user as
`sub`; an unlock token names a link as `linkId` and carries the discriminator
`typ`. `verifyToken` looks only at signature and expiry, `verifyUnlockToken`
at the discriminator and the type of `linkId` as well, and `requireAuth` takes
`sub` from whatever `verifyToken` accepted.

`requireAuth` is a synchronous function of the header and the clock. Its
result is what it leaves in `req.userId` when it calls `next()`, where an
absent claim is `none`, or the error it passes to `next(err)`.

## Main definitions

* `signToken`, `verifyToken`: Session tokens.
* `signUnlockToken`, `verifyUnlockToken`: Unlock tokens.
* `requireAuth`: The bearer middleware.
-/

namespace ClickScope

/-- The claims `signToken` hands to `jwt.sign`, through `subject`. -/
def sessionClaims (userId : String) : JwtPayload := [("sub", .str userId)]

/-- `UNLOCK_TOKEN_TTL`, which is `'30m'`, in seconds. -/
def UNLOCK_TOKEN_TTL : Int := 1800

def UNLOCK_TOKEN_TYPE : String := "link_unlock"

/-- The claims `signUnlockToken` hands to `jwt.sign`. -/
def unlockClaims (linkId : String) : JwtPayload :=
  [("linkId", .str linkId), ("typ", .str UNLOCK_TOKEN_TYPE)]

/-- The session token issued for a user at a second of the clock. -/
def sessionToken (P : Platform) (userId : String) (iat : Int) : String :=
  P.jwt.issue (sessionClaims userId) iat P.jwtExpiresIn

/-- The unlock token issued for a link at a second of the clock. -/
def unlockToken (P : Platform) (linkId : String) (iat : Int) : String :=
  P.jwt.issue (unlockClaims linkId) iat UNLOCK_TOKEN_TTL

def signToken (P : Platform) (userId : String) : Api String :=
  jwtSign (sessionClaims userId) P.jwtExpiresIn

def signUnlockToken (linkId : String) : Api String :=
  jwtSign (unlockClaims linkId) UNLOCK_TOKEN_TTL

/-- The payload, or whether it was the expiry that failed. -/
def verifyToken (P : Platform) (now : Int) (token : String) : Except JwtError JwtPayload :=
  P.jwt.verify now token

/-- The link id of a valid grant. -/
def verifyUnlockToken (P : Platform) (now : Int) (token : String) : Option String :=
  match P.jwt.verify now token with
  | .error _ => none
  | .ok payload =>
      if payload.claim "typ" ≠ some (.str UNLOCK_TOKEN_TYPE) then none
      else
        match payload.claim "linkId" with
        | some (.str linkId) => some linkId
        | _ => none

def BEARER_PREFIX : String := "Bearer "

/-- `header.startsWith(prefix)` with what follows the prefix. -/
def afterPrefix (pre header : String) : Option String :=
  if pre.toList.isPrefixOf header.toList then
    some (String.ofList (header.toList.drop pre.toList.length))
  else none

/-- The bearer token of an Authorization header, if it has one. -/
def bearerToken (header : Option String) : Option String :=
  header.bind (afterPrefix BEARER_PREFIX)

/-- The bearer middleware: the claim it leaves in `req.userId`, or the error
    it fails the request with. -/
def requireAuth (P : Platform) (now : Int) (header : Option String) :
    Except AppError (Option ClaimValue) :=
  match bearerToken header with
  | none => .error (unauthorized "Missing or invalid Authorization header")
  | some token =>
      match verifyToken P now token with
      | .error _ => .error (unauthorized "Invalid or expired token")
      | .ok payload => .ok (payload.claim "sub")

end ClickScope
