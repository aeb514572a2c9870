import ClickScope.Core.Tokens
import Mathlib.Data.Set.Basic

/-!
# Session and Unlock Tokens Are Not Interchangeable, In One Direction

Whether a token of one family passes the check of the other.

A run mints tokens of both families under one secret, and the library's
contract says no more than that a minted token verifies until it expires. So
each of the two checks has to tell the families apart by itself. The unlock
check does: a session token has no `typ`. The bearer check does not: it takes
`sub` from any verifying payload, an unlock token has no `sub`, and the request
goes on with an absent user id.

`requireAuth_sound_iff` is the exact extent of this. The bearer check is sound
for a header precisely when the header does not carry an unexpired unlock
token.

## Main definitions

* `Mint`, `Mint.token`: A token the service minted.
* `Unforged`: A header carries no verifying token but a minted one.
* `AuthSound`: What the two checks are meant to guarantee.
* `CarriesUnlock`: A header carries an unexpired unlock token.

## Theorems

* `verifyToken_session`, `verifyToken_unlock`: Both families verify.
* `verifyUnlockToken_session`: The unlock check rejects session tokens.
* `requireAuth_unlock`: The bearer check lets unlock tokens through.
* `requireAuth_sound_iff`: When the bearer check is sound.
-/

namespace ClickScope

/-- A token minted by `signToken` or by `signUnlockToken`, with the second it
    was minted at. -/
inductive Mint : Type
  | session (userId : String) (iat : Int)
  | unlock (linkId : String) (iat : Int)
deriving DecidableEq, Repr

def Mint.token (P : Platform) : Mint → String
  | .session userId iat => sessionToken P userId iat
  | .unlock linkId iat => unlockToken P linkId iat

/-- The bearer token of the header, if it ever verifies, is a minted one. -/
def Unforged (P : Platform) (minted : Set Mint) (header : Option String) : Prop :=
  ∀ token now payload, bearerToken header = some token →
    P.jwt.verify now token = .ok payload → ∃ m ∈ minted, m.token P = token

/-- What the two checks are meant to guarantee for a request: the bearer check
    passes only an unexpired session token and leaves its user, every minted
    unlock token is answered with 401, and no session token passes the unlock
    check. -/
def AuthSound (P : Platform) (minted : Set Mint) (now : Int) (header : Option String) : Prop :=
  (∀ userId, requireAuth P now header = .ok userId →
    ∃ u iat, Mint.session u iat ∈ minted ∧ bearerToken header = some (sessionToken P u iat) ∧
      now < iat + P.jwtExpiresIn ∧ userId = some (.str u)) ∧
  (∀ l iat, Mint.unlock l iat ∈ minted → bearerToken header = some (unlockToken P l iat) →
    ∃ e, requireAuth P now header = .error e ∧ e.statusCode = 401) ∧
  (∀ u iat, Mint.session u iat ∈ minted → verifyUnlockToken P now (sessionToken P u iat) = none)

/-- The header carries a minted unlock token that has not expired. -/
def CarriesUnlock (P : Platform) (minted : Set Mint) (now : Int) (header : Option String) : Prop :=
  ∃ l iat, Mint.unlock l iat ∈ minted ∧ bearerToken header = some (unlockToken P l iat) ∧
    now < iat + UNLOCK_TOKEN_TTL

theorem verifyToken_session (P : Platform) (u : String) (iat now : Int) :
    verifyToken P now (sessionToken P u iat) = if iat + P.jwtExpiresIn ≤ now then
      .error .expired else .ok (stamped (sessionClaims u) iat P.jwtExpiresIn) :=
  verify_issue P.jwt (sessionClaims u) iat P.jwtExpiresIn now

theorem verifyToken_unlock (P : Platform) (l : String) (iat now : Int) :
    verifyToken P now (unlockToken P l iat) = if iat + UNLOCK_TOKEN_TTL ≤ now then
      .error .expired else .ok (stamped (unlockClaims l) iat UNLOCK_TOKEN_TTL) :=
  verify_issue P.jwt (unlockClaims l) iat UNLOCK_TOKEN_TTL now

/-- A session payload has no discriminator, so the unlock check rejects it,
    expired or not, whatever lifetime it was issued with. -/
theorem verifyUnlockToken_session (P : Platform) (u : String) (iat ttl now : Int) :
    verifyUnlockToken P now (P.jwt.issue (sessionClaims u) iat ttl) = none := by
  have h := verify_issue P.jwt (sessionClaims u) iat ttl now
  unfold verifyUnlockToken
  rw [h]
  by_cases hexp : iat + ttl ≤ now
  · rw [if_pos hexp]
  · rw [if_neg hexp]
    have htyp : (stamped (sessionClaims u) iat ttl).claim "typ" = none := by
      rw [stamped_claim _ _ _ _ (by decide) (by decide)]
      rfl
    simp only [htyp, ne_eq, reduceCtorEq, not_false_eq_true, if_true]

/-- The unlock check reads the link id back out of a grant until it expires. -/
theorem verifyUnlockToken_unlock (P : Platform) (l : String) (iat now : Int) :
    verifyUnlockToken P now (unlockToken P l iat)
      = if iat + UNLOCK_TOKEN_TTL ≤ now then none else some l := by
  have h := verify_issue P.jwt (unlockClaims l) iat UNLOCK_TOKEN_TTL now
  unfold verifyUnlockToken unlockToken
  rw [h]
  by_cases hexp : iat + UNLOCK_TOKEN_TTL ≤ now
  · rw [if_pos hexp, if_pos hexp]
  · rw [if_neg hexp, if_neg hexp]
    have htyp : (stamped (unlockClaims l) iat UNLOCK_TOKEN_TTL).claim "typ"
        = some (.str UNLOCK_TOKEN_TYPE) := by
      rw [stamped_claim _ _ _ _ (by decide) (by decide)]
      rfl
    have hlink : (stamped (unlockClaims l) iat UNLOCK_TOKEN_TTL).claim "linkId"
        = some (.str l) := by
      rw [stamped_claim _ _ _ _ (by decide) (by decide)]
      rfl
    simp only [htyp, hlink, ne_eq, not_true_eq_false, if_false]

/-- The bearer check accepts an unexpired unlock token and leaves no user id. -/
theorem requireAuth_unlock (P : Platform) (l : String) (iat now : Int) (header : Option String)
    (hb : bearerToken header = some (unlockToken P l iat)) (hexp : now < iat + UNLOCK_TOKEN_TTL) :
    requireAuth P now header = .ok none := by
  unfold requireAuth
  simp only [hb, verifyToken_unlock, if_neg (show ¬ iat + UNLOCK_TOKEN_TTL ≤ now by omega)]
  rw [stamped_claim _ _ _ _ (by decide) (by decide)]
  rfl

/-- A bearer token whose verification fails is answered with 401. -/
theorem requireAuth_error (P : Platform) (now : Int) (header : Option String) (token : String)
    (err : JwtError) (hb : bearerToken header = some token)
    (hv : verifyToken P now token = .error err) :
    requireAuth P now header = .error (unauthorized "Invalid or expired token") := by
  unfold requireAuth
  simp only [hb, hv]

/-- Passing the bearer check means some token verified. -/
theorem requireAuth_ok (P : Platform) (now : Int) (header : Option String)
    (userId : Option ClaimValue) (h : requireAuth P now header = .ok userId) :
    ∃ token payload, bearerToken header = some token ∧ verifyToken P now token = .ok payload ∧
      userId = payload.claim "sub" := by
  unfold requireAuth at h
  rcases hb : bearerToken header with _ | token
  · simp only [hb, reduceCtorEq] at h
  · rcases hv : verifyToken P now token with err | payload
    · simp only [hb, hv, reduceCtorEq] at h
    · simp only [hb, hv, Except.ok.injEq] at h
      exact ⟨token, payload, rfl, hv, h.symm⟩

/-- The bearer check is sound for a header exactly when the header does not
    carry an unexpired unlock token. -/
theorem requireAuth_sound_iff (P : Platform) (minted : Set Mint) (now : Int)
    (header : Option String) (hun : Unforged P minted header) :
    AuthSound P minted now header ↔ ¬ CarriesUnlock P minted now header := by
  constructor
  · rintro ⟨_, hunlock, _⟩ ⟨l, iat, hmem, hb, hexp⟩
    rcases hunlock l iat hmem hb with ⟨e, he, _⟩
    rw [requireAuth_unlock P l iat now header hb hexp] at he
    exact absurd he (by simp only [reduceCtorEq, not_false_eq_true])
  · intro hno
    refine ⟨fun userId hok => ?_, fun l iat hmem hb => ?_,
      fun u iat _ => verifyUnlockToken_session P u iat _ now⟩
    · rcases requireAuth_ok P now header userId hok with ⟨token, payload, hb, hv, hsub⟩
      rcases hun token now payload hb hv with ⟨m, hm, rfl⟩
      cases m with
      | session u iat =>
          -- A verifying session token is unexpired and carries its user.
          rw [show Mint.token P (.session u iat) = sessionToken P u iat from rfl,
            verifyToken_session] at hv
          by_cases hexp : iat + P.jwtExpiresIn ≤ now
          · rw [if_pos hexp] at hv
            exact absurd hv (by simp only [reduceCtorEq, not_false_eq_true])
          · rw [if_neg hexp, Except.ok.injEq] at hv
            refine ⟨u, iat, hm, hb, by omega, ?_⟩
            rw [hsub, ← hv, stamped_claim _ _ _ _ (by decide) (by decide)]
            rfl
      | unlock l iat =>
          -- A verifying unlock token is what the header must not carry.
          rw [show Mint.token P (.unlock l iat) = unlockToken P l iat from rfl,
            verifyToken_unlock] at hv
          by_cases hexp : iat + UNLOCK_TOKEN_TTL ≤ now
          · rw [if_pos hexp] at hv
            exact absurd hv (by simp only [reduceCtorEq, not_false_eq_true])
          · exact absurd ⟨l, iat, hm, hb, by omega⟩ hno
    · have hexp : iat + UNLOCK_TOKEN_TTL ≤ now := by
        by_contra hlt
        exact hno ⟨l, iat, hmem, hb, by omega⟩
      refine ⟨_, requireAuth_error P now header _ .expired hb ?_, rfl⟩
      rw [verifyToken_unlock, if_pos hexp]

/-- The header a client sends for a token. -/
def bearerHeader (token : String) : Option String := some (BEARER_PREFIX ++ token)

theorem bearerToken_bearerHeader (token : String) :
    bearerToken (bearerHeader token) = some token := by
  unfold bearerToken bearerHeader afterPrefix
  have hpre : BEARER_PREFIX.toList.isPrefixOf (BEARER_PREFIX.toList ++ token.toList) = true := by
    rw [List.isPrefixOf_iff_prefix]
    exact List.prefix_append _ _
  simp only [Option.bind_some, String.toList_append, hpre, if_true, List.drop_left,
    String.ofList_toList]

/-- A header that carries a minted token is unforged. -/
theorem unforged_bearerHeader (P : Platform) (m : Mint) :
    Unforged P {m} (bearerHeader (m.token P)) := by
  intro token now payload hb _
  rw [bearerToken_bearerHeader, Option.some.injEq] at hb
  exact ⟨m, rfl, hb⟩

/-- A user's own session token, sent in the second it was minted. -/
theorem requireAuth_sound_session :
    Unforged samplePlatform {.session "u" 0} (bearerHeader (sessionToken samplePlatform "u" 0)) ∧
    (AuthSound samplePlatform {.session "u" 0} 0
      (bearerHeader (sessionToken samplePlatform "u" 0)) ↔
    ¬ CarriesUnlock samplePlatform {.session "u" 0} 0
      (bearerHeader (sessionToken samplePlatform "u" 0))) :=
  ⟨unforged_bearerHeader samplePlatform (.session "u" 0),
    requireAuth_sound_iff samplePlatform {.session "u" 0} 0
      (bearerHeader (sessionToken samplePlatform "u" 0))
      (unforged_bearerHeader samplePlatform (.session "u" 0))⟩

/-- A visitor's unlock token, sent as a bearer token in the second it was
    minted, passes the bearer check. -/
theorem unlock_token_passes_requireAuth :
    Unforged samplePlatform {.unlock "l" 0} (bearerHeader (unlockToken samplePlatform "l" 0)) ∧
    requireAuth samplePlatform 0 (bearerHeader (unlockToken samplePlatform "l" 0)) = .ok none ∧
    ¬ AuthSound samplePlatform {.unlock "l" 0} 0
      (bearerHeader (unlockToken samplePlatform "l" 0)) := by
  have hb := bearerToken_bearerHeader (unlockToken samplePlatform "l" 0)
  have hpass := requireAuth_unlock samplePlatform "l" 0 0 _ hb (by decide)
  refine ⟨unforged_bearerHeader samplePlatform (.unlock "l" 0), hpass, fun hsound => ?_⟩
  rcases hsound.2.1 "l" 0 rfl hb with ⟨e, he, _⟩
  rw [hpass] at he
  exact absurd he (by simp only [reduceCtorEq, not_false_eq_true])

end ClickScope
