import ClickScope.Core.System
import ClickScope.Theory.Statements

/-!
# What Each Call Can Perform

For every call, a bound on the operations its program can ever perform.

`Call.performs` lists them, with as much of their arguments as the code fixes.
`body_performs` proves the list right once, one lemma per function of the
services, so that a proof about some calls can dismiss all the others by
looking at the list.

## Main definitions

* `accountOp`, `issueOp`, `callbackOp`, `lookupOp`, `createOp`, `updateOp`, `workerOp`: The
  operations of each family of functions.
* `Call.performs`: The operations of a call.

## Theorems

* `body_performs`: Every operation of a program is one its call performs.
* `performs_ofWorker`, `performs_enqueue`: Operations of one kind of call only.
-/

namespace ClickScope

open Async

/-- The operations of the account functions. -/
def accountOp : Op → Prop
  | .db (.userIdByEmail _) => True
  | .db (.userByEmail _) => True
  | .db (.userByOAuth _ _) => True
  | .db (.insertUser _) => True
  | .db (.userById _) => True
  | .bcryptHash _ => True
  | .bcryptCompare _ _ => True
  | .jwtSign claims _ => ∃ userId, claims = sessionClaims userId
  | _ => False

/-- The operations of the route that starts a Google login. -/
def issueOp : Op → Prop
  | .randomState => True
  | .redis (.set key value _) => (∃ state, key = stateKey state) ∧ value = .one
  | _ => False

/-- The operations of a Google callback outside the account functions. -/
def callbackOp (state : String) : Op → Prop
  | .redis (.getdel key) => key = stateKey state
  | .getToken _ => True
  | .verifyIdToken _ => True
  | _ => False

/-- The operations of the cached lookup. -/
def lookupOp (shortCode : String) : Op → Prop
  | .redis (.get key) => key = linkCacheKey shortCode
  | .redis (.set key _ _) => key = linkCacheKey shortCode
  | .db (.redirectLookup code) => code = shortCode
  | _ => False

def hashOp : Op → Prop
  | .bcryptHash _ => True
  | _ => False

/-- The invalidation of a cached link. -/
def invalidateOp (op : Op) : Prop := ∃ shortCode, op = .redis (.del (linkCacheKey shortCode))

/-- The operations of a creation once the password is hashed. -/
def createOp (passwordHash : Option String) : Op → Prop
  | .db (.linkIdByCode _) => True
  | .db (.insertLink l) => l.passwordHash = passwordHash
  | .generateId => True
  | op => invalidateOp op

/-- The operations that read the links of one user. -/
def ownReadOp (userId : String) : Op → Prop
  | .db (.listLinks u _ _) => u = userId
  | .db (.countLinks u) => u = userId
  | .db (.linkById _ u) => u = userId
  | .db (.clickStats _ u _) => u = userId
  | _ => False

/-- The operations of an update once its set list is collected. -/
def updateOp (userId linkId : String) (s : SetList) : Op → Prop
  | .db (.linkById id u) => id = linkId ∧ u = userId
  | .db (.updateLink set idParam userParam values) => set = s.setClauses ++ [.updatedAtNow] ∧
      values = s.values ++ [.uuid linkId, .account userId] ∧
      idParam = values.length - 1 ∧ userParam = values.length
  | op => invalidateOp op

def deleteOp (userId linkId : String) : Op → Prop
  | .db (.deleteLink id u) => id = linkId ∧ u = userId
  | op => invalidateOp op

/-- The operations of one click job. -/
def workerOp (data : ClickJobData) : Op → Prop
  | .poolConnect => True
  | .db .begin => True
  | .db (.insertClick d) => d = data
  | .db (.incrementClickCount linkId) => linkId = data.linkId
  | .db .commit => True
  | .db .rollback => True
  | _ => False

/-- The operations of the end of a visit. -/
def clickOp : Op → Prop
  | .dateNow => True
  | .randomUUID => True
  | .enqueue _ => True
  | _ => False

/-- The operations of an unlock request outside its lookup. -/
def grantOp : Op → Prop
  | .dateNow => True
  | .bcryptCompare _ _ => True
  | .jwtSign claims ttl => (∃ linkId, claims = unlockClaims linkId) ∧ ttl = UNLOCK_TOKEN_TTL
  | _ => False

def Call.performs : Call → Op → Prop
  | .signup _ _ => accountOp
  | .login _ _ => accountOp
  | .findOrCreateOAuthUser _ _ _ _ => accountOp
  | .getUserById _ => accountOp
  | .googleStart _ => issueOp
  | .googleCallback req => fun op => callbackOp req.state op ∨ accountOp op
  | .createLink _ _ => fun op => hashOp op ∨ ∃ passwordHash, createOp passwordHash op
  | .listLinks _ userId _ => ownReadOp userId
  | .getLink userId _ => ownReadOp userId
  | .updateLink userId linkId _ => fun op => hashOp op ∨ ∃ s, updateOp userId linkId s op
  | .deleteLink userId linkId => deleteOp userId linkId
  | .getLinkClickStats userId _ _ => ownReadOp userId
  | .getLinkByShortCode shortCode => lookupOp shortCode
  | .visit req => fun op => lookupOp req.shortCode op ∨ clickOp op
  | .unlock req => fun op => lookupOp req.shortCode op ∨ grantOp op
  | .processClickJob data => workerOp data
  | .sweepExpiredLinks => fun op => op = .db .sweepExpired

section Functions

variable (P : Platform)

theorem query_only (p : Op → Prop) (s : Stmt) (h : p (.db s)) : (query s).Only p := by
  refine ⟨h, fun r => ?_⟩
  cases r <;> trivial

theorem redis_only (p : Op → Prop) (c : RedisCmd) (h : p (.redis c)) : (redis c).Only p := by
  refine ⟨h, fun r => ?_⟩
  cases r <;> trivial

theorem sessionFor_only (row : UserRow) : (sessionFor P row).Only accountOp :=
  Prog.only_map _ ⟨⟨row.id, rfl⟩, fun _ => trivial⟩

theorem insertAccount_only (u : NewUser) : (insertAccount u).Only accountOp := by
  refine Prog.only_bind (fun rows => ?_) _ (query_only _ _ trivial)
  cases rows.head? <;> trivial

theorem signup_only (email password : String) : (signup P email password).Only accountOp := by
  refine Prog.only_bind (fun existing => ?_) _ (query_only _ _ trivial)
  cases existing.head? with
  | some _ => trivial
  | none =>
      refine Prog.only_bind (fun hash => ?_) _ ⟨trivial, fun _ => trivial⟩
      refine Prog.only_bind (fun row => sessionFor_only P row) _ ?_
      refine Prog.only_tryCatch (fun err => ?_) _ (insertAccount_only _)
      cases err.isUniqueViolation <;> trivial

theorem login_only (email password : String) : (login P email password).Only accountOp := by
  refine Prog.only_bind (fun rows => ?_) _ (query_only _ _ trivial)
  -- An unknown email and an account without a password end alike, after a compare.
  have hfail : (Prog.bind (verifyAgainstDummyHash P password)
      (fun _ => .throw (.app (unauthorized INVALID_CREDENTIALS_MESSAGE))) :
        Api Session).Only accountOp :=
    Prog.only_bind (fun _ => by trivial) _ ⟨trivial, fun _ => trivial⟩
  rcases rows.head? with _ | row
  · exact hfail
  · rcases h : row.passwordHash with _ | hash
    · simp only [h]
      exact hfail
    · simp only [h]
      refine Prog.only_bind (fun ok => ?_) _ ⟨trivial, fun _ => trivial⟩
      cases ok with
      | true => exact sessionFor_only P row
      | false => trivial

theorem createOAuthUser_only (provider oauthId email : String) (emailVerified : Bool) :
    (createOAuthUser P provider oauthId email emailVerified).Only accountOp := by
  refine Prog.only_bind (fun existing => ?_) _ (query_only _ _ trivial)
  cases existing.head? with
  | some _ => trivial
  | none =>
      refine Prog.only_bind (fun row => sessionFor_only P row) _ ?_
      refine Prog.only_tryCatch (fun err => ?_) _ (insertAccount_only _)
      unfold recoverInsert
      cases err.isUniqueViolation with
      | false => trivial
      -- another login inserted first, and its row is read
      | true =>
          refine Prog.only_bind (fun retry => ?_) _ (query_only _ _ trivial)
          cases retry.head? <;> trivial

theorem findOrCreateOAuthUser_only (provider oauthId email : String) (emailVerified : Bool) :
    (findOrCreateOAuthUser P provider oauthId email emailVerified).Only accountOp := by
  unfold findOrCreateOAuthUser
  cases emailVerified with
  | false => trivial
  | true =>
      refine Prog.only_bind (fun existing => ?_) _ (query_only _ _ trivial)
      cases existing.head? with
      | some row => exact sessionFor_only P row
      | none => exact createOAuthUser_only P provider oauthId email true

theorem googleStart_only : googleStart.Only issueOp := by
  refine Prog.only_bind (fun state => ?_) _ ⟨trivial, fun _ => trivial⟩
  exact Prog.only_map _ (redis_only _ _ ⟨⟨state, rfl⟩, rfl⟩)

theorem exchangeCodeForIdentity_only (state code : String) :
    (exchangeCodeForIdentity code).Only (callbackOp state) := by
  refine Prog.only_bind (fun idToken => ?_) _ ⟨trivial, fun r => by cases r <;> trivial⟩
  cases truthy idToken with
  | none => trivial
  | some token =>
      refine Prog.only_bind (fun payload => ?_) _ ⟨trivial, fun r => by cases r <;> trivial⟩
      cases identityOf payload <;> trivial

theorem acceptCallback_only (req : GoogleRequest) :
    (acceptCallback P req).Only (fun op => callbackOp req.state op ∨ accountOp op) := by
  unfold acceptCallback
  cases truthy req.error with
  | some _ => trivial
  | none =>
      cases truthy req.code with
      | none => trivial
      | some code =>
          refine Prog.only_bind (fun identity => ?_) _
            (Prog.only_mono (fun _ h => Or.inl h) _ (exchangeCodeForIdentity_only req.state code))
          refine Prog.only_map _ ?_
          exact Prog.only_mono (fun _ h => Or.inr h) _
            (findOrCreateOAuthUser_only P _ _ _ _)

theorem googleCallback_only (req : GoogleRequest) :
    (googleCallback P req).Only (fun op => callbackOp req.state op ∨ accountOp op) := by
  refine Prog.only_bind (fun valid => ?_) _
    (Prog.only_map _ (redis_only _ _ (Or.inl rfl)))
  cases valid with
  | false => trivial
  | true => exact acceptCallback_only P req

theorem getCachedLink_only (shortCode : String) :
    (getCachedLink shortCode).Only (lookupOp shortCode) :=
  Prog.only_tryCatch (fun _ => by trivial) _
    (Prog.only_map _ (redis_only _ _ rfl))

theorem fillCache_only (shortCode : String) (link : Option RedirectLink) :
    (fillCache shortCode link).Only (lookupOp shortCode) := by
  cases link <;> exact Prog.only_tryCatch (fun _ => by trivial) _ (redis_only _ _ rfl)

theorem getLinkByShortCode_only (shortCode : String) :
    (getLinkByShortCode shortCode).Only (lookupOp shortCode) := by
  refine Prog.only_bind (fun cached => ?_) _ (getCachedLink_only shortCode)
  cases cached with
  | found link => trivial
  | notFound =>
      refine Prog.only_bind (fun rows => ?_) _ (query_only _ _ rfl)
      exact Prog.only_map _ (fillCache_only shortCode _)

theorem invalidateLinkCache_only {p : Op → Prop} (shortCode : String)
    (h : p (.redis (.del (linkCacheKey shortCode)))) : (invalidateLinkCache shortCode).Only p :=
  Prog.only_tryCatch (fun _ => by trivial) _ (redis_only _ _ h)

theorem insertLink_only (userId shortCode : String) (input : CreateLinkInput)
    (passwordHash : Option String) :
    (insertLink userId shortCode input passwordHash).Only (createOp passwordHash) := by
  refine Prog.only_tryCatch (fun err => ?_) _ ?_
  · cases err.isUniqueViolation <;> trivial
  · refine Prog.only_bind (fun rows => ?_) _ (query_only _ _ rfl)
    cases rows.head? <;> trivial

theorem createGenerated_only (userId : String) (input : CreateLinkInput)
    (passwordHash : Option String) (attempts : Nat) :
    (createGenerated userId input passwordHash attempts).Only (createOp passwordHash) := by
  induction attempts with
  | zero => trivial
  | succ n ih =>
      refine Prog.only_bind (fun code => ?_) _ ⟨trivial, fun _ => trivial⟩
      refine Prog.only_bind (fun row => ?_) _ (insertLink_only _ _ _ _)
      cases row with
      | some row => trivial
      | none => exact ih

theorem createAliased_only (userId customAlias : String) (input : CreateLinkInput)
    (passwordHash : Option String) :
    (createAliased userId customAlias input passwordHash).Only (createOp passwordHash) := by
  refine Prog.only_bind (fun existing => ?_) _ (query_only _ _ trivial)
  cases existing.head? with
  | some _ => trivial
  | none =>
      refine Prog.only_bind (fun row => ?_) _ (insertLink_only _ _ _ _)
      cases row with
      | none => trivial
      | some row =>
          exact Prog.only_map _ (invalidateLinkCache_only _ ⟨_, rfl⟩)

theorem hashGiven_only (password : Option String) : (hashGiven password).Only hashOp := by
  cases password with
  | none => trivial
  | some plain => exact ⟨trivial, fun _ => trivial⟩

theorem hashField_only (password : Option (Option String)) :
    (hashField password).Only hashOp := by
  rcases password with _ | _ | plain
  · trivial
  · trivial
  · exact ⟨trivial, fun _ => trivial⟩

/-- What is left of a creation once its password is hashed. -/
theorem createHashed_only (userId : String) (input : CreateLinkInput)
    (passwordHash : Option String) :
    (match truthy input.customAlias with
      | some customAlias => createAliased userId customAlias input passwordHash
      | none => createGenerated userId input passwordHash MAX_GENERATION_ATTEMPTS).Only
        (createOp passwordHash) := by
  cases truthy input.customAlias with
  | some customAlias => exact createAliased_only _ _ _ _
  | none => exact createGenerated_only _ _ _ _

theorem createLink_only (userId : String) (input : CreateLinkInput) :
    (createLink userId input).Only
      (fun op => hashOp op ∨ ∃ passwordHash, createOp passwordHash op) := by
  refine Prog.only_bind (fun hash => ?_) _
    (Prog.only_mono (fun _ h => Or.inl h) _ (hashGiven_only _))
  have hmono : ∀ op, createOp hash op → hashOp op ∨ ∃ passwordHash, createOp passwordHash op :=
    fun _ h => Or.inr ⟨hash, h⟩
  exact Prog.only_mono hmono _ (createHashed_only userId input hash)

theorem listLinks_only (countFirst : Bool) (userId : String) (options : ListLinksOptions) :
    (listLinks countFirst userId options).Only (ownReadOp userId) := by
  cases countFirst with
  | true =>
      refine Prog.only_bind (fun total => ?_) _ (query_only _ (.countLinks userId) rfl)
      exact Prog.only_map _ (query_only _ (.listLinks userId _ _) rfl)
  | false =>
      refine Prog.only_bind (fun rows => ?_) _ (query_only _ (.listLinks userId _ _) rfl)
      exact Prog.only_map _ (query_only _ (.countLinks userId) rfl)

theorem getLink_only {p : Op → Prop} (userId linkId : String)
    (h : p (.db (.linkById linkId userId))) : (getLink userId linkId).Only p :=
  Prog.only_map _ (query_only _ _ h)

theorem sendUpdate_only (userId linkId : String) (s : SetList) :
    (sendUpdate userId linkId s).Only (updateOp userId linkId s) := by
  unfold sendUpdate
  by_cases hempty : s.setClauses.length = 0
  · -- an empty set list: the row is only read
    simp only [hempty, if_true]
    exact getLink_only userId linkId ⟨rfl, rfl⟩
  · simp only [hempty, if_false]
    refine Prog.only_bind (fun rows => ?_) _ (query_only _ _ ⟨rfl, rfl, rfl, rfl⟩)
    cases rows.head? with
    | none => trivial
    | some row =>
        exact Prog.only_map _ (invalidateLinkCache_only _ ⟨_, rfl⟩)

theorem updateLink_only (userId linkId : String) (input : UpdateLinkInput) :
    (updateLink userId linkId input).Only
      (fun op => hashOp op ∨ ∃ s, updateOp userId linkId s op) := by
  refine Prog.only_bind (fun hash => ?_) _
    (Prog.only_mono (fun _ h => Or.inl h) _ (hashField_only _))
  exact Prog.only_mono (fun _ h => Or.inr ⟨_, h⟩) _ (sendUpdate_only userId linkId _)

theorem deleteLink_only (userId linkId : String) :
    (deleteLink userId linkId).Only (deleteOp userId linkId) := by
  refine Prog.only_bind (fun rows => ?_) _ (query_only _ _ ⟨rfl, rfl⟩)
  rcases rows.head? with _ | ⟨id, code⟩
  · trivial
  · exact Prog.only_map _ (invalidateLinkCache_only _ ⟨_, rfl⟩)

theorem getLinkClickStats_only (userId linkId : String) (sinceDate : Int) :
    (getLinkClickStats userId linkId sinceDate).Only (ownReadOp userId) := by
  refine Prog.only_bind (fun link => ?_) _ (getLink_only userId linkId rfl)
  cases link with
  | none => trivial
  | some _ => exact Prog.only_map _ (query_only _ _ rfl)

theorem liveLink_only (shortCode : String) {p : Op → Prop} (hl : ∀ op, lookupOp shortCode op → p op)
    (hd : p .dateNow) : (liveLink shortCode).Only p := by
  refine Prog.only_bind (fun link => ?_) _
    (Prog.only_mono hl _ (getLinkByShortCode_only shortCode))
  cases link with
  | none => trivial
  | some link =>
      refine Prog.only_bind (fun now => ?_) _ ⟨hd, fun _ => trivial⟩
      cases deadStateError now link <;> trivial

theorem recordAndRedirect_only (req : VisitRequest) (link : RedirectLink) :
    (recordAndRedirect req link).Only clickOp := by
  refine Prog.only_bind (fun clickId => ?_) _ ⟨trivial, fun _ => trivial⟩
  refine Prog.only_map _ ?_
  refine Prog.only_tryCatch (fun _ => by trivial) _ ⟨trivial, fun r => ?_⟩
  cases r <;> trivial

theorem visit_only (req : VisitRequest) :
    (visit P req).Only (fun op => lookupOp req.shortCode op ∨ clickOp op) := by
  refine Prog.only_bind (fun link => ?_) _
    (liveLink_only req.shortCode (fun _ h => Or.inl h) (Or.inr trivial))
  have hrec := Prog.only_mono (q := fun op => lookupOp req.shortCode op ∨ clickOp op)
    (fun _ h => Or.inr h) _ (recordAndRedirect_only req link)
  cases truthy link.passwordHash with
  | none => exact hrec
  | some _ =>
      refine Prog.only_bind (fun now => ?_) _ ⟨Or.inr trivial, fun _ => trivial⟩
      rcases unlocked P now req link with e | _ | _
      · trivial
      · trivial
      · exact hrec

theorem unlock_only (req : UnlockRequest) :
    (unlock req).Only (fun op => lookupOp req.shortCode op ∨ grantOp op) := by
  refine Prog.only_bind (fun link => ?_) _
    (liveLink_only req.shortCode (fun _ h => Or.inl h) (Or.inr trivial))
  cases truthy link.passwordHash with
  | none => trivial
  | some hash =>
      refine Prog.only_bind (fun valid => ?_) _ ⟨Or.inr trivial, fun _ => trivial⟩
      cases valid with
      | false => trivial
      | true =>
          exact Prog.only_map _
            ⟨Or.inr ⟨⟨link.id, rfl⟩, rfl⟩, fun _ => trivial⟩

theorem processClickJob_only (data : ClickJobData) :
    (processClickJob data).Only (workerOp data) := by
  refine Prog.only_bind (fun _ => ?_) _ ⟨trivial, fun r => by cases r <;> trivial⟩
  refine Prog.only_tryCatch (fun err => ?_) _ ?_
  · exact Prog.only_bind (fun _ => by trivial) _ (query_only _ _ trivial)
  · refine Prog.only_bind (fun _ => ?_) _ (query_only _ _ trivial)
    refine Prog.only_bind (fun _ => query_only _ _ trivial) _ ?_
    refine Prog.only_bind (fun rowCount => ?_) _ (query_only _ _ rfl)
    by_cases h : rowCount = 0
    · simp only [h, if_true]
      trivial
    · simp only [h, if_false]
      exact Prog.only_map _ (query_only _ _ rfl)

end Functions

/-- Every operation of a call's program is one the call performs. -/
theorem body_performs (P : Platform) (call : Call) : (body P call).Only call.performs := by
  -- Each handler performs what its own lemma says, and passes the result on.
  cases call with
  | signup email password => exact Prog.only_map _ (signup_only P _ _)
  | login email password => exact Prog.only_map _ (login_only P _ _)
  | findOrCreateOAuthUser provider oauthId email verified =>
      exact Prog.only_map _ (findOrCreateOAuthUser_only P _ _ _ _)
  | getUserById id =>
      exact Prog.only_map _
        (Prog.only_map _ (query_only _ _ trivial))
  | googleStart browser => exact Prog.only_map _ googleStart_only
  | googleCallback req => exact Prog.only_map _ (googleCallback_only P req)
  | createLink userId input => exact Prog.only_map _ (createLink_only _ _)
  | listLinks countFirst userId options =>
      exact Prog.only_map _ (listLinks_only _ _ _)
  | getLink userId linkId => exact Prog.only_map _ (getLink_only _ _ rfl)
  | updateLink userId linkId input =>
      exact Prog.only_map _ (updateLink_only _ _ _)
  | deleteLink userId linkId => exact Prog.only_map _ (deleteLink_only _ _)
  | getLinkClickStats userId linkId since =>
      exact Prog.only_map _ (getLinkClickStats_only _ _ _)
  | getLinkByShortCode code =>
      exact Prog.only_map _ (getLinkByShortCode_only _)
  | visit req => exact Prog.only_map _ (visit_only P req)
  | unlock req => exact Prog.only_map _ (unlock_only req)
  | processClickJob data =>
      exact Prog.only_map _ (processClickJob_only data)
  | sweepExpiredLinks => exact Prog.only_map _ (query_only _ _ rfl)

/-- Only attempts send the statements of a click transaction. -/
theorem performs_ofWorker {call : Call} {s : Stmt} (hcall : ∀ data, call ≠ .processClickJob data)
    (h : call.performs (.db s)) : s.ofWorker = false := by
  cases call with
  | processClickJob data => exact absurd rfl (hcall data)
  | _ =>
      cases s <;> first
      | rfl
      | simp only [Call.performs, accountOp, issueOp, callbackOp, lookupOp, hashOp, invalidateOp,
          createOp, ownReadOp, updateOp, deleteOp, clickOp, grantOp, Op.db.injEq, reduceCtorEq,
          exists_const, exists_false, or_self] at h

/-- Only visits enqueue. -/
theorem performs_enqueue {call : Call} {data : ClickJobData}
    (h : call.performs (.enqueue data)) : ∃ req, call = .visit req := by
  cases call with
  | visit req => exact ⟨req, rfl⟩
  | _ =>
      simp only [Call.performs, accountOp, issueOp, callbackOp, lookupOp, hashOp, invalidateOp,
        createOp, ownReadOp, updateOp, deleteOp, workerOp, grantOp, reduceCtorEq, exists_const,
        exists_false, or_self] at h

end ClickScope
