import ClickScope.Async.Front
import ClickScope.Core.Server

/-!
# Requests and Calls

What a request does before its call, and which call it makes.

The middleware and the validators only look at the clock and count hits, and
each of them either lets the request pass or fails it. So when the call is made,
the request has been told all that the calls of its endpoint need: that the
limiter let it pass, that the bearer token was accepted and names the account,
that its parts passed their schemas. And when none is made, the request was told
why not: by its limiter, by the bearer check, or by the validator of one of its
parts. A handler that works for nobody never changes a row, and ends with an
error or an empty page.

## Main definitions

* `ownOp`, `front`: The server in front of the calls.
* `Told`, `Bears`, `Passed`, `TookPart`: What a request was told.
* `AsksFor`: The call of an endpoint, after what it takes to get there.
* `RefusedAt`, `RefusedWork`: Why a request makes no call, and what it ends with.
* `LetPass`: A request that nothing stands in the way of.

## Theorems

* `execServer_quiet`: The middleware leaves the world of the calls alone.
* `serves_endpoint`: Every endpoint makes the call it should, or none.
* `work_fronted`: So does every request, and every job.
* `letPass_not_refused`: A request that is let pass is not refused.
-/

namespace ClickScope

open Async Zod FixedWindow

section Fronts

variable {D : Deployment}

/-- What the middleware and the handlers of nobody perform: nothing that could
    change what the calls see. -/
def ownOp : HttpOp → Prop
  | .increment _ _ => True
  | .api op => op = .dateNow
  | .nobody (.db (.linkIdByCode _)) => True
  | .nobody (.db s) => (forNobody s).isSome = true
  | .nobody (.bcryptHash _) => True
  | .nobody .generateId => True
  | .nobody .dateNow => True
  | .nobody _ => False
  | .checkDatabase => True
  | .checkRedis => True
  | .getWaitingCount => True

/-- An operation of the service, in the world of the server. -/
theorem map_app {P : Platform} {i : Nat} {op : Op} {ch : Choice} {w w' : ServerWorld} {r : op.Res}
    (h : (exec P i op ch w.app).map (fun r => (r.1, { w with app := r.2 })) = some (r, w')) :
    exec P i op ch w.app = some (r, w'.app) := by
  rcases hx : exec P i op ch w.app with _ | ⟨r', app⟩
  · simp only [hx, Option.map_none, reduceCtorEq] at h
  · simp only [hx, Option.map_some, Option.some.injEq, Prod.mk.injEq] at h
    rw [← h.2, ← h.1]

theorem execServer_quiet {P : Platform} {i : Nat} {op : HttpOp} {ch : Choice} {w w' : ServerWorld}
    {r : op.Res} (hown : ownOp op) (h : execServer P i op ch w = some (r, w')) :
    w'.app = w.app := by
  -- None of these operations of the service changes the world.
  have hsame : ∀ (op : Op) {r : op.Res}, (∀ r v, exec P i op ch w.app = some (r, v) → v = w.app) →
      (exec P i op ch w.app).map (fun r => (r.1, { w with app := r.2 })) = some (r, w') →
        w'.app = w.app := fun _ _ hop hx => hop _ _ (map_app hx)
  have hself : ∀ {ρ : Type} {a b : ρ} {v : World}, some (a, w.app) = some (b, v) → v = w.app := by
    intro ρ a b v hv
    exact (Prod.mk.inj (Option.some.inj hv)).2.symm
  cases op with
  | increment windowMs key =>
      simp only [execServer] at h
      split at h <;> simp only [Option.some.injEq, Prod.mk.injEq] at h <;> rw [← h.2]
  | api op =>
      obtain rfl : op = .dateNow := hown
      exact hsame .dateNow (fun _ _ hv => hself hv) h
  | checkDatabase | checkRedis =>
      simp only [execServer, Option.some.injEq, Prod.mk.injEq] at h
      rw [h.2]
  | getWaitingCount =>
      simp only [execServer] at h
      split at h <;> simp only [Option.some.injEq, Prod.mk.injEq] at h <;> rw [← h.2]
  | nobody op =>
      cases op with
      | db s =>
          simp only [execServer] at h
          cases hs : forNobody s with
          | some ans =>
              simp only [hs, Option.some.injEq, Prod.mk.injEq] at h
              rw [h.2]
          | none =>
              cases s with
              | linkIdByCode a =>
                  refine hsame (.db (.linkIdByCode a)) (fun r v hv => ?_) h
                  simp only [exec, Db.exec] at hv
                  split_ifs at hv <;> exact hself hv
              | _ => simp only [ownOp, hs, Option.isSome_none, Bool.false_eq_true] at hown
      | bcryptHash plain => exact hsame (.bcryptHash plain) (fun _ _ hv => hself hv) h
      | generateId => exact hsame .generateId (fun _ _ hv => hself hv) h
      | dateNow => exact hsame .dateNow (fun _ _ hv => hself hv) h
      | _ => exact hown.elim

/-- The server as a pool in front of the calls. -/
def front (D : Deployment) : Front (clickScope D.P) (server D) where
  op := .api
  res := fun _ r => r
  view := fun w => w.app
  exec := fun _ _ _ _ _ _ h => map_app h
  env := by
    intro e w w' h
    cases e with
    | tick ms =>
        simp only [server, Option.some.injEq] at h
        refine Or.inr ⟨.tick ms, ?_⟩
        rw [← h]
        rfl
    | backlog n =>
        simp only [server, Option.some.injEq] at h
        exact Or.inl (by rw [← h])
  reap := fun _ _ => rfl
  own := ownOp
  quiet := fun _ _ _ _ _ _ => execServer_quiet

/-- What an operation of the server answered, newest first. -/
abbrev Told : Type := List (Σ op : HttpOp, op.Res)

theorem api_bind {α β : Type} (x : Api α) (f : α → Api β) :
    api (x.bind f) = (api x).bind (fun a => api (f a)) :=
  Prog.embed_bind _ _ _ f x

theorem nobody_bind {α β : Type} (x : Api α) (f : α → Api β) :
    nobody (x.bind f) = (nobody x).bind (fun a => nobody (f a)) :=
  Prog.embed_bind _ _ _ f x

end Fronts

section Asking

/-- The clock showed this when the request looked. -/
def SawTime (told : Told) (now : Nat) : Prop := ⟨.api .dateNow, now⟩ ∈ told

/-- A part of the request passed its validator, which left `mid`, and the
    second parse made `out` of it. -/
def TookPart (schema : Schema) (target : ValidationTarget) (raw : JsValue) (told : Told)
    (mid out : JsValue) : Prop :=
  ∃ t t', SawTime told t ∧ SawTime told t' ∧ validated schema target t raw = .ok mid ∧
    parsed schema t' mid = .ok out

theorem TookPart.subset {schema : Schema} {target : ValidationTarget} {raw mid out : JsValue}
    {told told' : Told} (hsub : told ⊆ told') (h : TookPart schema target raw told mid out) :
    TookPart schema target raw told' mid out := by
  rcases h with ⟨t, t', ht, ht', hmid, hout⟩
  exact ⟨t, t', hsub ht, hsub ht', hmid, hout⟩

/-- The bearer token of the request was accepted, and names this account. -/
def Bears (D : Deployment) (req : Request) (told : Told) (userId : String) : Prop :=
  ∃ now sub, SawTime told now ∧ requireAuth D.P (seconds now) req.authorization = .ok sub ∧
    ownerOf D sub = some userId

/-- The limiter let the request pass: it was counted within the budget, or the
    store failed. -/
def Passed (l : Limiter) (key : String) (told : Told) : Prop :=
  ∃ r : Except Unit Window, ⟨.increment l.windowMs (l.storeKey key), r⟩ ∈ told ∧
    ∀ w, r = .ok w → w.count ≤ l.max

/-- A reply of another kind than the call gives. -/
def mismatch : Except Thrown Sending := .error (ofService .typeError)

def sendSession (status : Nat) : Reply → Except Thrown Sending
  | .session s => .ok (.session status s)
  | _ => mismatch

def sendGoogle : Reply → Except Thrown Sending
  | .google r => .ok (.google r)
  | _ => mismatch

def sendAccount : Reply → Except Thrown Sending
  | .account (some user) => .ok (.account user)
  | .account none => .error (ofService (.app (unauthorized "Invalid or expired token")))
  | _ => mismatch

def sendCreated : Reply → Except Thrown Sending
  | .created link => .ok (.link { status := 201, body := .link link })
  | _ => mismatch

def sendPage (options : ListLinksOptions) : Reply → Except Thrown Sending
  | .listed result => .ok (.link { status := 200, body := .page (linkPage options result) })
  | _ => mismatch

def sendLink : Reply → Except Thrown Sending
  | .link (some link) => .ok (.link { status := 200, body := .link link })
  | .link none => .error (ofService (.app (notFound "Link not found")))
  | _ => mismatch

def sendStats (linkId : String) (days : Int) : Reply → Except Thrown Sending
  | .stats (some stats) => .ok (.stats linkId days stats)
  | .stats none => .error (ofService (.app (notFound "Link not found")))
  | _ => mismatch

def sendDeleted : Reply → Except Thrown Sending
  | .deleted true => .ok .noContent
  | .deleted false => .error (ofService (.app (notFound "Link not found")))
  | _ => mismatch

def sendResponse : Reply → Except Thrown Sending
  | .response r => .ok (.redirect r)
  | _ => mismatch

/-- What a call that threw, or returned a reply, ends its request with. -/
def finish (send : Reply → Except Thrown Sending) : Except Err Reply → Except Thrown Sending
  | .ok reply => send reply
  | .error e => .error (ofService e)

/-- The call a request to an endpoint makes, once it has been told what lets it
    pass the middleware, and how its reply is sent. -/
inductive AsksFor (D : Deployment) (req : Request) (body : JsValue) (told : Told) :
    Endpoint → Call → (Reply → Except Thrown Sending) → Prop
  | signup (mid out : JsValue) :
      Passed (signupLimiter D.limits) (D.G.key req.ip) told →
      TookPart (signupSchema D.H) .body body told mid out →
      AsksFor D req body told .signup (.signup (textField out "email") (textField out "password"))
        (sendSession 201)
  | login (mid out : JsValue) :
      Passed (loginLimiter D.limits) (D.G.key req.ip) told →
      TookPart (loginSchema D.H) .body body told mid out →
      AsksFor D req body told .login (.login (textField out "email") (textField out "password"))
        (sendSession 200)
  | googleStart (browser : Nat) :
      AsksFor D req body told .googleStart (.googleStart browser) sendGoogle
  | googleCallback (mid out : JsValue) :
      TookPart googleCallbackQuerySchema .query req.query told mid out →
      AsksFor D req body told .googleCallback (.googleCallback (callbackRequest req.browser out))
        sendGoogle
  | me (userId : String) :
      Bears D req told userId → AsksFor D req body told .me (.getUserById userId) sendAccount
  | createLink (userId : String) (mid out : JsValue) :
      Bears D req told userId → Passed (linksCreateLimiter D.limits) userId told →
      TookPart (createLinkSchema D.H) .body body told mid out →
      AsksFor D req body told .createLink (.createLink userId (createInput out)) sendCreated
  | listLinks (userId : String) (mid out : JsValue) :
      Bears D req told userId → TookPart (listLinksQuerySchema D.H) .query req.query told mid out →
      AsksFor D req body told .listLinks (.listLinks req.countFirst userId (listOptions out))
        (sendPage (listOptions out))
  | getLink (userId id : String) (mid out : JsValue) :
      Bears D req told userId → TookPart (idParamSchema D.H) .params (idParams id) told mid out →
      AsksFor D req body told (.getLink id) (.getLink userId (textField out "id")) sendLink
  | linkStats (userId id : String) (mid out mid' out' : JsValue) (now : Nat) :
      Bears D req told userId → TookPart (idParamSchema D.H) .params (idParams id) told mid out →
      TookPart (linkStatsQuerySchema D.H) .query req.query told mid' out' → SawTime told now →
      AsksFor D req body told (.linkStats id)
        (.getLinkClickStats userId (textField out "id")
          (now - statsDays out' * 24 * 60 * 60 * 1000))
        (sendStats (textField out "id") (statsDays out'))
  | updateLink (userId id : String) (mid out mid' out' : JsValue) :
      Bears D req told userId → TookPart (idParamSchema D.H) .params (idParams id) told mid out →
      TookPart (updateLinkSchema D.H) .body body told mid' out' →
      AsksFor D req body told (.updateLink id)
        (.updateLink userId (textField out "id") (updateInput mid' out')) sendLink
  | deleteLink (userId id : String) (mid out : JsValue) :
      Bears D req told userId → TookPart (idParamSchema D.H) .params (idParams id) told mid out →
      AsksFor D req body told (.deleteLink id) (.deleteLink userId (textField out "id")) sendDeleted
  | visit (shortCode : String) (mid out : JsValue) :
      TookPart shortCodeParamSchema .params (shortCodeParams shortCode) told mid out →
      AsksFor D req body told (.visit shortCode)
        (.visit { shortCode := textField out "shortCode", cookie := req.cookie,
                  referrer := req.referrer, userAgent := req.userAgent }) sendResponse
  | unlock (shortCode : String) (mid out mid' out' : JsValue) :
      Passed (unlockLimiter D.limits.toRateLimitConfig)
        (unlockKey D.G (postedUnlock req shortCode body)) told →
      TookPart shortCodeParamSchema .params (shortCodeParams shortCode) told mid out →
      TookPart unlockBodySchema .body body told mid' out' →
      AsksFor D req body told (.unlock shortCode)
        (.unlock { shortCode := textField out "shortCode",
                   password := textField out' "password" }) sendResponse

/-- The parts of a request that an endpoint validates, with their schemas. -/
def partsOf (D : Deployment) (req : Request) (body : JsValue) :
    Endpoint → List (Schema × ValidationTarget × JsValue)
  | .signup => [(signupSchema D.H, .body, body)]
  | .login => [(loginSchema D.H, .body, body)]
  | .googleCallback => [(googleCallbackQuerySchema, .query, req.query)]
  | .createLink => [(createLinkSchema D.H, .body, body)]
  | .listLinks => [(listLinksQuerySchema D.H, .query, req.query)]
  | .getLink id => [(idParamSchema D.H, .params, idParams id)]
  | .linkStats id =>
      [(idParamSchema D.H, .params, idParams id), (linkStatsQuerySchema D.H, .query, req.query)]
  | .updateLink id =>
      [(idParamSchema D.H, .params, idParams id), (updateLinkSchema D.H, .body, body)]
  | .deleteLink id => [(idParamSchema D.H, .params, idParams id)]
  | .visit shortCode => [(shortCodeParamSchema, .params, shortCodeParams shortCode)]
  | .unlock shortCode =>
      [(shortCodeParamSchema, .params, shortCodeParams shortCode), (unlockBodySchema, .body, body)]
  | _ => []

/-- The limiter of an endpoint, and the key it counts a request under. The one for
    new links counts for the account of the token, or else for the address. -/
inductive LimitedBy (D : Deployment) (req : Request) (body : JsValue) (told : Told) :
    Endpoint → Limiter → String → Prop
  | signup : LimitedBy D req body told .signup (signupLimiter D.limits) (D.G.key req.ip)
  | login : LimitedBy D req body told .login (loginLimiter D.limits) (D.G.key req.ip)
  | createLink (now : Nat) (sub : Option ClaimValue) :
      SawTime told now → requireAuth D.P (seconds now) req.authorization = .ok sub →
      LimitedBy D req body told .createLink (linksCreateLimiter D.limits)
        (linksKey D (ownerOf D sub) req)
  | unlock (shortCode : String) :
      LimitedBy D req body told (.unlock shortCode) (unlockLimiter D.limits.toRateLimitConfig)
        (unlockKey D.G (postedUnlock req shortCode body))

/-- What a handler that works for nobody ends with: an error, or for the links of
    an account a page without any. -/
def EndForNobody (ep : Endpoint) : Except Thrown Sending → Prop
  | .error _ => True
  | .ok (.link r) =>
      ep = .listLinks ∧ ∃ page, r.body = .page page ∧ page.links = [] ∧ page.total = 0
  | .ok _ => False

/-- Why a request that came to an endpoint makes no call, by what it was told, and
    what it ends with. -/
inductive RefusedAt (D : Deployment) (req : Request) (body : JsValue) (told : Told) :
    Endpoint → Except Thrown Sending → Prop
  | undecodable : RefusedAt D req body told .undecodable
      (.error (.framework (D.F.decodeError req.incoming.path)))
  | notFound : RefusedAt D req body told .notFound
      (.error (ofService (.app (notFoundHandler req.incoming))))
  /-- The endpoint is for no call: its answer is the same for everybody. -/
  | root : RefusedAt D req body told .root (.ok (.static .root))
  | docs : RefusedAt D req body told .docs (.ok (.static .docs))
  | openapi : RefusedAt D req body told .openapi (.ok (.static .openapi))
  | health (database redis : Bool) (waiting : Except Unit Nat) :
      ⟨.checkDatabase, database⟩ ∈ told → ⟨.checkRedis, redis⟩ ∈ told →
      ⟨.getWaitingCount, waiting⟩ ∈ told →
      RefusedAt D req body told .health (.ok (.health (healthReport database redis waiting)))
  /-- The limiter counted the request over its budget. -/
  | limited {ep : Endpoint} (l : Limiter) (key : String) (w : Window) (now : Nat) :
      LimitedBy D req body told ep l key →
      ⟨.increment l.windowMs (l.storeKey key), (.ok w : Except Unit Window)⟩ ∈ told →
      l.max < w.count → SawTime told now →
      RefusedAt D req body told ep (.error (.service (.tooManyRequests
        "Too many requests. Please try again later." (retryAfterSeconds l now w))))
  /-- The bearer token was not accepted. -/
  | unauthorized {ep : Endpoint} (now : Nat) (e : AppError) :
      needsToken ep = true → SawTime told now →
      requireAuth D.P (seconds now) req.authorization = .error e →
      RefusedAt D req body told ep (.error (ofService (.app e)))
  /-- The bearer token was accepted, but names no account. -/
  | anonymous {ep : Endpoint} (now : Nat) (sub : Option ClaimValue) (r : Except Thrown Sending) :
      needsToken ep = true → SawTime told now →
      requireAuth D.P (seconds now) req.authorization = .ok sub → ownerOf D sub = none →
      EndForNobody ep r → RefusedAt D req body told ep r
  /-- A part did not pass its validator, or the second parse. -/
  | invalid {ep : Endpoint} (schema : Schema) (target : ValidationTarget) (raw : JsValue)
      (now : Nat) (e : Err) :
      (schema, target, raw) ∈ partsOf D req body ep → SawTime told now →
      validated schema target now raw = .error e →
      RefusedAt D req body told ep (.error (ofService e))
  | unparsed {ep : Endpoint} (schema : Schema) (target : ValidationTarget) (raw mid : JsValue)
      (t now : Nat) (e : Err) :
      (schema, target, raw) ∈ partsOf D req body ep → SawTime told t →
      validated schema target t raw = .ok mid → SawTime told now →
      parsed schema now mid = .error e → RefusedAt D req body told ep (.error (ofService e))

/-- Why a request makes no call. A job always makes its call. -/
inductive RefusedWork (D : Deployment) : Work → Told → Except Thrown Sending → Prop
  | preflight (req : Request) (told : Told) (sent : Sent) :
      corsMiddleware req.incoming = some sent →
      RefusedWork D (.request req) told (.ok (.plain sent))
  | unreadable (req : Request) (told : Told) (e : HttpError) :
      corsMiddleware req.incoming = none →
      D.F.json req.incoming.contentType req.incoming.body = .error e →
      RefusedWork D (.request req) told (.error (.framework e))
  | dispatched (req : Request) (told : Told) (body : JsValue) (r : Except Thrown Sending) :
      corsMiddleware req.incoming = none →
      D.F.json req.incoming.contentType req.incoming.body = .ok body →
      RefusedAt D req body told (dispatch (methodOf req.incoming.method) req.incoming.path) r →
      RefusedWork D (.request req) told r

/-- The endpoints that are for a call. -/
def makesCall : Endpoint → Bool
  | .root | .health | .docs | .openapi | .undecodable | .notFound => false
  | _ => true

/-- Nothing a request was told stands in the way of its call: its token names an
    account, its parts are as they should be, and it was counted within its budget. -/
structure LetPass (D : Deployment) (req : Request) (body : JsValue) (told : Told) (ep : Endpoint) :
    Prop where
  calls : makesCall ep = true
  token : needsToken ep = true → ∀ now, SawTime told now →
    ∃ sub userId, requireAuth D.P (seconds now) req.authorization = .ok sub ∧
      ownerOf D sub = some userId
  parts : ∀ schema target raw, (schema, target, raw) ∈ partsOf D req body ep →
    ∀ t, SawTime told t → ∃ mid, validated schema target t raw = .ok mid ∧
      ∀ now, SawTime told now → ∃ out, parsed schema now mid = .ok out
  budget : ∀ l key w, LimitedBy D req body told ep l key →
    ⟨.increment l.windowMs (l.storeKey key), (.ok w : Except Unit Window)⟩ ∈ told →
      w.count ≤ l.max

/-- A request that is let pass is not refused. -/
theorem letPass_not_refused {D : Deployment} {req : Request} {body : JsValue} {told : Told}
    {ep : Endpoint} (h : LetPass D req body told ep) (r : Except Thrown Sending) :
    ¬ RefusedAt D req body told ep r := by
  intro hrefused
  -- Each reason to refuse is excluded by one field of `LetPass`.
  cases hrefused with
  | undecodable | notFound | root | docs | openapi | health => exact Bool.noConfusion h.calls
  | limited l key w now hlimit hcount hover _ =>
      exact absurd (h.budget l key w hlimit hcount) (Nat.not_le_of_lt hover)
  | unauthorized now e hneeds hsaw herr =>
      rcases h.token hneeds now hsaw with ⟨sub, userId, hok, _⟩
      rw [herr] at hok
      cases hok
  | anonymous now sub _ hneeds hsaw hok hnone _ =>
      rcases h.token hneeds now hsaw with ⟨sub', userId, hok', howner⟩
      rw [hok, Except.ok.injEq] at hok'
      rw [← hok', hnone] at howner
      cases howner
  | invalid schema target raw now e hpart hsaw herr =>
      rcases h.parts schema target raw hpart now hsaw with ⟨mid, hmid, _⟩
      rw [herr] at hmid
      cases hmid
  | unparsed schema target raw mid t now e hpart hsaw hmid hsaw' herr =>
      rcases h.parts schema target raw hpart t hsaw with ⟨mid', hmid', hparsed⟩
      rw [hmid, Except.ok.injEq] at hmid'
      rcases hparsed now hsaw' with ⟨out, hout⟩
      rw [← hmid', herr] at hout
      cases hout

end Asking

section Opening

variable {D : Deployment} {α : Type} {Post : Told → Except Thrown α → Prop} {told : Told}

theorem opens_now {f : Nat → Http α}
    (h : ∀ now, Opens (front D) Post (⟨.api .dateNow, now⟩ :: told) (f now)) :
    Opens (front D) Post told ((api dateNow).bind f) :=
  ⟨rfl, fun now _ => h now⟩

theorem api_makeValidator (schema : Schema) (target : ValidationTarget) (raw : JsValue) :
    api (makeValidator schema target raw) = (api dateNow).bind (fun now =>
      match validated schema target now raw with
      | .error e => .throw (ofService e)
      | .ok data => .ret data) :=
  (api_bind dateNow _).trans (congrArg _ (funext fun now => by
    cases validated schema target now raw <;> rfl))

theorem api_parse (schema : Schema) (data : JsValue) :
    api (parse schema data) = (api dateNow).bind (fun now =>
      match parsed schema now data with
      | .error e => .throw (ofService e)
      | .ok out => .ret out) :=
  (api_bind dateNow _).trans (congrArg _ (funext fun now => by
    cases parsed schema now data <;> rfl))

/-- A validator fails the request, or leaves what it made of its part. -/
theorem opens_validator {schema : Schema} {target : ValidationTarget} {raw : JsValue}
    {Post : Told → Except Thrown JsValue → Prop}
    (hok : ∀ now mid, validated schema target now raw = .ok mid →
      Post (⟨.api .dateNow, now⟩ :: told) (.ok mid))
    (herr : ∀ now e, validated schema target now raw = .error e →
      Post (⟨.api .dateNow, now⟩ :: told) (.error (ofService e))) :
    Opens (front D) Post told (api (makeValidator schema target raw)) := by
  rw [api_makeValidator]
  refine opens_now fun now => ?_
  rcases hv : validated schema target now raw with e | mid
  · exact herr now e hv
  · exact hok now mid hv

theorem opens_parse {schema : Schema} {data : JsValue}
    {Post : Told → Except Thrown JsValue → Prop}
    (hok : ∀ now out, parsed schema now data = .ok out →
      Post (⟨.api .dateNow, now⟩ :: told) (.ok out))
    (herr : ∀ now e, parsed schema now data = .error e →
      Post (⟨.api .dateNow, now⟩ :: told) (.error (ofService e))) :
    Opens (front D) Post told (api (parse schema data)) := by
  rw [api_parse]
  refine opens_now fun now => ?_
  rcases hv : parsed schema now data with e | out
  · exact herr now e hv
  · exact hok now out hv

/-- A limiter lets the request pass, or fails it. -/
theorem opens_limiter {l : Limiter} {key : String} {Post : Told → Except Thrown Unit → Prop}
    (hok : ∀ r : Except Unit Window, (∀ w, r = .ok w → w.count ≤ l.max) →
      Post (⟨.increment l.windowMs (l.storeKey key), r⟩ :: told) (.ok ()))
    (herr : ∀ (w : Window) now, l.max < w.count →
      Post (⟨.api .dateNow, now⟩ ::
          ⟨.increment l.windowMs (l.storeKey key), (.ok w : Except Unit Window)⟩ :: told)
        (.error (.service (.tooManyRequests "Too many requests. Please try again later."
          (retryAfterSeconds l now w))))) :
    Opens (front D) Post told (limiter l key) := by
  refine ⟨trivial, fun r _ => ?_⟩
  cases r with
  | error e => exact hok (.error e) (fun w hw => by cases hw)
  | ok w =>
      by_cases hover : l.max < w.count
      · simp only [if_pos hover]
        exact ⟨rfl, fun now _ => herr w now hover⟩
      · simp only [if_neg hover]
        refine hok (.ok w) fun w' hw => ?_
        rw [← Except.ok.inj hw]
        exact Nat.le_of_not_lt hover

/-- The bearer check fails the request, or leaves the subject of the token. -/
theorem opens_authenticate {authorization : Option String}
    {Post : Told → Except Thrown (Option ClaimValue) → Prop}
    (hok : ∀ now sub, requireAuth D.P (seconds now) authorization = .ok sub →
      Post (⟨.api .dateNow, now⟩ :: told) (.ok sub))
    (herr : ∀ now e, requireAuth D.P (seconds now) authorization = .error e →
      Post (⟨.api .dateNow, now⟩ :: told) (.error (ofService (.app e)))) :
    Opens (front D) Post told (authenticate D.P authorization) := by
  refine opens_now fun now => ?_
  rcases hv : requireAuth D.P (seconds now) authorization with e | sub
  · exact herr now e hv
  · exact hok now sub hv

end Opening

section Nobody

variable {D : Deployment} {α β : Type} {Post : Told → Except Thrown β → Prop} {told : Told}

theorem opens_nobody_now {f : Nat → Http β}
    (h : ∀ (told' : Told) now, Opens (front D) Post told' (f now)) :
    Opens (front D) Post told ((nobody dateNow).bind f) :=
  ⟨trivial, fun now _ => h _ now⟩

theorem opens_nobody_validator {schema : Schema} {target : ValidationTarget} {raw : JsValue}
    {f : JsValue → Http β} (h : ∀ (told' : Told) mid, Opens (front D) Post told' (f mid))
    (herr : ∀ told' e, Post told' (.error e)) :
    Opens (front D) Post told ((nobody (makeValidator schema target raw)).bind f) := by
  simp only [makeValidator, Prog.bind_eq, nobody_bind]
  refine opens_bind _ _ (opens_nobody_now fun told' now => ?_)
  rcases validated schema target now raw with e | mid
  · exact herr _ _
  · exact h _ mid

theorem opens_nobody_parse {schema : Schema} {data : JsValue} {f : JsValue → Http β}
    (h : ∀ (told' : Told) out, Opens (front D) Post told' (f out))
    (herr : ∀ told' e, Post told' (.error e)) :
    Opens (front D) Post told ((nobody (parse schema data)).bind f) := by
  simp only [parse, Prog.bind_eq, nobody_bind]
  refine opens_bind _ _ (opens_nobody_now fun told' now => ?_)
  rcases parsed schema now data with e | out
  · exact herr _ _
  · exact h _ out

/-- A part that nobody sends is validated and parsed all the same. -/
theorem opens_nobody_part {schema : Schema} {target : ValidationTarget} {raw : JsValue}
    {f : JsValue → JsValue → Http β}
    (h : ∀ (told' : Told) mid out, Opens (front D) Post told' (f mid out))
    (herr : ∀ told' e, Post told' (.error e)) :
    Opens (front D) Post told ((nobody (makeValidator schema target raw)).bind
      (fun mid => (nobody (parse schema mid)).bind (f mid))) :=
  opens_nobody_validator (fun _ mid => opens_nobody_parse (fun told' out => h told' mid out) herr)
    herr

/-- A statement that is given NULL for its owner. -/
theorem opens_nobody_statement {s : Stmt} {ans : Except DbError s.Rows}
    {k : Except DbError s.Rows → Http β} (hs : forNobody s = some ans)
    (h : ∀ told' : Told, Opens (front D) Post told' (k ans)) :
    Opens (front D) Post told (.await (.nobody (.db s)) k) := by
  -- The answer is settled before any row is looked at.
  have hx : ∀ i ch w, (server D).exec i (.nobody (.db s)) ch w = some (ans, w) := by
    intro i ch w
    simp only [server, execServer, hs]
  refine ⟨?_, fun r hr => ?_⟩
  · show ownOp (.nobody (.db s))
    cases s <;> trivial
  · rcases hr with ⟨i, ch, w, w', h'⟩
    rw [hx, Option.some.injEq, Prod.mk.injEq] at h'
    rw [← h'.1]
    exact h _

theorem opens_nobody_query {s : Stmt} (rows : s.Rows) {f : s.Rows → Http β}
    (hs : forNobody s = some (.ok rows)) (h : ∀ told' : Told, Opens (front D) Post told' (f rows)) :
    Opens (front D) Post told ((nobody (query s)).bind f) :=
  opens_nobody_statement hs h

theorem opens_nobody_refused {s : Stmt} {e : DbError} {f : s.Rows → Http β}
    (hs : forNobody s = some (.error e)) (herr : ∀ told' e, Post told' (.error e)) :
    Opens (front D) Post told ((nobody (query s)).bind f) :=
  opens_nobody_statement hs fun told' => herr told' _

/-- A statement that answers nobody with an error or with these rows. -/
theorem opens_nobody_rows {s : Stmt} {rows : s.Rows} {f : s.Rows → Http β}
    (hs : (∃ e, forNobody s = some (.error e)) ∨ forNobody s = some (.ok rows))
    (h : ∀ told' : Told, Opens (front D) Post told' (f rows))
    (herr : ∀ told' e, Post told' (.error e)) :
    Opens (front D) Post told ((nobody (query s)).bind f) := by
  rcases hs with ⟨e, he⟩ | hok
  · exact opens_nobody_refused he herr
  · exact opens_nobody_query rows hok h

theorem forNobody_linkById (id userId : String) :
    (∃ e, forNobody (.linkById id userId) = some (.error e)) ∨
      forNobody (.linkById id userId) = some (.ok []) := by
  simp only [forNobody]
  rcases uuidError id with _ | e
  · exact Or.inr rfl
  · exact Or.inl ⟨e, rfl⟩

theorem forNobody_deleteLink (id userId : String) :
    (∃ e, forNobody (.deleteLink id userId) = some (.error e)) ∨
      forNobody (.deleteLink id userId) = some (.ok []) := by
  simp only [forNobody]
  rcases uuidError id with _ | e
  · exact Or.inr rfl
  · exact Or.inl ⟨e, rfl⟩

/-- An insert is always refused, and not for a short code that is taken. -/
theorem opens_nobody_insertLink {code : String} {input : CreateLinkInput} {hash : Option String}
    {f : Option LinkRow → Http β} (herr : ∀ told' e, Post told' (.error e)) :
    Opens (front D) Post told ((nobody (insertLink "" code input hash)).bind f) := by
  -- A unique violation would be tried again with another code. That the owner is NULL comes first.
  have hfail : ∀ l : NewLink, ∃ e, e ≠ DbError.uniqueViolation ∧
      forNobody (.insertLink l) = some (.error e) := by
    intro l
    refine ⟨_, ?_, rfl⟩
    split_ifs
    · decide
    · exact rangeError_ne_uniqueViolation _
    · decide
    · decide
  rcases hfail ⟨"", code, input.destinationUrl, hash, input.expiresAt, input.maxClicks⟩ with
    ⟨e, hne, hs⟩
  refine opens_nobody_statement hs fun told' => ?_
  have hother : (Err.db e).isUniqueViolation = false := by
    rw [Bool.eq_false_iff]
    exact fun h => hne ((isUniqueViolation_db e).mp h)
  show Opens (front D) Post told' ((nobody (if (Err.db e).isUniqueViolation = true then .ret none
    else .throw (.db e))).bind f)
  rw [hother]
  exact herr _ _

/-- A password is hashed, or there is none. -/
theorem opens_nobody_hash {plain : String} {k : String → Http β}
    (h : ∀ (told' : Told) hash, Opens (front D) Post told' (k hash)) :
    Opens (front D) Post told (.await (.nobody (.bcryptHash plain)) k) :=
  ⟨trivial, fun hash _ => h _ hash⟩

theorem opens_nobody_generateShortCode {f : String → Http β}
    (h : ∀ (told' : Told) code, Opens (front D) Post told' (f code)) :
    Opens (front D) Post told ((nobody generateShortCode).bind f) :=
  ⟨trivial, fun code _ => h _ code⟩

theorem opens_nobody_linkIdByCode {a : String} {f : List String → Http β}
    (h : ∀ (told' : Told) ids, Opens (front D) Post told' (f ids))
    (herr : ∀ told' e, Post told' (.error e)) :
    Opens (front D) Post told ((nobody (query (.linkIdByCode a))).bind f) := by
  refine ⟨trivial, fun r _ => ?_⟩
  cases r with
  | error e => exact herr _ _
  | ok ids => exact h _ ids

theorem opens_nobody_createGenerated {input : CreateLinkInput} {hash : Option String} {n : Nat}
    {f : Link → Http β} (herr : ∀ told' e, Post told' (.error e)) :
    Opens (front D) Post told ((nobody (createGenerated "" input hash n)).bind f) := by
  cases n with
  | zero => exact herr _ _
  | succ n =>
      simp only [createGenerated, Prog.bind_eq, nobody_bind, Prog.bind_assoc]
      exact opens_nobody_generateShortCode fun _ code => opens_nobody_insertLink herr

theorem opens_nobody_createAliased {a : String} {input : CreateLinkInput} {hash : Option String}
    {f : Link → Http β} (herr : ∀ told' e, Post told' (.error e)) :
    Opens (front D) Post told ((nobody (createAliased "" a input hash)).bind f) := by
  simp only [createAliased, Prog.bind_eq, nobody_bind, Prog.bind_assoc]
  refine opens_nobody_linkIdByCode (fun told' ids => ?_) herr
  cases ids with
  | cons id rest => exact herr _ _
  | nil =>
      simp only [List.head?_nil, nobody_bind, Prog.bind_assoc]
      exact opens_nobody_insertLink herr

/-- Whatever comes before the insert, the insert is refused. -/
theorem opens_nobody_insertion {alias? : Option String} {input : CreateLinkInput}
    {hash : Option String} {f : Link → Http β} (herr : ∀ told' e, Post told' (.error e)) :
    Opens (front D) Post told ((nobody (match alias? with
      | some customAlias => createAliased "" customAlias input hash
      | none => createGenerated "" input hash MAX_GENERATION_ATTEMPTS)).bind f) := by
  cases alias? with
  | some customAlias => exact opens_nobody_createAliased herr
  | none => exact opens_nobody_createGenerated herr

/-- The page of nobody is empty. -/
theorem opens_nobody_listLinks {countFirst : Bool} {options : ListLinksOptions}
    {f : ListLinksResult → Http β}
    (h : ∀ told' : Told, Opens (front D) Post told' (f { links := [], total := 0 }))
    (herr : ∀ told' e, Post told' (.error e)) :
    Opens (front D) Post told ((nobody (listLinks countFirst "" options)).bind f) := by
  have hrows : (∃ e, forNobody (.listLinks "" options.limit options.offset) = some (.error e)) ∨
      forNobody (.listLinks "" options.limit options.offset) = some (.ok []) := by
    simp only [forNobody]
    split_ifs
    · exact Or.inl ⟨_, rfl⟩
    · exact Or.inl ⟨_, rfl⟩
    · exact Or.inl ⟨_, rfl⟩
    · exact Or.inr rfl
  unfold listLinks
  cases countFirst with
  | true =>
      simp only [if_true, Prog.bind_eq, Prog.pure_eq, nobody_bind, Prog.bind_assoc]
      refine opens_nobody_query 0 rfl fun _ => opens_nobody_rows hrows (fun told' => ?_) herr
      exact h told'
  | false =>
      simp only [Bool.false_eq_true, if_false, Prog.bind_eq, Prog.pure_eq, nobody_bind,
        Prog.bind_assoc]
      refine opens_nobody_rows hrows (fun _ => ?_) herr
      refine opens_nobody_query 0 rfl fun told' => ?_
      exact h told'

/-- An update for nobody finds no link, if its values can be bound. -/
theorem opens_nobody_sendUpdate {linkId : String} {set : SetList} {f : Option Link → Http β}
    (h : ∀ told' : Told, Opens (front D) Post told' (f none))
    (herr : ∀ told' e, Post told' (.error e)) :
    Opens (front D) Post told ((nobody (sendUpdate "" linkId set)).bind f) := by
  have hrows : ∀ set a u values, (∃ e, forNobody (.updateLink set a u values) = some (.error e)) ∨
      forNobody (.updateLink set a u values) = some (.ok []) := by
    intro set a u values
    simp only [forNobody]
    cases values.findSome? SqlValue.bindError with
    | some e => exact Or.inl ⟨e, rfl⟩
    | none => exact Or.inr rfl
  unfold sendUpdate
  split_ifs
  · simp only [getLink, Prog.bind_eq, Prog.pure_eq, nobody_bind, Prog.bind_assoc]
    refine opens_nobody_rows (forNobody_linkById _ _) (fun told' => ?_) herr
    exact h told'
  · simp only [Prog.bind_eq, nobody_bind, Prog.bind_assoc]
    refine opens_nobody_rows (hrows _ _ _ _) (fun told' => ?_) herr
    exact h told'

theorem opens_nobody_updateLink {linkId : String} {input : UpdateLinkInput}
    {f : Option Link → Http β} (h : ∀ told' : Told, Opens (front D) Post told' (f none))
    (herr : ∀ told' e, Post told' (.error e)) :
    Opens (front D) Post told ((nobody (updateLink "" linkId input)).bind f) := by
  simp only [updateLink, Prog.bind_eq, nobody_bind, Prog.bind_assoc]
  rcases input.password with _ | _ | plain
  · exact opens_nobody_sendUpdate h herr
  · exact opens_nobody_sendUpdate h herr
  · exact opens_nobody_hash fun _ hash => opens_nobody_sendUpdate h herr

end Nobody

section Serving

variable {D : Deployment} {req : Request} {body : JsValue} {ep : Endpoint} {told : Told}

/-- What a request asks for, and how it sends the reply. -/
abbrev Ask : Type := Asked HttpOp HttpOp.Res Err Reply Call Thrown Sending

/-- A request to an endpoint asks for a call. -/
def AsksAt (D : Deployment) (req : Request) (body : JsValue) (ep : Endpoint) (a : Ask) : Prop :=
  ∃ send, AsksFor D req body a.told ep a.call send ∧ a.fin = finish send

/-- A program that serves requests to an endpoint. -/
abbrev Serves (D : Deployment) (req : Request) (body : JsValue) (ep : Endpoint) :
    Told → Http Sending → Prop :=
  Fronted (front D) (AsksAt D req body ep) (fun told => RefusedAt D req body told ep)

theorem serves_validator {schema : Schema} {target : ValidationTarget} {raw : JsValue}
    {f : JsValue → Http Sending} (hpart : (schema, target, raw) ∈ partsOf D req body ep)
    (h : ∀ now mid, validated schema target now raw = .ok mid →
      Serves D req body ep (⟨.api .dateNow, now⟩ :: told) (f mid)) :
    Serves D req body ep told ((api (makeValidator schema target raw)).bind f) :=
  fronted_bind _ _ (opens_validator h fun now e he =>
    .invalid schema target raw now e hpart List.mem_cons_self he)

/-- The second parse of a part that passed its validator. -/
theorem serves_parse {schema : Schema} {target : ValidationTarget} {raw mid : JsValue} {t : Nat}
    {f : JsValue → Http Sending} (hpart : (schema, target, raw) ∈ partsOf D req body ep)
    (hsaw : SawTime told t) (hmid : validated schema target t raw = .ok mid)
    (h : ∀ now out, parsed schema now mid = .ok out →
      Serves D req body ep (⟨.api .dateNow, now⟩ :: told) (f out)) :
    Serves D req body ep told ((api (parse schema mid)).bind f) :=
  fronted_bind _ _ (opens_parse h fun now e he => .unparsed schema target raw mid t now e hpart
    (List.mem_cons_of_mem _ hsaw) hmid List.mem_cons_self he)

/-- A part that is validated and parsed again refuses the request, or is taken. -/
theorem serves_part {schema : Schema} {target : ValidationTarget} {raw : JsValue}
    {f : JsValue → JsValue → Http Sending} (hpart : (schema, target, raw) ∈ partsOf D req body ep)
    (h : ∀ told' mid out, told ⊆ told' → TookPart schema target raw told' mid out →
      Serves D req body ep told' (f mid out)) :
    Serves D req body ep told ((api (makeValidator schema target raw)).bind
      (fun mid => (api (parse schema mid)).bind (f mid))) := by
  refine serves_validator hpart fun t mid hmid => ?_
  refine serves_parse hpart List.mem_cons_self hmid fun t' out hout => ?_
  exact h _ mid out (fun x hx => List.mem_cons_of_mem _ (List.mem_cons_of_mem _ hx))
    ⟨t, t', List.mem_cons_of_mem _ List.mem_cons_self, List.mem_cons_self, hmid, hout⟩

/-- Two parts are validated before either is parsed again. -/
theorem serves_parts {schema schema' : Schema} {target target' : ValidationTarget}
    {raw raw' : JsValue} {f : JsValue → JsValue → JsValue → JsValue → Http Sending}
    (hpart : (schema, target, raw) ∈ partsOf D req body ep)
    (hpart' : (schema', target', raw') ∈ partsOf D req body ep)
    (h : ∀ told' mid mid' out out', told ⊆ told' → TookPart schema target raw told' mid out →
      TookPart schema' target' raw' told' mid' out' →
        Serves D req body ep told' (f mid mid' out out')) :
    Serves D req body ep told ((api (makeValidator schema target raw)).bind fun mid =>
      (api (makeValidator schema' target' raw')).bind fun mid' =>
        (api (parse schema mid)).bind fun out => (api (parse schema' mid')).bind
          (f mid mid' out)) := by
  refine serves_validator hpart fun t₁ mid hmid => serves_validator hpart' fun t₂ mid' hmid' => ?_
  have hfirst : SawTime (⟨.api .dateNow, t₂⟩ :: ⟨.api .dateNow, t₁⟩ :: told) t₁ :=
    List.mem_cons_of_mem _ List.mem_cons_self
  have hsecond : SawTime (⟨.api .dateNow, t₂⟩ :: ⟨.api .dateNow, t₁⟩ :: told) t₂ :=
    List.mem_cons_self
  refine serves_parse hpart hfirst hmid fun t₃ out hout => ?_
  refine serves_parse hpart' (List.mem_cons_of_mem _ hsecond) hmid' fun t₄ out' hout' => ?_
  refine h _ mid mid' out out' (fun x hx => ?_) ⟨t₁, t₃, ?_, ?_, hmid, hout⟩
    ⟨t₂, t₄, ?_, ?_, hmid', hout'⟩
  · simp only [List.mem_cons, hx, or_true]
  all_goals simp only [SawTime, List.mem_cons, true_or, or_true]

theorem serves_limiter {l : Limiter} {key : String} {f : Unit → Http Sending}
    (hlimit : ∀ told', told ⊆ told' → LimitedBy D req body told' ep l key)
    (h : ∀ r : Except Unit Window, (∀ w, r = .ok w → w.count ≤ l.max) →
      Serves D req body ep (⟨.increment l.windowMs (l.storeKey key), r⟩ :: told) (f ())) :
    Serves D req body ep told ((limiter l key).bind f) :=
  fronted_bind _ _ (opens_limiter h fun w now hover => .limited l key w now
    (hlimit _ (List.subset_cons_of_subset _ (List.subset_cons_self _ _)))
    (List.mem_cons_of_mem _ List.mem_cons_self) hover List.mem_cons_self)

/-- The call itself, with what is sent for its reply. -/
theorem serves_call {α : Type} {call : Call} {send : Reply → Except Thrown Sending} {x : Api α}
    {g : α → Reply} {h : α → Http Sending} (hasks : AsksFor D req body told ep call send)
    (hbody : ClickScope.body D.P call = x.bind (fun a => .ret (g a)))
    (hwaits : (ClickScope.body D.P call).finished = false)
    (hsend : ∀ a, h a = .ended (send (g a))) :
    Serves D req body ep told ((api x).bind h) := by
  -- What comes after the call is what is sent for its reply.
  have hserve : (api x).bind h = (front D).serve (finish send) (x.bind (fun a => .ret (g a))) :=
    serve_bind (F := front D) (finish send) g ofService hsend (fun _ => rfl) x
  rw [← hbody] at hserve
  exact hserve ▸ Fronted.served ⟨call, finish send, told⟩ ⟨send, hasks, rfl⟩ hwaits

/-- A request that is accepted for an account is served, and one that is
    accepted for none makes no call. -/
theorem serves_authenticated {next : Option String → Http Sending} (hneeds : needsToken ep = true)
    (h : ∀ now sub userId, requireAuth D.P (seconds now) req.authorization = .ok sub →
      ownerOf D sub = some userId →
      Serves D req body ep (⟨.api .dateNow, now⟩ :: told) (next (some userId)))
    (hnone : ∀ told', Opens (front D) (fun _ => EndForNobody ep) told' (next none)) :
    Serves D req body ep told (authenticated D req next) := by
  refine fronted_bind _ _ (opens_authenticate (fun now sub hsub => ?_) fun now e he =>
    .unauthorized now e hneeds List.mem_cons_self he)
  show Serves D req body ep _ (next (ownerOf D sub))
  rcases howner : ownerOf D sub with _ | userId
  · refine fronted_opens _ _ (opens_told _ _ (List.Subset.refl _) ?_)
    exact opens_mono (fun _ r hr told' hsaw =>
      .anonymous now sub r hneeds (hsaw List.mem_cons_self) hsub howner hr) _ _ (hnone _)
  · exact h now sub userId hsub howner

theorem serves_signup : Serves D req body .signup told (endpointProgram D req body .signup) := by
  refine serves_limiter (fun _ _ => .signup) fun r hr => ?_
  simp only [postSignup, Prog.bind_eq, api_bind]
  refine serves_part List.mem_cons_self fun told' mid out hsub htook => ?_
  exact serves_call (g := Reply.session) (.signup mid out ⟨r, hsub List.mem_cons_self, hr⟩ htook)
    rfl rfl fun s => rfl

theorem serves_login : Serves D req body .login told (endpointProgram D req body .login) := by
  refine serves_limiter (fun _ _ => .login) fun r hr => ?_
  simp only [postLogin, Prog.bind_eq, api_bind]
  refine serves_part List.mem_cons_self fun told' mid out hsub htook => ?_
  exact serves_call (g := Reply.session) (.login mid out ⟨r, hsub List.mem_cons_self, hr⟩ htook)
    rfl rfl fun s => rfl

theorem serves_googleStart :
    Serves D req body .googleStart told (endpointProgram D req body .googleStart) := by
  simp only [endpointProgram, getGoogle, Prog.bind_eq, api_bind]
  exact serves_call (g := Reply.google) (.googleStart req.browser) rfl rfl fun r => rfl

theorem serves_googleCallback :
    Serves D req body .googleCallback told (endpointProgram D req body .googleCallback) := by
  simp only [endpointProgram, getGoogleCallback, Prog.bind_eq, api_bind]
  refine serves_part List.mem_cons_self fun told' mid out _ htook => ?_
  exact serves_call (g := Reply.google) (.googleCallback mid out htook) rfl rfl fun r => rfl

theorem serves_me : Serves D req body .me told (endpointProgram D req body .me) := by
  unfold endpointProgram
  refine serves_authenticated rfl (fun now sub userId hsub howner => ?_) fun told' => ?_
  · simp only [asOwner, getMe, Prog.bind_eq, api_bind]
    refine serves_call (g := Reply.account) (.me userId ⟨now, sub, ?_, hsub, howner⟩) rfl rfl
      fun user => ?_
    · exact List.mem_cons_self
    · cases user <;> rfl
  · simp only [asOwner, getMe, getUserById, Prog.bind_eq, Prog.pure_eq, nobody_bind,
      Prog.bind_assoc]
    refine opens_nobody_query [] rfl fun _ => ?_
    trivial

/-- The creation of a link, as a call: its operations, whatever it was asked with. -/
theorem createLink_waits (P : Platform) (userId : String) (input : CreateLinkInput) :
    (ClickScope.body P (.createLink userId input)).finished = false := by
  simp only [ClickScope.body, createLink, Prog.bind_eq]
  cases truthy input.password with
  | some plain => rfl
  | none =>
      simp only [hashGiven, Prog.pure_eq, Prog.ret_bind]
      cases truthy input.customAlias <;> rfl

theorem updateLink_waits (P : Platform) (userId linkId : String) (input : UpdateLinkInput) :
    (ClickScope.body P (.updateLink userId linkId input)).finished = false := by
  have hsend : ∀ s, ∃ op k, sendUpdate userId linkId s = .await op k := by
    intro s
    unfold sendUpdate
    split_ifs
    · exact ⟨_, _, rfl⟩
    · exact ⟨_, _, rfl⟩
  simp only [ClickScope.body, updateLink, Prog.bind_eq]
  rcases input.password with _ | _ | plain
  · simp only [hashField, Prog.pure_eq, Prog.ret_bind]
    rcases hsend (setListOf input none) with ⟨op, k, heq⟩
    rw [heq]
    rfl
  · simp only [hashField, Prog.pure_eq, Prog.ret_bind]
    rcases hsend (setListOf input (some none)) with ⟨op, k, heq⟩
    rw [heq]
    rfl
  · rfl

theorem serves_createLink :
    Serves D req body .createLink told (endpointProgram D req body .createLink) := by
  unfold endpointProgram
  refine serves_authenticated rfl (fun now sub userId hsub howner => ?_) fun told' => ?_
  · refine serves_limiter (fun told' hsaw => howner ▸
      .createLink now sub (hsaw List.mem_cons_self) hsub) fun r hr => ?_
    simp only [asOwner, asLink, postLink, Prog.bind_eq, Prog.pure_eq, api_bind, Prog.bind_assoc]
    refine serves_part List.mem_cons_self fun told' mid out hmore htook => ?_
    have hbears : Bears D req told' userId :=
      ⟨now, sub, hmore (List.mem_cons_of_mem _ List.mem_cons_self), hsub, howner⟩
    exact serves_call (g := Reply.created)
      (.createLink userId mid out hbears ⟨r, hmore List.mem_cons_self, hr⟩ htook) rfl
      (createLink_waits _ _ _) fun link => rfl
  · -- The limiter counts nobody under the address, and the insert is refused at the end.
    refine opens_bind _ _ (opens_limiter (fun r hr => ?_) fun _ _ _ => trivial)
    simp only [asOwner, asLink, postLink, Prog.bind_eq, Prog.pure_eq, nobody_bind, Prog.bind_assoc]
    refine opens_nobody_part (fun _ mid out => ?_) fun _ _ => trivial
    simp only [createLink, Prog.bind_eq, nobody_bind, Prog.bind_assoc]
    cases truthy (createInput out).password with
    | none => exact opens_nobody_insertion fun _ _ => trivial
    | some plain =>
        exact opens_nobody_hash fun _ hash => opens_nobody_insertion fun _ _ => trivial

theorem serves_listLinks :
    Serves D req body .listLinks told (endpointProgram D req body .listLinks) := by
  unfold endpointProgram
  refine serves_authenticated rfl (fun now sub userId hsub howner => ?_) fun told' => ?_
  · simp only [asOwner, asLink, getLinks, Prog.bind_eq, Prog.pure_eq, api_bind, Prog.bind_assoc]
    refine serves_part List.mem_cons_self fun told' mid out hmore htook => ?_
    refine serves_call (g := Reply.listed)
      (.listLinks userId mid out ⟨now, sub, hmore List.mem_cons_self, hsub, howner⟩ htook) rfl ?_
      fun result => rfl
    cases hfirst : req.countFirst <;> rfl
  · simp only [asOwner, asLink, getLinks, Prog.bind_eq, Prog.pure_eq, nobody_bind, Prog.bind_assoc]
    refine opens_nobody_part (fun _ mid out => ?_) fun _ _ => trivial
    exact opens_nobody_listLinks (fun _ => ⟨rfl, _, rfl, rfl, rfl⟩) fun _ _ => trivial

theorem serves_getLink (id : String) :
    Serves D req body (.getLink id) told (endpointProgram D req body (.getLink id)) := by
  unfold endpointProgram
  refine serves_authenticated rfl (fun now sub userId hsub howner => ?_) fun told' => ?_
  · simp only [asOwner, getOneLink, Prog.bind_eq, api_bind]
    refine serves_part List.mem_cons_self fun told' mid out hmore htook => ?_
    refine serves_call (g := Reply.link)
      (.getLink userId id mid out ⟨now, sub, hmore List.mem_cons_self, hsub, howner⟩ htook) rfl rfl
      fun link => ?_
    cases link <;> rfl
  · simp only [asOwner, getOneLink, Prog.bind_eq, nobody_bind]
    refine opens_nobody_part (fun _ mid out => ?_) fun _ _ => trivial
    simp only [getLink, Prog.bind_eq, Prog.pure_eq, nobody_bind, Prog.bind_assoc]
    refine opens_nobody_rows (forNobody_linkById _ _) (fun _ => ?_) fun _ _ => trivial
    trivial

theorem serves_linkStats (id : String) :
    Serves D req body (.linkStats id) told (endpointProgram D req body (.linkStats id)) := by
  unfold endpointProgram
  refine serves_authenticated rfl (fun now sub userId hsub howner => ?_) fun told' => ?_
  · simp only [asOwner, getLinkStats, Prog.bind_eq, api_bind]
    refine serves_parts List.mem_cons_self (List.mem_cons_of_mem _ List.mem_cons_self)
      fun told' mid mid' out out' hmore htook htook' => ?_
    -- The clock is read once more, for the start of the days that are counted.
    refine fronted_bind _ _ ⟨rfl, fun now' _ => ?_⟩
    have hbears : Bears D req (⟨.api .dateNow, now'⟩ :: told') userId :=
      ⟨now, sub, List.mem_cons_of_mem _ (hmore List.mem_cons_self), hsub, howner⟩
    have hlater : told' ⊆ ⟨.api .dateNow, now'⟩ :: told' := List.subset_cons_self _ _
    refine serves_call (g := Reply.stats)
      (.linkStats userId id mid out mid' out' now' hbears (htook.subset hlater)
        (htook'.subset hlater) List.mem_cons_self) rfl rfl fun stats => ?_
    cases stats <;> rfl
  · simp only [asOwner, getLinkStats, Prog.bind_eq, nobody_bind]
    refine opens_nobody_validator (fun _ mid => ?_) fun _ _ => trivial
    refine opens_nobody_validator (fun _ mid' => ?_) fun _ _ => trivial
    refine opens_nobody_parse (fun _ out => ?_) fun _ _ => trivial
    refine opens_nobody_parse (fun _ out' => ?_) fun _ _ => trivial
    refine opens_nobody_now fun _ now' => ?_
    -- The link is looked up before its clicks are counted, and is not found.
    simp only [getLinkClickStats, getLink, Prog.bind_eq, Prog.pure_eq, nobody_bind, Prog.bind_assoc]
    refine opens_nobody_rows (forNobody_linkById _ _) (fun _ => ?_) fun _ _ => trivial
    trivial

theorem serves_updateLink (id : String) :
    Serves D req body (.updateLink id) told (endpointProgram D req body (.updateLink id)) := by
  unfold endpointProgram
  refine serves_authenticated rfl (fun now sub userId hsub howner => ?_) fun told' => ?_
  · simp only [asOwner, asLink, patchLink, Prog.bind_eq, Prog.pure_eq, api_bind, Prog.bind_assoc]
    refine serves_parts List.mem_cons_self (List.mem_cons_of_mem _ List.mem_cons_self)
      fun told' mid mid' out out' hmore htook htook' => ?_
    refine serves_call (g := Reply.link)
      (.updateLink userId id mid out mid' out' ⟨now, sub, hmore List.mem_cons_self, hsub, howner⟩
        htook htook') rfl (updateLink_waits _ _ _ _) fun link => ?_
    cases link <;> rfl
  · simp only [asOwner, asLink, patchLink, Prog.bind_eq, Prog.pure_eq, nobody_bind, Prog.bind_assoc]
    refine opens_nobody_validator (fun _ mid => ?_) fun _ _ => trivial
    refine opens_nobody_validator (fun _ mid' => ?_) fun _ _ => trivial
    refine opens_nobody_parse (fun _ out => ?_) fun _ _ => trivial
    refine opens_nobody_parse (fun _ out' => ?_) fun _ _ => trivial
    exact opens_nobody_updateLink (fun _ => trivial) fun _ _ => trivial

theorem serves_deleteLink (id : String) :
    Serves D req body (.deleteLink id) told (endpointProgram D req body (.deleteLink id)) := by
  unfold endpointProgram
  refine serves_authenticated rfl (fun now sub userId hsub howner => ?_) fun told' => ?_
  · simp only [asOwner, deleteOneLink, Prog.bind_eq, Prog.pure_eq, api_bind]
    refine serves_part List.mem_cons_self fun told' mid out hmore htook => ?_
    refine serves_call (g := Reply.deleted)
      (.deleteLink userId id mid out ⟨now, sub, hmore List.mem_cons_self, hsub, howner⟩ htook) rfl
      rfl fun found => ?_
    cases found <;> rfl
  · simp only [asOwner, deleteOneLink, Prog.bind_eq, Prog.pure_eq, nobody_bind]
    refine opens_nobody_part (fun _ mid out => ?_) fun _ _ => trivial
    simp only [deleteLink, Prog.bind_eq, Prog.pure_eq, nobody_bind, Prog.bind_assoc]
    refine opens_nobody_rows (forNobody_deleteLink _ _) (fun _ => ?_) fun _ _ => trivial
    trivial

theorem serves_visit (shortCode : String) :
    Serves D req body (.visit shortCode) told (endpointProgram D req body (.visit shortCode)) := by
  simp only [endpointProgram, asRedirect, visitRoute, Prog.bind_eq, Prog.pure_eq, api_bind,
    Prog.bind_assoc]
  refine serves_part List.mem_cons_self fun told' mid out _ htook => ?_
  exact serves_call (g := Reply.response) (.visit shortCode mid out htook) rfl rfl fun r => rfl

theorem serves_unlock (shortCode : String) :
    Serves D req body (.unlock shortCode) told
      (endpointProgram D req body (.unlock shortCode)) := by
  refine serves_limiter (fun _ _ => .unlock shortCode) fun r hr => ?_
  simp only [asRedirect, unlockRoute, Prog.bind_eq, Prog.pure_eq, api_bind, Prog.bind_assoc]
  refine serves_parts List.mem_cons_self (List.mem_cons_of_mem _ List.mem_cons_self)
    fun told' mid mid' out out' hmore htook htook' => ?_
  exact serves_call (g := Reply.response)
    (.unlock shortCode mid out mid' out' ⟨r, hmore List.mem_cons_self, hr⟩ htook htook') rfl rfl
    fun r => rfl

/-- The health route only checks. -/
theorem opens_getHealthReport {Post : Told → Except Thrown HealthReport → Prop}
    (h : ∀ (database redis : Bool) (waiting : Except Unit Nat),
      Post (⟨.getWaitingCount, waiting⟩ :: ⟨.checkRedis, redis⟩ ::
          ⟨.checkDatabase, database⟩ :: told)
        (.ok (healthReport database redis waiting))) :
    Opens (front D) Post told getHealthReport :=
  ⟨trivial, fun database _ => ⟨trivial, fun redis _ => ⟨trivial, fun waiting _ =>
    h database redis waiting⟩⟩⟩

/-- Every endpoint makes the call it should, or none. -/
theorem serves_endpoint (D : Deployment) (req : Request) (body : JsValue) :
    ∀ ep, Serves D req body ep told (endpointProgram D req body ep)
  | .root => .refused _ (.ok (Sending.static .root)) .root
  | .docs => .refused _ (.ok (Sending.static .docs)) .docs
  | .openapi => .refused _ (.ok (Sending.static .openapi)) .openapi
  | .health => fronted_bind _ _ (opens_getHealthReport fun database redis waiting =>
      .refused _ (.ok (Sending.health (healthReport database redis waiting)))
        (.health database redis waiting (by simp) (by simp) (by simp)))
  | .signup => serves_signup
  | .login => serves_login
  | .googleStart => serves_googleStart
  | .googleCallback => serves_googleCallback
  | .me => serves_me
  | .createLink => serves_createLink
  | .listLinks => serves_listLinks
  | .getLink id => serves_getLink id
  | .linkStats id => serves_linkStats id
  | .updateLink id => serves_updateLink id
  | .deleteLink id => serves_deleteLink id
  | .visit shortCode => serves_visit shortCode
  | .unlock shortCode => serves_unlock shortCode
  | .undecodable =>
      .refused _ (.error (Thrown.framework (D.F.decodeError req.incoming.path))) .undecodable
  | .notFound => .refused _ (.error (ofService (.app (notFoundHandler req.incoming)))) .notFound

end Serving

section Refining

variable {D : Deployment}

/-- A job of the worker ends with nothing to send. -/
def sendDone : Reply → Except Thrown Sending := fun _ => .ok .noContent

/-- What a request or a job asks for: a request has got past the parser of its
    body and was dispatched, and a job is its own call. -/
def WorkAsks (D : Deployment) : Work → Told → Call → (Reply → Except Thrown Sending) → Prop
  | .request req, told, call, send =>
      ∃ body, corsMiddleware req.incoming = none ∧
        D.F.json req.incoming.contentType req.incoming.body = .ok body ∧
        AsksFor D req body told (dispatch (methodOf req.incoming.method) req.incoming.path) call
          send
  | .clickJob data, _, call, send => call = .processClickJob data ∧ send = sendDone
  | .cleanupJob, _, call, send => call = .sweepExpiredLinks ∧ send = sendDone

def asksOf (D : Deployment) (work : Work) (a : Ask) : Prop :=
  ∃ send, WorkAsks D work a.told a.call send ∧ a.fin = finish send

theorem fronted_mono {asks asks' : Ask → Prop}
    {refuses refuses' : Told → Except Thrown Sending → Prop}
    (h : ∀ a, asks a → asks' a) (hrefuses : ∀ told r, refuses told r → refuses' told r)
    {told : Told} {p : Http Sending} (hp : Fronted (front D) asks refuses told p) :
    Fronted (front D) asks' refuses' told p := by
  induction hp with
  | refused told r hr => exact .refused told r (hrefuses told r hr)
  | own told o k hown _ ih => exact .own told o k hown ih
  | served a ha hbody => exact .served a (h a ha) hbody

/-- Every request and every job makes one call at most. -/
theorem work_fronted (D : Deployment) :
    ∀ work, Fronted (front D) (asksOf D work) (RefusedWork D work) [] ((server D).body work) := by
  intro w
  cases w with
  | request req =>
      show Fronted (front D) (asksOf D (.request req)) (RefusedWork D (.request req)) []
        (handle D req)
      unfold handle
      cases hcors : corsMiddleware req.incoming with
      | some sent => exact .refused [] (.ok (Sending.plain sent)) (.preflight req [] sent hcors)
      | none =>
          rcases hjson : D.F.json req.incoming.contentType req.incoming.body with e | body
          · exact .refused [] (.error (Thrown.framework e)) (.unreadable req [] e hcors hjson)
          · refine fronted_mono (fun a ha => ?_) (fun told r hr =>
              .dispatched req told body r hcors hjson hr) (serves_endpoint D req body _)
            rcases ha with ⟨send, hasks, hfin⟩
            exact ⟨send, ⟨body, hcors, hjson, hasks⟩, hfin⟩
  | clickJob data =>
      have hserve : (server D).body (.clickJob data) = (front D).serve (finish sendDone)
          (body D.P (.processClickJob data)) :=
        serve_bind (F := front D) (finish sendDone) (fun _ => Reply.processed) ofService
          (fun _ => rfl) (fun _ => rfl) (processClickJob data)
      rw [hserve]
      exact .served ⟨Call.processClickJob data, finish sendDone, []⟩ ⟨sendDone, ⟨rfl, rfl⟩, rfl⟩ rfl
  | cleanupJob =>
      have hserve : (server D).body .cleanupJob = (front D).serve (finish sendDone)
          (body D.P .sweepExpiredLinks) :=
        serve_bind (F := front D) (finish sendDone) Reply.swept ofService (fun _ => rfl)
          (fun _ => rfl) sweepExpiredLinks
      rw [hserve]
      exact .served ⟨Call.sweepExpiredLinks, finish sendDone, []⟩ ⟨sendDone, ⟨rfl, rfl⟩, rfl⟩ rfl

end Refining

end ClickScope
