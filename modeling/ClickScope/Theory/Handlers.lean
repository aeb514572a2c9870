import ClickScope.Async.Wp
import ClickScope.Theory.Footprint

/-!
# The Redirect Handlers Run Alone

What the two redirect routes come to on the row when the cache does not answer.

With no entry for the code, the lookup reads the row, whatever Redis does about
the `GET` and the `SET`. `rowResult` is what the check for a live link then
comes to, and `visitResult` and `unlockResult` are what the handlers end with,
as functions of the tables, the clock and the request. Each function of the
route has its lemma, from the cache upward.

## Main definitions

* `rowResult`: Looking up a live link, on the row.
* `visitResult`, `unlockResult`: The two handlers, on the row.

## Theorems

* `liveLink_throws`, `visit_throws`, `unlock_throws`: What the routes throw.
* `lookup_run`, `liveLink_run`: The lookup.
* `visit_run`, `unlock_run`: The handlers.
* `exists_visit_run`: A visit is always answered.
-/

namespace ClickScope

open Async

theorem deadStateError_status {now : Nat} {link : RedirectLink} {e : AppError}
    (h : deadStateError now link = some e) : e.statusCode = 410 := by
  unfold deadStateError at h
  split_ifs at h <;> (rw [Option.some.injEq] at h; rw [← h]; rfl)

/-- The grant check throws on a malformed cookie value only. -/
theorem unlocked_error {P : Platform} {now : Nat} {req : VisitRequest} {link : RedirectLink}
    {e : Err} (h : unlocked P now req link = .error e) : e = .uriError := by
  simp only [unlocked, readCookie] at h
  split at h
  · rename_i e' hread
    rw [Except.error.injEq] at h
    subst h
    split at hread
    · cases hread
    · split at hread
      · cases hread
      · split at hread
        · exact (Except.error.inj hread).symm
        · cases hread
  · split at h <;> cases h

section Throws

variable {p : Err → Prop}

theorem query_throws (hdb : ∀ e, p (.db e)) (s : Stmt) : (query s).Throws p := by
  intro r
  cases r with
  | ok rows => trivial
  | error e => exact hdb e

/-- A lookup throws what its statement does, since what Redis does is caught. -/
theorem getLinkByShortCode_throws (hdb : ∀ e, p (.db e)) (shortCode : String) :
    (getLinkByShortCode shortCode).Throws p := by
  refine Prog.throws_bind (fun cached => ?_) _ (Prog.throws_tryCatch (fun _ => by trivial) _)
  cases cached with
  | found link => trivial
  | notFound =>
      refine Prog.throws_bind (fun rows => ?_) _ (query_throws hdb _)
      refine Prog.throws_bind (fun _ => by trivial) _ ?_
      cases rows.head?.map toRedirectLink <;> exact Prog.throws_tryCatch (fun _ => by trivial) _

/-- The check for a live link throws what the lookup does, or that the link is
    missing or dead. -/
theorem liveLink_throws (hdb : ∀ e, p (.db e))
    (happ : ∀ e : AppError, e.statusCode = 404 ∨ e.statusCode = 410 → p (.app e))
    (shortCode : String) : (liveLink shortCode).Throws p := by
  refine Prog.throws_bind (fun link => ?_) _ (getLinkByShortCode_throws hdb shortCode)
  cases link with
  | none => exact happ _ (Or.inl rfl)
  | some link =>
      refine Prog.throws_bind (fun now => ?_) _ (fun _ => trivial)
      rcases hdead : deadStateError now link with _ | e
      · trivial
      · exact happ e (Or.inr (deadStateError_status hdead))

/-- The handler throws what the lookup of its link does. -/
theorem unlock_throws (hdb : ∀ e, p (.db e))
    (happ : ∀ e : AppError, e.statusCode = 404 ∨ e.statusCode = 410 → p (.app e))
    (req : UnlockRequest) : (unlock req).Throws p := by
  refine Prog.throws_bind (fun link => ?_) _ (liveLink_throws hdb happ req.shortCode)
  cases truthy link.passwordHash with
  | none => trivial
  | some hash =>
      refine Prog.throws_bind (fun valid => ?_) _ (fun _ => trivial)
      cases valid with
      | false => trivial
      | true => exact fun _ => trivial

theorem recordAndRedirect_throws (req : VisitRequest) (link : RedirectLink) :
    (recordAndRedirect req link).Throws p := by
  refine Prog.throws_bind (fun clickId => ?_) _ (fun _ => trivial)
  exact Prog.throws_bind (fun _ => by trivial) _ (Prog.throws_tryCatch (fun _ => by trivial) _)

/-- A visit throws what the lookup of its link does, or that the value of its
    cookie does not decode. -/
theorem visit_throws (hdb : ∀ e, p (.db e))
    (happ : ∀ e : AppError, e.statusCode = 404 ∨ e.statusCode = 410 → p (.app e)) (P : Platform)
    (req : VisitRequest)
    (huri : ∀ e, readCookie req.cookie (cookieNameFor req.shortCode) = .error e → p e) :
    (visit P req).Throws p := by
  refine Prog.throws_bind (fun link => ?_) _ (liveLink_throws hdb happ req.shortCode)
  cases truthy link.passwordHash with
  | none => exact recordAndRedirect_throws req link
  | some hash =>
      refine Prog.throws_bind (fun now => ?_) _ (fun _ => trivial)
      rcases hopen : unlocked P now req link with e | b
      · -- The cookie is all that is read here, so the error is its own.
        refine huri e ?_
        unfold unlocked at hopen
        rcases hread : readCookie req.cookie (cookieNameFor req.shortCode) with e' | token
        · simp only [hread, Except.error.injEq] at hopen
          rw [hopen]
        · simp only [hread] at hopen
          cases htoken : truthy token <;> simp only [htoken, reduceCtorEq] at hopen
      · cases b with
        | false => trivial
        | true => exact recordAndRedirect_throws req link

end Throws

/-- What looking up a live link comes to on the row. -/
def rowResult (now : Nat) (shortCode : String) (db : Db) : Except Err RedirectLink :=
  match db.redirectLookup shortCode with
  | .error e => .error (.db e)
  | .ok rows =>
      match rows.head?.map toRedirectLink with
      | none => .error (.app (notFound "Link not found"))
      | some link =>
          match deadStateError now link with
          | some deadError => .error (.app deadError)
          | none => .ok link

section Handler

variable {P : Platform} {tid : Nat} {w v : World} {chs : List Choice}

/-- The end of a lookup, once the row is read and the cache filled. -/
theorem liveCheck_run {link : RedirectLink} {r : Except Err RedirectLink}
    (h : (dateNow.bind (fun now => match deadStateError now link with
      | some deadError => (.throw (.app deadError) : Api RedirectLink)
      | none => pure link)).seqRun (exec P tid) chs w = some (r, v)) :
    v.now = w.now ∧ r = match deadStateError w.now link with
      | some deadError => .error (.app deadError)
      | none => .ok link := by
  rcases Prog.seqRun_await _ h with ⟨ch, rest, now, u, _, hx, hrest⟩
  simp only [exec, Option.some.injEq, Prod.mk.injEq] at hx
  rcases hx with ⟨rfl, rfl⟩
  rcases hdead : deadStateError w.now link with _ | e
  · simp only [Prog.bind, hdead] at hrest
    exact ⟨congrArg (·.2.now) (Prog.seqRun_ret _ hrest).2,
      congrArg Prod.fst (Prog.seqRun_ret _ hrest).2⟩
  · simp only [Prog.bind, hdead] at hrest
    exact ⟨congrArg (·.2.now) (Prog.seqRun_throw _ hrest).2,
      congrArg Prod.fst (Prog.seqRun_throw _ hrest).2⟩

theorem getCachedLink_run {shortCode : String} {r : Except Err CachedLink}
    (hmiss : w.redis.get w.now (linkCacheKey shortCode) = none)
    (h : (getCachedLink shortCode).seqRun (exec P tid) chs w = some (r, v)) :
    v.now = w.now ∧ v.db = w.db ∧ r = .ok .notFound := by
  rcases Prog.seqRun_await _ h with ⟨ch, rest, raw, u, _, hx, hrest⟩
  -- A failure counts as a miss, and a served command finds nothing.
  have hret : (r, v) = (.ok .notFound, u) := by
    rcases raw with e | value
    · exact (Prog.seqRun_ret _ hrest).2
    · have hvalue := (Redis.exec_ok (exec_redis_inv hx).1.symm).1
      rw [Redis.reply, hmiss] at hvalue
      subst hvalue
      exact (Prog.seqRun_ret _ hrest).2
  rw [Prod.mk.injEq] at hret
  rcases hret with ⟨rfl, rfl⟩
  exact ⟨exec_now_eq hx, exec_db_eq (fun s => Op.noConfusion) hx, rfl⟩

theorem fillCache_run {shortCode : String} {link : Option RedirectLink} {r : Except Err Unit}
    (h : (fillCache shortCode link).seqRun (exec P tid) chs w = some (r, v)) :
    v.now = w.now ∧ r = .ok () := by
  -- Whether a row or a miss is stored, a failure is swallowed.
  have hset : ∀ value ex, ((redis (.set (linkCacheKey shortCode) value ex)).tryCatch
      (fun _ => .ret ())).seqRun (exec P tid) chs w = some (r, v) → v.now = w.now ∧ r = .ok () := by
    intro value ex hrun
    rcases Prog.seqRun_await _ hrun with ⟨ch, rest, x, u, _, hx, hrest⟩
    have hret : (r, v) = (.ok (), u) := by
      rcases x with e | a <;> exact (Prog.seqRun_ret _ hrest).2
    rw [Prod.mk.injEq] at hret
    rcases hret with ⟨rfl, rfl⟩
    exact ⟨exec_now_eq hx, rfl⟩
  cases link with
  | none => exact hset _ _ h
  | some link => exact hset _ _ h

/-- A lookup the cache does not answer reads the row. -/
theorem lookup_run {shortCode : String} {r : Except Err (Option RedirectLink)}
    (hmiss : w.redis.get w.now (linkCacheKey shortCode) = none)
    (h : (getLinkByShortCode shortCode).seqRun (exec P tid) chs w = some (r, v)) :
    v.now = w.now ∧ r = match w.db.redirectLookup shortCode with
      | .error e => .error (.db e)
      | .ok rows => .ok (rows.head?.map toRedirectLink) := by
  rcases Prog.seqRun_bind _ _ _ _ _ _ h with ⟨chs₁, chs₂, c, w₁, _, hcached, hrest⟩
  rcases getCachedLink_run hmiss hcached with ⟨hnow, hdb, rfl⟩
  rcases Prog.seqRun_await _ hrest with ⟨ch, rest, x, w₂, _, hx, hrest⟩
  rcases exec_db_inv hx with ⟨db, hread, rfl⟩
  simp only [Db.exec, Option.some.injEq, Prod.mk.injEq, hdb] at hread
  rcases hread with ⟨rfl, _⟩
  -- The statement is answered by the tables as they are.
  rcases hlook : w.db.redirectLookup shortCode with e | rows
  · rw [hlook] at hrest
    have hout := (Prog.seqRun_throw _ hrest).2
    rw [Prod.mk.injEq] at hout
    rcases hout with ⟨rfl, rfl⟩
    exact ⟨hnow, rfl⟩
  · rw [hlook] at hrest
    have hrun : ((fillCache shortCode (rows.head?.map toRedirectLink)).bind
        (fun _ => (.ret (rows.head?.map toRedirectLink) : Api (Option RedirectLink)))).seqRun
          (exec P tid) rest { w₁ with db := db } = some (r, v) := hrest
    rcases Prog.seqRun_bind _ _ _ _ _ _ hrun with ⟨chs₃, chs₄, u, w₃, _, hfill, hrest⟩
    rcases fillCache_run hfill with ⟨hnow', rfl⟩
    have hout := (Prog.seqRun_ret _ hrest).2
    rw [Prod.mk.injEq] at hout
    rcases hout with ⟨rfl, rfl⟩
    exact ⟨hnow'.trans hnow, rfl⟩

/-- A lookup the cache does not answer comes to what the row says. -/
theorem liveLink_run {shortCode : String} {r : Except Err RedirectLink}
    (hmiss : w.redis.get w.now (linkCacheKey shortCode) = none)
    (h : (liveLink shortCode).seqRun (exec P tid) chs w = some (r, v)) :
    v.now = w.now ∧ r = rowResult w.now shortCode w.db := by
  rcases Prog.seqRun_bind _ _ _ _ _ _ h with ⟨chs₁, chs₂, found, w₁, _, hlookup, hrest⟩
  rcases lookup_run hmiss hlookup with ⟨hnow, rfl⟩
  unfold rowResult
  revert hrest
  rcases w.db.redirectLookup shortCode with e | rows <;> intro hrest
  · rcases hrest with ⟨_, hout⟩
    rw [Prod.mk.injEq] at hout
    rcases hout with ⟨rfl, rfl⟩
    exact ⟨hnow, rfl⟩
  · -- No row is a 404, and the state of a row decides the rest.
    rcases hrow : rows.head?.map toRedirectLink with _ | link
    · simp only [hrow] at hrest ⊢
      have hout := (Prog.seqRun_throw _ hrest).2
      rw [Prod.mk.injEq] at hout
      rcases hout with ⟨rfl, rfl⟩
      exact ⟨hnow, rfl⟩
    · simp only [hrow] at hrest ⊢
      rcases liveCheck_run hrest with ⟨hnow', hr⟩
      rw [hnow] at hnow' hr
      exact ⟨hnow', hr⟩

/-- What goes on after a lookup the cache does not answer: it is given up with
    the error of the row, or it has the link of the row and no time has passed. -/
theorem liveLink_then {shortCode : String} {k : RedirectLink → Api Response}
    {r : Except Err Response} (hmiss : w.redis.get w.now (linkCacheKey shortCode) = none)
    (h : ((liveLink shortCode).bind k).seqRun (exec P tid) chs w = some (r, v)) :
    (∃ e, rowResult w.now shortCode w.db = .error e ∧ r = .error e) ∨
      ∃ link chs₂ u, rowResult w.now shortCode w.db = .ok link ∧ u.now = w.now ∧
        (k link).seqRun (exec P tid) chs₂ u = some (r, v) := by
  rcases Prog.seqRun_bind _ _ _ _ _ _ h with ⟨chs₁, chs₂, found, u, _, hlive, hrest⟩
  rcases liveLink_run hmiss hlive with ⟨hnow, rfl⟩
  revert hrest
  rcases rowResult w.now shortCode w.db with e | link <;> intro hrest
  · exact Or.inl ⟨e, rfl, (Prod.mk.inj hrest.2).1⟩
  · exact Or.inr ⟨link, chs₂, u, rfl, hnow, hrest⟩

/-- The end of a visit is a redirect, recorded or not. -/
theorem recordAndRedirect_run {req : VisitRequest} {link : RedirectLink} {r : Except Err Response}
    (h : (recordAndRedirect req link).seqRun (exec P tid) chs w = some (r, v)) :
    r = .ok (.redirect link.destinationUrl none) := by
  rcases Prog.seqRun_await _ h with ⟨ch, rest, clickId, u, _, _, hrest⟩
  rcases Prog.seqRun_await _ hrest with ⟨ch', rest', x, u', _, _, hrest'⟩
  rcases x with e | a <;> exact congrArg Prod.fst (Prog.seqRun_ret _ hrest').2

/-- What a visit comes to on the row. -/
def visitResult (P : Platform) (now : Nat) (req : VisitRequest) (db : Db) : Except Err Response :=
  match rowResult now req.shortCode db with
  | .error e => .error e
  | .ok link =>
      match truthy link.passwordHash with
      | none => .ok (.redirect link.destinationUrl none)
      | some _ =>
          match unlocked P now req link with
          | .error e => .error e
          | .ok false => .ok (.html 200 (renderInterstitial req.shortCode none))
          | .ok true => .ok (.redirect link.destinationUrl none)

theorem visit_run {req : VisitRequest} {r : Except Err Response}
    (hmiss : w.redis.get w.now (linkCacheKey req.shortCode) = none)
    (h : (visit P req).seqRun (exec P tid) chs w = some (r, v)) :
    r = visitResult P w.now req w.db := by
  unfold visitResult
  rcases liveLink_then hmiss h with ⟨e, hrow, hr⟩ | ⟨link, chs₂, u, hrow, hnow, hrest⟩
  · rw [hrow]
    exact hr
  · rw [hrow]
    simp only
    rcases hhash : truthy link.passwordHash with _ | hash
    · simp only [hhash] at hrest ⊢
      exact recordAndRedirect_run hrest
    · simp only [hhash] at hrest ⊢
      -- The grant is checked at the time of the lookup, since nothing moves the clock.
      rcases Prog.seqRun_await _ hrest with ⟨ch, rest, now, u, _, hx, hrest⟩
      simp only [exec, Option.some.injEq, Prod.mk.injEq] at hx
      rcases hx with ⟨rfl, rfl⟩
      rw [hnow] at hrest
      rcases hun : unlocked P w.now req link with e | _ | _
      · simp only [Prog.bind, hun] at hrest
        exact (Prod.mk.inj (Prog.seqRun_throw _ hrest).2).1
      · simp only [Prog.bind, hun] at hrest
        exact (Prod.mk.inj (Prog.seqRun_ret _ hrest).2).1
      · simp only [Prog.bind, hun] at hrest
        exact recordAndRedirect_run hrest

/-- What an unlock comes to on the row. -/
def unlockResult (P : Platform) (now : Nat) (req : UnlockRequest) (db : Db) : Except Err Response :=
  match rowResult now req.shortCode db with
  | .error e => .error e
  | .ok link =>
      match truthy link.passwordHash with
      | none => .ok (.redirect ("/" ++ req.shortCode) none)
      | some passwordHash =>
          if P.bcrypt.compare req.password passwordHash then
            .ok (.redirect ("/" ++ req.shortCode) (some
              { name := cookieNameFor req.shortCode,
                value := unlockToken P link.id (seconds now),
                maxAge := UNLOCK_COOKIE_MAX_AGE_MS, path := "/" ++ req.shortCode }))
          else .ok (.html 401 (renderInterstitial req.shortCode
            (some "Incorrect password. Please try again.")))

theorem unlock_run {req : UnlockRequest} {r : Except Err Response}
    (hmiss : w.redis.get w.now (linkCacheKey req.shortCode) = none)
    (h : (unlock req).seqRun (exec P tid) chs w = some (r, v)) :
    r = unlockResult P w.now req w.db := by
  unfold unlockResult
  rcases liveLink_then hmiss h with ⟨e, hrow, hr⟩ | ⟨link, chs₂, u, hrow, hnow, hrest⟩
  · rw [hrow]
    exact hr
  · rw [hrow]
    simp only
    rcases hhash : truthy link.passwordHash with _ | hash
    · simp only [hhash] at hrest ⊢
      exact (Prod.mk.inj (Prog.seqRun_ret _ hrest).2).1
    · simp only [hhash] at hrest ⊢
      rcases Prog.seqRun_await _ hrest with ⟨ch, rest, valid, u, _, hx, hrest⟩
      simp only [exec, Option.some.injEq, Prod.mk.injEq] at hx
      rcases hx with ⟨rfl, rfl⟩
      -- A password that verifies is answered with a grant.
      rcases hvalid : P.bcrypt.compare req.password hash with _ | _
      · simp only [hvalid, Prog.ret_bind, Bool.false_eq_true, if_false] at hrest ⊢
        exact (Prod.mk.inj (Prog.seqRun_ret _ hrest).2).1
      · simp only [hvalid, Prog.ret_bind, if_true] at hrest ⊢
        rcases Prog.seqRun_await _ hrest with ⟨ch', rest', token, u', _, hx', hrest'⟩
        simp only [exec, Option.some.injEq, Prod.mk.injEq] at hx'
        rcases hx' with ⟨rfl, rfl⟩
        rw [hnow] at hrest'
        exact (Prod.mk.inj (Prog.seqRun_ret _ hrest').2).1

/-- No operation of a visit ever has to wait. -/
theorem visitOp_enabled {code : String} (op : Op) (w : World)
    (h : lookupOp code op ∨ clickOp op) : ∃ ch r w', exec P tid op ch w = some (r, w') := by
  cases op with
  | redis c => exact ⟨{}, _, _, rfl⟩
  | dateNow => exact ⟨{}, _, _, rfl⟩
  | enqueue data => exact ⟨{}, _, _, rfl⟩
  -- Some id is still to be drawn.
  | randomUUID =>
      rcases exists_fresh w.drawn with ⟨x, hx⟩
      refine ⟨{ draw := x }, ?_⟩
      simp only [exec, if_neg hx]
      exact ⟨_, _, rfl⟩
  | db s =>
      cases s with
      | redirectLookup code => exact ⟨{}, _, _, rfl⟩
      | _ => exact (h.elim id id).elim
  | _ => exact (h.elim id id).elim

/-- A visit is always answered. -/
theorem exists_visit_run (P : Platform) (tid : Nat) (req : VisitRequest) (w : World) :
    ∃ chs r v, (visit P req).seqRun (exec P tid) chs w = some (r, v) :=
  Prog.exists_seqRun (fun op w h => visitOp_enabled op w h) _ (visit_only P req) w

end Handler

end ClickScope
