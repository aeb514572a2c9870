import ClickScope.Theory.RouteAnswers
import ClickScope.Theory.ServerRuns

/-!
# The Document and the Routes

How far the answers of the server are those its description lists.

A request that is dispatched to a described route has the method and the path of
its entry, up to one more slash at the end where the route is the one its router
is mounted at. The bearer scheme is listed for the routes that need a token, and
the others do not look at one. The status is one of the entry, but for four that
no entry lists: a body that cannot be read fails the two probes with 500, since
it is read for every method, so does the start of a login without Redis, and a
short code of more than 32 characters is refused with 400. And instead of any
success to a `GET` or `HEAD` the status is 304 if the client says that it has the
body already.

## Main definitions

* `templateSegments`: The path of an entry, as a pattern.
* `undocumented`: The statuses that are missing.
* `Unmodified`: The status of a body the client has.
* `AsDescribed`: An answer, against the entry of its route.

## Theorems

* `described_route`: A request has the method and the path of its entry.
* `open_handle`: A route without the bearer scheme looks at no token.
* `answers_described`: Every answer of the server is as it is described.
-/

namespace ClickScope

open Async Zod

section Routing

variable {H : Host}

/-- `firstMatch` finds a route that matches and handles the method. -/
theorem firstMatch_route {method : Method} {parts : List (List Char)} {rs : List Route}
    {e : Endpoint} (h : firstMatch method parts rs = e) (hfound : e ≠ .notFound)
    (hdecodes : e ≠ .undecodable) :
    ∃ r ∈ rs, handlesMethod r.method method = true ∧ (∃ params, r.endpoint params = e) ∧
      ∃ raw more, matchSegments r.pattern parts = some (raw, more) ∧ r.takes more = true := by
  induction rs with
  | nil => exact absurd h.symm hfound
  | cons r rest ih =>
      have hrest : firstMatch method parts rest = e → ∃ r' ∈ r :: rest,
          handlesMethod r'.method method = true ∧ (∃ params, r'.endpoint params = e) ∧
            ∃ raw more, matchSegments r'.pattern parts = some (raw, more) ∧
              r'.takes more = true := by
        intro h'
        rcases ih h' with ⟨r', hmem, hr'⟩
        exact ⟨r', List.mem_cons_of_mem _ hmem, hr'⟩
      rw [firstMatch] at h
      rcases hmatch : matchSegments r.pattern parts with _ | ⟨raw, more⟩
      · rw [hmatch] at h
        exact hrest h
      · simp only [hmatch] at h
        by_cases hpart : r.takes more = false
        · rw [if_pos hpart] at h
          exact hrest h
        · rw [if_neg hpart] at h
          rcases hparams : decodeParams raw with _ | params
          · simp only [hparams] at h
            exact absurd h.symm hdecodes
          · simp only [hparams] at h
            by_cases hmethod : handlesMethod r.method method = true
            · rw [if_pos hmethod] at h
              exact ⟨r, List.mem_cons_self, hmethod, ⟨params, h⟩, raw, more, hmatch,
                Bool.eq_true_of_not_eq_false hpart⟩
            · rw [if_neg hmethod] at h
              exact hrest h

/-- A segment of a path of the document: a parameter is a name in braces. -/
def templateSegment (part : List Char) : Segment :=
  if part.head? = some '\x7b' then .param else .literal (String.ofList part)

def templateSegments (path : String) : List Segment := (segments path).map templateSegment

/-- The paths that are mounts of their routers, which may have one more slash at
    the end. -/
def mountPaths : List String := ["/", "/api/links"]

/-- An entry is for the method and the path of a request. -/
def PathItem.isFor (item : PathItem) (method : Method) (path : String) : Prop :=
  handlesMethod (some item.method) method = true ∧
    ∃ raw more, matchSegments (templateSegments item.path) (segments path) = some (raw, more) ∧
      (more = [] ∨ item.path ∈ mountPaths ∧ more = [[]])

/-- A route that leads to an endpoint with an entry is the one of the entry. -/
theorem route_described {r : Route} (hr : r ∈ routes) {params : List String} {item : PathItem}
    (h : pathItem H (r.endpoint params) = some item) :
    r.method = some item.method ∧ r.pattern = templateSegments item.path ∧ r.isPrefix = false ∧
      (r.atMount = true → item.path ∈ mountPaths) := by
  simp only [routes, List.mem_cons, List.not_mem_nil, or_false] at hr
  rcases hr with rfl | rfl | rfl | rfl | rfl | rfl | rfl | rfl | rfl | rfl | rfl | rfl | rfl | rfl |
    rfl | rfl | rfl <;> cases h <;> refine ⟨rfl, ?_, rfl, ?_⟩ <;>
    dsimp only [route, mountRoute, paramRoute] <;> decide +kernel

theorem described_route {method : Method} {path : String} {item : PathItem}
    (h : pathItem H (dispatch method path) = some item) : item.isFor method path := by
  have hfound : dispatch method path ≠ .notFound := fun heq => by
    rw [heq] at h
    cases h
  have hdecodes : dispatch method path ≠ .undecodable := fun heq => by
    rw [heq] at h
    cases h
  rcases firstMatch_route rfl hfound hdecodes with
    ⟨r, hr, hmethod, ⟨params, he⟩, raw, more, hmatch, htakes⟩
  rw [dispatch, ← he] at h
  rcases route_described hr h with ⟨hm, hpattern, hprefix, hmount⟩
  rw [hm] at hmethod
  rw [hpattern] at hmatch
  refine ⟨hmethod, raw, more, hmatch, ?_⟩
  rw [Route.takes, hprefix, Bool.false_or, Bool.or_eq_true, Bool.and_eq_true, beq_iff_eq,
    beq_iff_eq] at htakes
  exact htakes.imp_right fun h => ⟨hmount h.1, h.2⟩

/-- The links are listed and created under their path with a slash more, too. -/
example : (dispatch .get "/api/links//", dispatch .post "/api/links//", dispatch .get "//")
    = (.listLinks, .createLink, .root) := by
  decide +kernel

end Routing

section Statuses

variable {D : Deployment}

/-- The statuses an entry lists. -/
def PathItem.statuses (item : PathItem) : List Nat := item.responses.map (·.1)

/-- The statuses a route has that its entry does not list. -/
def undocumented : Endpoint → List Nat
  | .root | .health | .googleStart => [500]
  | .visit _ => [400]
  | _ => []

/-- Every error of a route is listed with the schema of errors, but for those
    that are not listed at all. -/
theorem errorStatuses_listed {H : Host} {e : Endpoint} {item : PathItem}
    (h : pathItem H e = some item) {status : Nat} (hs : status ∈ errorStatuses e) :
    status ∈ undocumented e ∨ (status, errorResponse) ∈ item.responses := by
  cases e <;> cases h <;>
    simp only [errorStatuses, undocumented, List.mem_cons, List.not_mem_nil, or_false] at hs ⊢ <;>
    rcases hs with rfl | rfl | rfl | rfl | rfl <;> simp

theorem errorStatuses_ge {e : Endpoint} {status : Nat} (hs : status ∈ errorStatuses e) :
    400 ≤ status := by
  have hall : (errorStatuses e).all (400 ≤ ·) = true := by cases e <;> rfl
  exact of_decide_eq_true (List.all_eq_true.mp hall status hs)

/-- Whatever is sent has a status of the entry. -/
theorem shown_status {S : Standard D.H} {e : Endpoint} {sending : Sending} (h : Shown S e sending)
    {item : PathItem} (hitem : pathItem D.H e = some item) : sending.status ∈ item.statuses := by
  unfold PathItem.statuses
  cases h with
  | docs | openapi => cases hitem
  | health =>
      cases hitem
      simp only [Sending.status]
      split_ifs <;> simp
  | visit shortCode r h | unlock shortCode r h =>
      cases hitem
      cases h <;> simp [Sending.status, Response.statusCode]
  | _ =>
      cases hitem
      simp [Sending.status]

/-- What is thrown is answered with its status. -/
theorem thrown_answerStatus (A : Answering) (req : Request) (err : Thrown) :
    answerStatus A req (.error err) = err.status := rfl

/-- The status of an answer the client has the body of: 304 instead of a success
    the entry lists, to a `GET` or `HEAD` with an If-None-Match header. -/
structure Unmodified (req : Request) (item : PathItem) (status : Nat) : Prop where
  status : status = 304
  method : methodOf req.incoming.method = .get ∨ methodOf req.incoming.method = .head
  conditional : req.ifNoneMatch ≠ none
  instead : ∃ s ∈ item.statuses, 200 ≤ s ∧ s < 300

/-- Only to such a request an answer is not modified. -/
theorem notModified_unmodified {A : Answering} {req : Request} {sending : Sending}
    {item : PathItem} (h : notModified A req sending = true)
    (hlisted : sending.status ∈ item.statuses) : Unmodified req item 304 := by
  simp only [notModified, isFresh, Bool.and_eq_true, Bool.or_eq_true, beq_iff_eq,
    decide_eq_true_eq] at h
  -- Without the header nothing is taken for what the client has.
  rcases h with ⟨⟨⟨hmethod, hge⟩, hlt⟩, hbody⟩
  refine ⟨rfl, hmethod, fun hnone => ?_, sending.status, hlisted, hge, hlt⟩
  rw [hnone, A.freshness.unconditional] at hbody
  cases hbody

/-- The routes that need a token are those with the bearer scheme. -/
theorem needsToken_security {H : Host} {e : Endpoint} {item : PathItem}
    (h : pathItem H e = some item) : needsToken e = item.security := by
  cases e <;> cases h <;> rfl

/-- A route without the scheme does the same whatever token comes with the
    request. -/
theorem open_handle {req : Request} {item : PathItem}
    (h : pathItem D.H req.endpoint = some item) (hopen : item.security = false)
    (authorization : Option String) :
    handle D { req with authorization := authorization } = handle D req := by
  rw [← needsToken_security h] at hopen
  unfold handle
  unfold Request.endpoint at hopen
  simp only
  generalize dispatch (methodOf req.incoming.method) req.incoming.path = e at hopen
  cases e with
  | me | createLink | listLinks | getLink | linkStats | updateLink | deleteLink => cases hopen
  | _ => rfl

/-- An answer, against the entry of the route the request came to. -/
structure AsDescribed (D : Deployment) (req : Request) (item : PathItem) (status : Nat) : Prop where
  operation : item.isFor (methodOf req.incoming.method) req.incoming.path
  listed : status ∈ item.statuses ∨ status ∈ undocumented req.endpoint ∨
    Unmodified req item status
  secured : item.security = true → status < 400 → Bearing D req
  unsecured : item.security = false → ∀ authorization,
    handle D { req with authorization := authorization } = handle D req

end Statuses

section Runs

variable {D : Deployment}

theorem shownUser_any {H : Host} (u : AuthUser) : ShownUser (anyStandard H) u :=
  ⟨trivial, trivial, trivial, trivial⟩

theorem shownLink_any {H : Host} (l : Link) : ShownLink (anyStandard H) l :=
  ⟨trivial, trivial, trivial, fun _ _ => trivial, trivial, trivial⟩

/-- In any environment at all the server keeps to the agreement that asks for
    nothing. -/
theorem server_honours_any (D : Deployment) :
    Honours (server D) Policy.free (agreedHttp (anyStandard D.H))
      (fun w => DbShown (anyStandard D.H) w.app.db) := by
  refine (server_honours D (anyStandard D.H)).under fun st i call op ch _ => ⟨trivial, ?_⟩
  have happ : ∀ op, credibleChoice (anyStandard D.H) op ch := by
    intro op
    cases op with
    | db s => cases s <;> trivial
    | verifyIdToken idToken => exact fun _ _ _ _ => trivial
    | _ => trivial
  cases op with
  | api op => exact happ op
  | nobody op => exact happ op
  | _ => trivial

/-- Every answer of the server to a request for a described route is as it is
    described. -/
theorem answers_described (D : Deployment) (A : Answering) (w₀ : ServerWorld) (c : ServerSite)
    (hc : Run (server D) Policy.free w₀ c) (i : Nat) (t : ServerTask) (req : Request)
    (item : PathItem) (r : Except Thrown Sending) (ht : c.threads[i]? = some t)
    (hcall : t.call = .request req) (hcors : corsMiddleware req.incoming = none)
    (hitem : pathItem D.H req.endpoint = some item) (hr : t.result = some r) :
    AsDescribed D req item (answerStatus A req r) := by
  have h₀ : DbShown (anyStandard D.H) w₀.app.db :=
    ⟨fun u _ => shownUser_any _, fun l _ => shownLink_any _, fun t _ b _ => shownLink_any _⟩
  have hends := run_ends (server_honours_any D) (work_meets (anyStandard D.H)) h₀ hc ht hr
  rw [hcall] at hends
  have hsecurity := needsToken_security hitem
  refine ⟨described_route hitem, ?_, fun hsecured hlow => ?_, fun hopen => open_handle hitem hopen⟩
  · rcases hends with ⟨sending, rfl, hsent⟩ | ⟨err, rfl, hthrown⟩
    · -- What is sent has a listed status, or 304 in place of it.
      have hlisted := shown_status (hsent hcors).1 hitem
      rw [answerStatus]
      by_cases hfresh : notModified A req sending = true
      · rw [if_pos hfresh]
        exact Or.inr (Or.inr (notModified_unmodified hfresh hlisted))
      · rw [if_neg hfresh]
        exact Or.inl hlisted
    · rw [thrown_answerStatus]
      rcases errorStatuses_listed hitem (hthrown hcors) with hmissing | hlisted
      · exact Or.inr (Or.inl hmissing)
      · exact Or.inl (List.mem_map.mpr ⟨_, hlisted, rfl⟩)
  · rcases hends with ⟨sending, rfl, hsent⟩ | ⟨err, rfl, hthrown⟩
    · exact (hsent hcors).2 (hsecurity.trans hsecured)
    · -- An error has no status below 400.
      rw [thrown_answerStatus] at hlow
      exact absurd hlow (Nat.not_lt.mpr (errorStatuses_ge (hthrown hcors)))

/-- Clients have any body, by an If-None-Match that says so, and no other. -/
def sampleAnswering : Answering :=
  { nodeEnv := .test, describe := fun _ => "", requestId := "", latencies := ⟨0, 0, 0⟩,
    freshness :=
      { hasBody := fun ifNoneMatch cacheControl _ =>
          decide (ifNoneMatch = some "*") && cacheControl.isNone
        unconditional := fun _ _ => rfl } }

/-- The endpoint a thread's request came to, and the status it was answered
    with. -/
def answeredStatus (c : ServerSite) (i : Nat) : Option (Endpoint × Nat) :=
  match c.threads[i]? with
  | some t =>
      match t.call, t.result with
      | .request req, some r =>
          if corsMiddleware req.incoming = none then
            some (req.endpoint, answerStatus sampleAnswering req r)
          else none
      | _, _ => none
  | none => none

theorem answeredStatus_inv {c : ServerSite} {i : Nat} {e : Endpoint} {status : Nat}
    (h : answeredStatus c i = some (e, status)) :
    ∃ t req r, c.threads[i]? = some t ∧ t.call = .request req ∧
      corsMiddleware req.incoming = none ∧ t.result = some r ∧ req.endpoint = e ∧
      answerStatus sampleAnswering req r = status := by
  unfold answeredStatus at h
  split at h
  · rename_i t ht
    split at h
    · rename_i req r hcall hr
      split_ifs at h with hcors
      rw [Option.some.injEq, Prod.mk.injEq] at h
      exact ⟨t, req, r, ht, hcall, hcors, hr, h.1, h.2⟩
    · cases h
  · cases h

/-- The body of a request that is cut off, sent to a probe. -/
def brokenProbe (path : String) : Incoming :=
  { brokenLogin with method := "GET", path := path, originalUrl := path }

def getRequest (path : String) : Incoming :=
  { strayVisit with path := path, originalUrl := path }

def longCode : String := "aaaaaaaaaaaaaaaaaaaaaaaaaaaaaaaaa"

/-- Two probes with a body that is cut off, the start of a login while Redis is
    away, a visit to a short code that is too long, and a probe by a client that
    has the body. -/
def unlisted : List (Endpoint × Nat) :=
  [(.root, 500), (.health, 500), (.googleStart, 500), (.visit longCode, 400), (.root, 304)]

/-- None of the statuses that are not listed is there in vain. -/
theorem answers_described_unlisted : ∃ c : ServerSite,
    Run (server sampleDeployment) Policy.free sampleServerWorld c ∧
    ∀ p ∈ unlisted, ∃ req item, req.endpoint = p.1 ∧
      pathItem sampleDeployment.H p.1 = some item ∧ p.2 ∉ item.statuses ∧
      AsDescribed sampleDeployment req item p.2 := by
  have hrun := exists_run (server sampleDeployment) sampleServerWorld
    [.spawn (.request (bareRequest (brokenProbe "/"))),
      .spawn (.request (bareRequest (brokenProbe "/health"))),
      .spawn (.request (bareRequest (getRequest "/api/auth/google"))), .run 2 {},
      .run 2 { fault := .lost },
      .spawn (.request (bareRequest (getRequest ("/" ++ longCode)))), .run 3 {},
      .spawn (.request { bareRequest (getRequest "/") with ifNoneMatch := some "*" })]
    (fun c => decide ((List.range 5).map (answeredStatus c) = unlisted.map some))
    (by decide +kernel)
  rcases hrun with ⟨c, hc, hp⟩
  refine ⟨c, hc, fun p hmem => ?_⟩
  have hanswered : some p ∈ (List.range 5).map (answeredStatus c) := by
    rw [of_decide_eq_true hp]
    exact List.mem_map_of_mem hmem
  rcases List.mem_map.mp hanswered with ⟨i, _, hi⟩
  rcases answeredStatus_inv hi with ⟨t, req, r, ht, hcall, hcors, hr, he, hstatus⟩
  have hitem : ∃ item, pathItem sampleDeployment.H p.1 = some item ∧ p.2 ∉ item.statuses := by
    simp only [unlisted, List.mem_cons, List.not_mem_nil, or_false] at hmem
    rcases hmem with rfl | rfl | rfl | rfl | rfl <;>
      exact ⟨_, rfl, by simp [PathItem.statuses]⟩
  rcases hitem with ⟨item, hitem, hnot⟩
  refine ⟨req, item, he, hitem, hnot, ?_⟩
  rw [← he] at hitem
  rw [← hstatus]
  exact answers_described sampleDeployment sampleAnswering sampleServerWorld c hc i t req item r ht
    hcall hcors hitem hr

end Runs

end ClickScope
