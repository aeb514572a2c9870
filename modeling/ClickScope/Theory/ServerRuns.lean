import ClickScope.Theory.MalformedRequests
import ClickScope.Theory.Requests
import ClickScope.Theory.SecondParse
import ClickScope.Theory.UnlockBudgets

/-!
# Runs of the Server

What holds of all runs of the calls holds of all runs of the server: whatever
the middleware does with a request, and whichever of the limiters' commands
fail, the database, Redis and the queue see a run of the calls. A request makes
one call at most, the one its endpoint is for, with the arguments its validators
left, and only after it was told what lets it pass. If it ends without a call, it
was refused for a reason it was told, so a request that is let pass makes its
call.

A call is not started before its request. A call that ended before another one
was started did so in the run of the calls as well.

## Main definitions

* `Fulfils`: What a request has to do with its call.
* `Implements`: What a run of the server has to do with the run of its calls.

## Theorems

* `http_refines`: Every run of the server is a run of its calls.
* `letPass_calls`: A request that is let pass makes its call.
-/

namespace ClickScope

open Async Zod FixedWindow

/-- A configuration of the server. -/
abbrev ServerSite := Config HttpOp HttpOp.Res Thrown Sending Work Choice ServerWorld

/-- A request or job that was started. -/
abbrev ServerTask := Thread HttpOp HttpOp.Res Thrown Sending Work

/-- An event of the server. -/
abbrev ServerEvent := Event HttpOp HttpOp.Res Work Choice ServerWorld

/-- A thread of the server and a thread of the calls: either the request made no
    call, the other thread did nothing, and it ends only with what it was refused
    with, or it made just the call it should, once its own operations had told it
    what lets it pass, and ends with what becomes of the reply. -/
def Fulfils (D : Deployment) (c : ServerSite) (d : Site) (i : Nat) (u : ServerTask) (t : Task) :
    Prop :=
  (d.state.mine i = [] ∧ t.ended = none ∧
    ∀ r, u.result = some r → RefusedWork D u.call (trace (c.state.mine i)) r) ∨
  ∃ told send, told <:+ trace (c.state.mine i) ∧ (∀ x ∈ told, ownOp x.1) ∧
    WorkAsks D u.call told t.call send ∧ u.result = t.result.map (finish send)

/-- A run of the server and a run of the calls it makes: in the same world, with
    the same events, except for those that are the server's own, and with
    threads that start and end in the same order. -/
structure Implements (D : Deployment) (c : ServerSite) (d : Site) : Prop where
  world : d.state.world = c.state.world.app
  size : d.threads.length = c.threads.length
  events : ∃ l, l.Sublist c.state.log ∧ List.Forall₂ (front D).Echo l d.state.log ∧
    ∀ e ∈ c.state.log, e ∈ l ∨ ownOp e.op
  threads : ∀ (i : Nat) (u : ServerTask) (t : Task), c.threads[i]? = some u →
    d.threads[i]? = some t → t.alive = u.alive ∧ Fulfils D c d i u t
  order : ∀ (i j : Nat) (u v : ServerTask) (s t : Task) (m : Nat), c.threads[i]? = some u →
    c.threads[j]? = some v → d.threads[i]? = some s → d.threads[j]? = some t → s.ended = some m →
      ∃ n, u.ended = some n ∧ (n ≤ v.born → m ≤ t.born)

section Refinement

variable {D : Deployment} {c : ServerSite} {d : Site}
  {asked : Nat → Option Ask} {choose : Nat → Call} {l : List ServerEvent}

theorem before_mono {n m : Nat} (h : n ≤ m) : before l n ≤ before l m :=
  List.countP_mono_left fun e _ he => by
    rw [decide_eq_true_eq] at he ⊢
    omega

/-- A thread that waits has not moved. -/
theorem behind_still (h : Behind (front D) asked choose l c d) {i : Nat}
    (hstill : ∀ e ∈ l, e.tid ≠ i) : d.state.mine i = [] := by
  refine List.filter_eq_nil_iff.mpr fun e he heq => ?_
  rcases echo_front h.echo e he with ⟨e', he', hecho⟩
  rw [beq_iff_eq, hecho.tid] at heq
  exact hstill e' he' heq

/-- A request that has not made a call has not ended, or was refused. -/
theorem fronted_refused {asks : Ask → Prop} {refuses : Told → Except Thrown Sending → Prop}
    {told : Told} {p : Http Sending} (h : Fronted (front D) asks refuses told p) :
    ∀ r, p.result = some r → refuses told r := by
  intro r hr
  cases h with
  | refused _ r' hr' =>
      rw [ended_result, Option.some.injEq] at hr
      exact hr ▸ hr'
  | own _ o k _ _ => cases hr
  | served a _ hbody =>
      -- A call that was only just made has not ended.
      rw [Front.serve_result] at hr
      cases hp : body D.P a.call with
      | await op k =>
          have hp' : (clickScope D.P).body a.call = .await op k := hp
          rw [hp'] at hr
          cases hr
      | ret x =>
          have hp' : (clickScope D.P).body a.call = .ret x := hp
          rw [hp'] at hbody
          cases hbody
      | throw e =>
          have hp' : (clickScope D.P).body a.call = .throw e := hp
          rw [hp'] at hbody
          cases hbody

theorem implements_of_behind (hf : Forward (front D) (asksOf D) (RefusedWork D) asked l c)
    (h : Behind (front D) asked choose l c d) : Implements D c d where
  world := h.world
  size := h.size
  events := ⟨l, hf.sub, h.echo, hf.own⟩
  threads := by
    intro i u t hu ht
    have hface := h.facing i u t hu ht
    refine ⟨hface.alive, ?_⟩
    cases hasked : asked i with
    | none =>
        rcases hf.waits i u hu hasked with ⟨hstill, hfront⟩
        exact Or.inl ⟨behind_still h hstill, (hface.waits hasked).2, fronted_refused hfront⟩
    | some a =>
        rcases hf.asks i u a hu hasked with ⟨⟨send, hasks, hfin⟩, htold, hown⟩
        have hcall : t.call = a.call := by
          rw [hface.call, hasked]
          rfl
        refine Or.inr ⟨a.told, send, htold, hown, hcall ▸ hasks, ?_⟩
        have hserve := (hface.serves a hasked).1
        rw [hfin] at hserve
        rw [Thread.result, hserve, Front.serve_result]
        rfl
  order := by
    intro i j u v s t m hu hv hs ht hended
    have hface := h.facing i u s hu hs
    cases hasked : asked i with
    | none =>
        rw [(hface.waits hasked).2] at hended
        cases hended
    | some a =>
        rw [(hface.serves a hasked).2] at hended
        rcases Option.map_eq_some_iff.mp hended with ⟨n, hn, rfl⟩
        refine ⟨n, hn, fun hle => ?_⟩
        rw [(h.facing j v t hv ht).born]
        exact before_mono hle

/-- A run of the calls behind a run of the server. -/
theorem exists_implements {w₀ : ServerWorld} (hc : Run (server D) Policy.free w₀ c) :
    ∃ d : Site, Run (clickScope D.P) Policy.free w₀.app d ∧ Implements D c d := by
  rcases exists_behind (F := front D) (work_fronted D) hc with ⟨asked, l, hf, hbehind⟩
  rcases hbehind (fun _ => .sweepExpiredLinks) (fun _ => rfl) with ⟨d, hd, hb⟩
  exact ⟨d, hd, implements_of_behind hf hb⟩

/-- A request that has ended, and that nothing it was told stands in the way of,
    has made the call its endpoint is for, and ended with what becomes of the
    reply. -/
theorem letPass_calls {w₀ : ServerWorld} (hc : Run (server D) Policy.free w₀ c) {i : Nat}
    {u : ServerTask} (hu : c.threads[i]? = some u) {req : Request} (hcall : u.call = .request req)
    (hcors : corsMiddleware req.incoming = none) {body : JsValue}
    (hbody : D.F.json req.incoming.contentType req.incoming.body = .ok body)
    (hpass : LetPass D req body (trace (c.state.mine i))
      (dispatch (methodOf req.incoming.method) req.incoming.path))
    {r : Except Thrown Sending} (hr : u.result = some r) :
    ∃ d : Site, Run (clickScope D.P) Policy.free w₀.app d ∧
      ∃ (t : Task) (told : Told) (send : Reply → Except Thrown Sending) (reply : Except Err Reply),
        d.threads[i]? = some t ∧
        AsksFor D req body told (dispatch (methodOf req.incoming.method) req.incoming.path) t.call
          send ∧
        t.result = some reply ∧ r = finish send reply := by
  rcases exists_implements hc with ⟨d, hd, himpl⟩
  have hlt : i < d.threads.length := himpl.size.symm ▸ (List.getElem?_eq_some_iff.mp hu).1
  have ht : d.threads[i]? = some d.threads[i] := List.getElem?_eq_getElem hlt
  rcases (himpl.threads i u _ hu ht).2 with ⟨_, _, hrefused⟩ | ⟨told, send, _, _, hasks, hres⟩
  · -- The reasons to refuse it are all excluded.
    have hwhy := hrefused r hr
    rw [hcall] at hwhy
    cases hwhy with
    | preflight _ _ sent hsent =>
        rw [hcors] at hsent
        cases hsent
    | unreadable _ _ e _ he =>
        rw [hbody] at he
        cases he
    | dispatched _ _ body' _ _ hbody' hat =>
        rw [hbody, Except.ok.injEq] at hbody'
        exact absurd (hbody' ▸ hat) (letPass_not_refused hpass r)
  · rw [hcall] at hasks
    rcases hasks with ⟨body', _, hbody', hasks⟩
    rw [hbody, Except.ok.injEq] at hbody'
    rw [hr] at hres
    rcases Option.map_eq_some_iff.mp hres.symm with ⟨reply, hreply, hfin⟩
    exact ⟨d, hd, _, told, send, reply, ht, hbody' ▸ hasks, hreply, hfin.symm⟩

/-- Every run of the server, with its middleware, its limiters and its errors, is
    a run of the calls it makes. -/
theorem http_refines (D : Deployment) (w₀ : ServerWorld) (c : ServerSite)
    (hc : Run (server D) Policy.free w₀ c) :
    ∃ d : Site, Run (clickScope D.P) Policy.free w₀.app d ∧ Implements D c d :=
  exists_implements hc

def sampleLimits : RateLimits :=
  { toRateLimitConfig := tightConfig, RATE_LIMIT_AUTH_WINDOW_SECONDS := 900,
    RATE_LIMIT_AUTH_MAX := 5, RATE_LIMIT_LINKS_WINDOW_SECONDS := 900, RATE_LIMIT_LINKS_MAX := 5,
    auth_window_pos := by decide, auth_max_pos := by decide, links_window_pos := by decide,
    links_max_pos := by decide }

def sampleDeployment : Deployment :=
  { P := samplePlatform, H := sampleHost, F := sampleFramework, G := sampleKeys,
    limits := sampleLimits, otherSub := none }

def sampleServerWorld : ServerWorld := { app := emptyWorld, hits := fun _ => none, waiting := 0 }

/-- A request of a client that sends nothing but a path and a body. -/
def bareRequest (incoming : Incoming) : Request :=
  { incoming := incoming, ip := "1.2.3.4", authorization := none, cookie := none, referrer := none,
    userAgent := none, query := .object [], countFirst := true, browser := 0 }

/-- A visit to a link that is not there. -/
def strayVisit : Incoming :=
  { method := "GET", path := "/c", originalUrl := "/c", requestId := none, contentType := none,
    body := none }

/-- A login whose body is cut off, and a visit to a link that is not there. -/
theorem http_refines_stray : ∃ c : ServerSite,
    Run (server sampleDeployment) Policy.free sampleServerWorld c ∧
    (c.resultOf 0).isSome = true ∧ (c.resultOf 1).isSome = true ∧
    ∃ d : Site, Run (clickScope samplePlatform) Policy.free emptyWorld d ∧
      Implements sampleDeployment c d := by
  have hrun := exists_run (server sampleDeployment) sampleServerWorld
    [.spawn (.request (bareRequest brokenLogin)), .spawn (.request (bareRequest strayVisit)),
      .run 1 {}, .run 1 {}, .run 1 {}, .run 1 {}, .run 1 {}]
    (fun c => (c.resultOf 0).isSome && (c.resultOf 1).isSome) (by decide +kernel)
  rcases hrun with ⟨c, hc, hp⟩
  rw [Bool.and_eq_true] at hp
  exact ⟨c, hc, hp.1, hp.2, http_refines sampleDeployment sampleServerWorld c hc⟩

end Refinement

end ClickScope
