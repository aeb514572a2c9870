import ClickScope.Async.Rely
import ClickScope.Theory.Footprint
import ClickScope.Theory.UnlockKeys
import ClickScope.Theory.VisitOutcomes

/-!
# Budgets of Unlock Attempts

In every interleaving of unlock requests, a client has at most so many password
verifications for a short code in each window as the configuration says, and no
request is refused because of other clients or codes.

A request has its hit counted in one step, and what it does then depends on
the number it was given alone. So the bound is one of the store: the numbers of
a window are counted up, and at most `max` of them are small enough. That a
request has one hit and at most one verification, and this one only with a
small number, is what each program owes; nothing is asked of the order of the
requests, of the rest of the service, or of the time a request takes.

A verification belongs to the window its request was counted in.

## Main definitions

* `hitOf`, `isVerification`: What the history tells of a request.
* `LimiterInv`, `limiting`: The invariant, and the protocol of the pool.
* `attempts`, `verifications`: The hits and the verifications of a client, a
  code and a window.
* `Budgeted`: What the requests of a history can rely on.

## Theorems

* `unlockRoute_once`: The handler verifies a password at most once.
* `limiting_sound`: The protocol is sound.
* `verifications_le`: The bound on the verifications of a window.
* `refused_crowded`: Who is refused.
* `unlock_budgets`: The budgets are per client and code.
-/

namespace ClickScope

open Async Zod FixedWindow

/-- One operation in the history of the requests. -/
abbrev LimitedEv := Event LimitedOp LimitedOp.Res UnlockPost Choice LimitedWorld

abbrev LimitedHist := State LimitedOp LimitedOp.Res UnlockPost Choice LimitedWorld

/-- The hit an event has counted. -/
def hitOf : LimitedEv → Option (Hit String)
  | ⟨_, _, _, .increment key, _, w, _⟩ => some ⟨key, w⟩
  | ⟨_, _, _, .api _, _, _, _⟩ => none

def verifies : Op → Prop
  | .bcryptCompare _ _ => True
  | _ => False

def isVerification (e : LimitedEv) : Bool :=
  match e.op with
  | .api (.bcryptCompare _ _) => true
  | _ => false

section Once

theorem liveLink_quiet (shortCode : String) :
    (liveLink shortCode).Only (fun op => ¬ verifies op) := by
  refine liveLink_only shortCode (fun op hop => ?_) (fun h => h)
  cases op with
  | bcryptCompare plain hash => exact fun _ => hop
  | _ => exact fun h => h

/-- The handler verifies a password at most once. -/
theorem unlock_once (req : UnlockRequest) : (unlock req).Once verifies := by
  refine Prog.once_bind (fun link => ?_) _ (liveLink_quiet req.shortCode)
  cases truthy link.passwordHash with
  | none => trivial
  | some hash =>
      refine Or.inl ⟨trivial, fun valid => ?_⟩
      cases valid with
      | false => trivial
      | true => exact ⟨fun h => h, fun _ => trivial⟩

theorem unlockRoute_once (shortCode : String) (body : JsValue) :
    (unlockRoute shortCode body).Once verifies := by
  have hquiet : ¬ verifies .dateNow := fun h => h
  refine Prog.once_bind (fun params => ?_) _ (makeValidator_only hquiet _)
  refine Prog.once_bind (fun validBody => ?_) _ (makeValidator_only hquiet _)
  refine Prog.once_bind (fun parsedParams => ?_) _ (parse_only hquiet _)
  refine Prog.once_bind (fun parsedBody => ?_) _ (parse_only hquiet _)
  exact unlock_once _

end Once

section Protocol

variable (P : Platform) (config : RateLimitConfig) (G : IpKeyGenerator)

/-- The key of the store a request is counted under. -/
def requestKey (req : UnlockPost) : String := (unlockLimiter config).storeKey (unlockKey G req)

/-- A request was counted, and its number is small enough. -/
def Admitted (st : LimitedHist) (i : Nat) : Prop :=
  ∃ e ∈ st.mine i, ∃ h, hitOf e = some h ∧ h.window.count ≤ config.RATE_LIMIT_UNLOCK_MAX

/-- A request was counted, and its number is too large. -/
def OverLimit (st : LimitedHist) (i : Nat) : Prop :=
  ∃ e ∈ st.mine i, ∃ h, hitOf e = some h ∧ config.RATE_LIMIT_UNLOCK_MAX < h.window.count

/-- The store has counted the hits of the history, each request has one hit
    under its own key, and at most one verification, with a small number. -/
structure LimiterInv (st : LimitedHist) : Prop where
  tally : Tallied st.world.hits (st.log.filterMap hitOf)
  key : ∀ e ∈ st.log, ∀ h, hitOf e = some h → h.key = requestKey config G e.call
  ends : ∀ key w, st.world.hits key = some w →
    w.resetAt ≤ st.world.app.now + (unlockLimiter config).windowMs
  timed : ∀ e ∈ st.log, ∀ h, hitOf e = some h → e.after.app.now < h.window.resetAt ∧
    h.window.resetAt ≤ e.after.app.now + (unlockLimiter config).windowMs
  hitOnce : ∀ i, ((st.mine i).filterMap hitOf).length ≤ 1
  admitted : ∀ e ∈ st.log, isVerification e = true → Admitted config st e.tid
  verifiedOnce : ∀ i, ((st.mine i).filter isVerification).length ≤ 1

/-- What a request owes when it performs an operation. -/
def LimiterPre (st : LimitedHist) (i : Nat) (req : UnlockPost) : LimitedOp → Prop
  | .increment key => key = requestKey config G req ∧ (st.mine i).filterMap hitOf = []
  | .api op => verifies op → Admitted config st i ∧ (st.mine i).filter isVerification = []

/-- A request that was refused had a large number. -/
def LimiterPost (i : Nat) (_ : UnlockPost) (_ : LimitedHist) :
    Except LimitedErr Response → LimitedHist → Prop
  | .error (.tooManyRequests _ _), st => OverLimit config st i
  | _, _ => True

def limiting : Protocol LimitedOp LimitedOp.Res LimitedErr Response UnlockPost Choice
    LimitedWorld Unit where
  toPolicy := unlockRequests G
  loc := fun _ _ => ()
  Inv := LimiterInv config G
  Pre := LimiterPre config G
  Post := LimiterPost config

end Protocol

section Soundness

variable {P : Platform} {config : RateLimitConfig} {G : IpKeyGenerator} {st : LimitedHist}
  {i : Nat} {req : UnlockPost}

theorem isVerification_api {seq tid : Nat} {call : UnlockPost} {op : Op} {ch : Choice}
    {r : op.Res} {w : LimitedWorld} :
    isVerification ⟨seq, tid, call, .api op, ch, r, w⟩ = true ↔ verifies op := by
  cases op with
  | bcryptCompare plain hash => exact ⟨fun _ => trivial, fun _ => rfl⟩
  | _ => exact ⟨fun h => (by cases h), fun h => h.elim⟩

theorem mem_push_mine {op : LimitedOp} {ch : Choice} {r : op.Res} {w : LimitedWorld}
    {e : LimitedEv} {j : Nat} (h : e ∈ st.mine j) : e ∈ (st.push i req op ch r w).mine j := by
  rw [State.mem_mine] at h ⊢
  exact ⟨List.mem_cons_of_mem _ h.1, h.2⟩

theorem admitted_push {op : LimitedOp} {ch : Choice} {r : op.Res} {w : LimitedWorld} {j : Nat}
    (h : Admitted config st j) : Admitted config (st.push i req op ch r w) j := by
  rcases h with ⟨e, he, hit⟩
  exact ⟨e, mem_push_mine he, hit⟩

/-- Counting a hit keeps the invariant. -/
theorem limiterInv_increment {key : String} {ch : Choice} {r : Window} {w : LimitedWorld}
    (h : LimiterInv config G st) (hpre : LimiterPre config G st i req (.increment key))
    (hx : execLimited P (unlockLimiter config) i (.increment key) ch st.world = some (r, w)) :
    LimiterInv config G (st.push i req (.increment key) ch r w) := by
  rcases hpre with ⟨hkey, hfirst⟩
  have hspan : 0 < (unlockLimiter config).windowMs :=
    Nat.mul_pos config.window_pos (by decide)
  simp only [execLimited, Option.some.injEq, Prod.mk.injEq] at hx
  rcases hx with ⟨rfl, rfl⟩
  -- The window that is counted ends after now.
  have hends := nextWindow_ends hspan (fun v hv => h.ends key v hv)
  refine ⟨tallied_hit h.tally hspan key, fun e he g hg => ?_, fun key' v hv => ?_,
    fun e he g hg => ?_, fun j => ?_, fun e he hv => ?_, fun j => ?_⟩
  · rcases List.mem_cons.mp he with rfl | he
    · rw [← Option.some.inj hg]
      exact hkey
    · exact h.key e he g hg
  · -- Only the window of this key has changed.
    by_cases hkey' : key' = key
    · subst hkey'
      change (hit _ _ key' st.world.hits).2 key' = some v at hv
      rw [hit_self, Option.some.injEq] at hv
      rw [← hv]
      exact hends.2
    · change (hit _ _ key st.world.hits).2 key' = some v at hv
      rw [hit_other _ _ _ hkey'] at hv
      exact h.ends key' v hv
  · rcases List.mem_cons.mp he with rfl | he
    · rw [← Option.some.inj hg]
      exact hends
    · exact h.timed e he g hg
  · -- A thread counts once: it had counted nothing before.
    by_cases hij : i = j
    · subst hij
      rw [State.push_mine]
      change (_ :: (st.mine i).filterMap hitOf).length ≤ 1
      rw [hfirst]
      exact Nat.le_refl 1
    · rw [State.push_mine_other _ _ _ _ _ _ _ _ hij]
      exact h.hitOnce j
  · rcases List.mem_cons.mp he with rfl | he
    · cases hv
    · exact admitted_push (h.admitted e he hv)
  · by_cases hij : i = j
    · subst hij
      rw [State.push_mine]
      exact h.verifiedOnce i
    · rw [State.push_mine_other _ _ _ _ _ _ _ _ hij]
      exact h.verifiedOnce j

/-- An operation of the service keeps the invariant. -/
theorem limiterInv_api {op : Op} {ch : Choice} {r : op.Res} {w : LimitedWorld}
    (h : LimiterInv config G st) (hpre : LimiterPre config G st i req (.api op))
    (hx : execLimited P (unlockLimiter config) i (.api op) ch st.world = some (r, w)) :
    LimiterInv config G (st.push i req (.api op) ch r w) := by
  have hworld : w.hits = st.world.hits ∧ w.app.now = st.world.app.now := by
    rcases Option.map_eq_some_iff.mp hx with ⟨out, hout, heq⟩
    rw [Prod.mk.injEq] at heq
    rw [← heq.2]
    exact ⟨rfl, exec_now_eq hout⟩
  refine ⟨?_, fun e he g hg => ?_, fun key v hv => ?_, fun e he g hg => ?_, fun j => ?_,
    fun e he hv => ?_, fun j => ?_⟩
  · change Tallied w.hits (st.log.filterMap hitOf)
    rw [hworld.1]
    exact h.tally
  · rcases List.mem_cons.mp he with rfl | he
    · cases hg
    · exact h.key e he g hg
  · rw [State.push_world, hworld.1] at hv
    rw [State.push_world, hworld.2]
    exact h.ends key v hv
  · rcases List.mem_cons.mp he with rfl | he
    · cases hg
    · exact h.timed e he g hg
  · by_cases hij : i = j
    · subst hij
      rw [State.push_mine]
      exact h.hitOnce i
    · rw [State.push_mine_other _ _ _ _ _ _ _ _ hij]
      exact h.hitOnce j
  · rcases List.mem_cons.mp he with rfl | he
    · exact admitted_push (hpre (isVerification_api.mp hv)).1
    · exact admitted_push (h.admitted e he hv)
  · by_cases hij : i = j
    · subst hij
      rw [State.push_mine]
      by_cases hv : verifies op
      · -- The request had verified nothing before.
        rw [List.filter_cons_of_pos (isVerification_api.mpr hv), (hpre hv).2]
        exact Nat.le_refl 1
      · rw [List.filter_cons_of_neg (fun hv' => hv (isVerification_api.mp hv'))]
        exact h.verifiedOnce i
    · rw [State.push_mine_other _ _ _ _ _ _ _ _ hij]
      exact h.verifiedOnce j

/-- Nothing that a thread remembers of itself is changed by others. -/
theorem admitted_later {st' : LimitedHist} {loc : Nat → LimitedWorld → Unit}
    (hl : Later loc i st st') (h : Admitted config st i) : Admitted config st' i := by
  rcases h with ⟨e, he, hit⟩
  exact ⟨e, hl.mine_eq ▸ he, hit⟩

/-- A part of a handler without verifications owes nothing. -/
theorem lift_quiet_sat {α : Type} {Post : Except LimitedErr α → LimitedHist → Prop}
    (hok : ∀ a st, Post (.ok a) st) (herr : ∀ e st, Post (.error (.err e)) st) (x : Api α)
    (hx : x.Only (fun op => ¬ verifies op)) (st : LimitedHist) :
    Sat (unlockSystem P config G) (limiting config G) i req Post (lift x) st := by
  induction x generalizing st with
  | ret a => exact hok a st
  | throw e => exact herr e st
  | await op k ih =>
      intro st₁ _ _ _
      exact ⟨fun hv => absurd hv hx.1, fun ch r w _ _ => ih r (hx.2 r) _⟩

/-- A handler with at most one verification, of a request that was admitted and
    has verified nothing yet. -/
theorem lift_once_sat {α : Type} {Post : Except LimitedErr α → LimitedHist → Prop}
    (hok : ∀ a st, Post (.ok a) st) (herr : ∀ e st, Post (.error (.err e)) st) (x : Api α)
    (hx : x.Once verifies) (st : LimitedHist) (hadm : Admitted config st i)
    (hnone : (st.mine i).filter isVerification = []) :
    Sat (unlockSystem P config G) (limiting config G) i req Post (lift x) st := by
  induction x generalizing st with
  | ret a => exact hok a st
  | throw e => exact herr e st
  | await op k ih =>
      intro st₁ hl _ _
      have hadm₁ := admitted_later hl hadm
      have hnone₁ : (st₁.mine i).filter isVerification = [] := by rw [hl.mine_eq, hnone]
      refine ⟨fun _ => ⟨hadm₁, hnone₁⟩, fun ch r w _ _ => ?_⟩
      -- The verification, after which there is none, or something else before it.
      rcases hx with ⟨_, hquiet⟩ | ⟨hno, honce⟩
      · exact lift_quiet_sat hok herr (k r) (hquiet r) _
      · refine ih r (honce r) _ (admitted_push hadm₁) ?_
        rw [State.push_mine, List.filter_cons_of_neg (fun hv => hno (isVerification_api.mp hv))]
        exact hnone₁

/-- A request meets its obligations. -/
theorem limitedUnlock_sat (hmine : st.mine i = []) :
    Sat (unlockSystem P config G) (limiting config G) i req (LimiterPost config i req st)
      (limitedUnlock config G req) st := by
  intro st₁ hl _ _
  have hmine₁ : st₁.mine i = [] := hl.mine_eq.trans hmine
  refine ⟨⟨rfl, by rw [hmine₁]; rfl⟩, fun ch r w _ _ => ?_⟩
  -- The hit of the request is the newest event.
  have hlast : (⟨st₁.log.length, i, req, .increment (requestKey config G req), ch, r, w⟩ :
      LimitedEv) ∈ (st₁.push i req (.increment (requestKey config G req)) ch r w).mine i := by
    rw [State.push_mine]
    exact List.mem_cons_self
  by_cases hmax : (unlockLimiter config).max < r.count
  · simp only [if_pos hmax, Prog.await_bind, Prog.throw_bind]
    intro st₂ hl₂ _ _
    refine ⟨fun hv => hv.elim, fun ch₂ now w₂ _ _ => ?_⟩
    exact ⟨_, mem_push_mine (hl₂.mine_eq ▸ hlast), ⟨requestKey config G req, r⟩, rfl, hmax⟩
  · simp only [if_neg hmax, Prog.ret_bind]
    refine lift_once_sat (fun _ _ => trivial) (fun _ _ => trivial) _ (unlockRoute_once _ _) _
      ⟨_, hlast, ⟨requestKey config G req, r⟩, rfl, Nat.le_of_not_lt hmax⟩ ?_
    rw [State.push_mine, hmine₁]
    rfl

theorem limiting_sound : Sound (unlockSystem P config G) (limiting config G) where
  env := by
    rintro st (ms | app) w h hw
    · cases hw
      -- Time passes, and no window ends more than its length from now.
      refine ⟨h.tally, h.key, fun key v hv => ?_, h.timed, h.hitOnce, h.admitted, h.verifiedOnce⟩
      exact (h.ends key v hv).trans (Nat.add_le_add_right (Nat.le_add_right _ ms) _)
    · cases hw
      exact ⟨h.tally, h.key, h.ends, h.timed, h.hitOnce, h.admitted, h.verifiedOnce⟩
  env_loc := fun _ _ _ _ _ => rfl
  reap := fun st i h =>
    ⟨h.tally, h.key, h.ends, h.timed, h.hitOnce, h.admitted, h.verifiedOnce⟩
  reap_loc := fun _ _ _ _ => rfl
  exec := by
    intro st i req op ch r w h _ hpre _ hx
    cases op with
    | increment key => exact limiterInv_increment (P := P) h hpre hx
    | api op => exact limiterInv_api (P := P) h hpre hx
  exec_loc := fun _ _ _ _ _ _ _ _ _ => rfl
  body := fun st i req _ _ hmine _ => limitedUnlock_sat hmine

end Soundness

section Lists

variable {α β γ : Type} [DecidableEq γ]

theorem filter_le_filterMap {f : α → Option β} {q : α → Bool} {p : β → Bool} {l : List α}
    (h : ∀ a ∈ l, q a = true → ∃ b, f a = some b ∧ p b = true) :
    (l.filter q).length ≤ ((l.filterMap f).filter p).length := by
  rw [← List.countP_eq_length_filter, ← List.countP_eq_length_filter, List.countP_filterMap]
  refine List.countP_mono_left (fun a ha hq => ?_)
  rcases h a ha hq with ⟨b, hb, hp⟩
  rw [hb, Option.map_some, Option.getD_some]
  exact hp

theorem filterMap_le_filter {f : α → Option β} {q : α → Bool} {p : β → Bool} {l : List α}
    (h : ∀ a ∈ l, ∀ b, f a = some b → p b = true → q a = true) :
    ((l.filterMap f).filter p).length ≤ (l.filter q).length := by
  rw [← List.countP_eq_length_filter, ← List.countP_eq_length_filter, List.countP_filterMap]
  refine List.countP_mono_left (fun a ha hp => ?_)
  rcases hf : f a with _ | b
  · rw [hf] at hp
    exact absurd hp Bool.false_ne_true
  · rw [hf, Option.map_some, Option.getD_some] at hp
    exact h a ha b hf hp

/-- A label that is borne at most once each is borne by different elements. -/
theorem nodup_labels {f : α → γ} {l : List α}
    (h : ∀ i, (l.filter (fun a => f a == i)).length ≤ 1) : (l.map f).Nodup := by
  rw [List.nodup_iff_count_le_one]
  intro i
  rw [List.count, List.countP_map, List.countP_eq_length_filter]
  exact h i

end Lists

section Budgets

variable (G : IpKeyGenerator)

/-- A request of a client for a code. -/
def RequestOf (client code : String) (req : UnlockPost) : Prop :=
  G.key req.ip = client ∧ req.shortCode = code

instance (client code : String) (req : UnlockPost) : Decidable (RequestOf G client code req) :=
  inferInstanceAs (Decidable (_ ∧ _))

/-- An event that counted a hit in a window. -/
def countedIn (resetAt : Nat) (e : LimitedEv) : Bool :=
  (hitOf e).any (fun h => h.window.resetAt == resetAt)

/-- The hits of a client for a code in a window. -/
def attempts (log : List LimitedEv) (client code : String) (resetAt : Nat) : List LimitedEv :=
  log.filter (fun e => decide (RequestOf G client code e.call) && countedIn resetAt e)

/-- The verifications of a client for a code, by requests that were counted in a
    window. -/
def verifications (log : List LimitedEv) (client code : String) (resetAt : Nat) :
    List LimitedEv :=
  log.filter (fun e => isVerification e && decide (RequestOf G client code e.call) &&
    log.any (fun e' => e'.tid == e.tid && countedIn resetAt e'))

/-- Two hits have the same key exactly if they are of the same client and the
    same code; a hit is counted in a window that has not ended and is not longer
    than configured; every verification belongs to the window its request was
    counted in, and a client has at most so many for a code in each; and a
    request is refused only if as many hits of its client for its code, by other
    requests, are in its window. -/
structure Budgeted (config : RateLimitConfig) (c : Config LimitedOp LimitedOp.Res LimitedErr
    Response UnlockPost Choice LimitedWorld) : Prop where
  keys : ∀ e ∈ c.state.log, ∀ e' ∈ c.state.log, ∀ h h', hitOf e = some h →
    hitOf e' = some h' →
    (h.key = h'.key ↔ G.key e.call.ip = G.key e'.call.ip ∧ e.call.shortCode = e'.call.shortCode)
  windows : ∀ e ∈ c.state.log, ∀ h, hitOf e = some h → e.after.app.now < h.window.resetAt ∧
    h.window.resetAt ≤ e.after.app.now + config.RATE_LIMIT_UNLOCK_WINDOW_SECONDS * 1000
  attributed : ∀ e ∈ c.state.log, isVerification e = true → ∃ resetAt,
    e ∈ verifications G c.state.log (G.key e.call.ip) e.call.shortCode resetAt
  bounded : ∀ client code resetAt, (verifications G c.state.log client code resetAt).length
    ≤ config.RATE_LIMIT_UNLOCK_MAX
  crowded : ∀ i t message seconds, c.threads[i]? = some t →
    t.result = some (.error (.tooManyRequests message seconds)) →
    ∃ e ∈ c.state.log, e.tid = i ∧ ∃ h, hitOf e = some h ∧
      config.RATE_LIMIT_UNLOCK_MAX ≤ ((attempts G c.state.log (G.key t.call.ip) t.call.shortCode
        h.window.resetAt).filter (fun e => e.tid != i)).length

end Budgets

section Results

variable {P : Platform} {config : RateLimitConfig} {G : IpKeyGenerator} {w₀ : World}
  {c : Config LimitedOp LimitedOp.Res LimitedErr Response UnlockPost Choice LimitedWorld}

/-- The world in which no hit was counted yet. -/
def uncounted (w : World) : LimitedWorld := { app := w, hits := fun _ => none }

theorem limiterInv_start : LimiterInv config G { world := uncounted w₀, log := [] } :=
  ⟨tallied_nil, fun _ he => (by cases he), fun _ _ hw => (by cases hw),
    fun _ he => (by cases he), fun _ => Nat.zero_le 1, fun _ he => (by cases he),
    fun _ => Nat.zero_le 1⟩

theorem run_limiterInv (hc : Run (unlockSystem P config G) (unlockRequests G) (uncounted w₀) c) :
    LimiterInv config G c.state :=
  run_inv limiting_sound limiterInv_start hc

/-- Every event is one of a request that passes the validation. -/
theorem run_requested (hc : Run (unlockSystem P config G) (unlockRequests G) (uncounted w₀) c) :
    ∀ e ∈ c.state.log, UnlockRequested G e.call := by
  intro e he
  rcases run_event_thread hc e he with ⟨t, ht, hcall⟩
  rw [← hcall]
  exact run_calls (q := fun _ req => UnlockRequested G req) (fun _ _ h => h)
    (fun _ _ _ _ _ _ _ _ h => h) (fun _ _ _ _ _ h => h) (fun _ _ _ h => h) hc e.tid t ht

/-- Which hits are counted under the same key. -/
theorem hit_key_iff
    (hc : Run (unlockSystem P config G) (unlockRequests G) (uncounted w₀) c) {e e' : LimitedEv}
    (he : e ∈ c.state.log) (he' : e' ∈ c.state.log) {h h' : Hit String}
    (hh : hitOf e = some h) (hh' : hitOf e' = some h') :
    h.key = h'.key ↔ RequestOf G (G.key e'.call.ip) e'.call.shortCode e.call := by
  rw [(run_limiterInv hc).key e he h hh, (run_limiterInv hc).key e' he' h' hh', requestKey,
    requestKey, storeKey_iff, unlockKey_iff (run_requested hc e he) (run_requested hc e' he')]
  rfl

/-- A request has one hit. -/
theorem hitOf_unique (h : LimiterInv config G c.state) {e e' : LimitedEv}
    (he : e ∈ c.state.log) (he' : e' ∈ c.state.log) (htid : e.tid = e'.tid) {g g' : Hit String}
    (hg : hitOf e = some g) (hg' : hitOf e' = some g') : g = g' := by
  have hmem : ∀ {e : LimitedEv} {g : Hit String}, e ∈ c.state.log → e.tid = e'.tid →
      hitOf e = some g → g ∈ (c.state.mine e'.tid).filterMap hitOf :=
    fun he htid hg => List.mem_filterMap.mpr ⟨_, State.mem_mine.mpr ⟨he, htid⟩, hg⟩
  have hone := h.hitOnce e'.tid
  rcases hlist : (c.state.mine e'.tid).filterMap hitOf with _ | ⟨first, _ | ⟨second, rest⟩⟩
  · exact absurd (hmem he htid hg) (by rw [hlist]; exact List.not_mem_nil)
  · have hleft := hmem he htid hg
    have hright := hmem he' rfl hg'
    rw [hlist, List.mem_singleton] at hleft hright
    rw [hleft, hright]
  · rw [hlist, List.length_cons, List.length_cons] at hone
    omega

theorem same_call (hc : Run (unlockSystem P config G) (unlockRequests G) (uncounted w₀) c)
    {e e' : LimitedEv} (he : e ∈ c.state.log) (he' : e' ∈ c.state.log) (htid : e.tid = e'.tid) :
    e.call = e'.call := by
  rcases run_event_thread hc e he with ⟨t, ht, hcall⟩
  rcases run_event_thread hc e' he' with ⟨t', ht', hcall'⟩
  rw [htid, ht', Option.some.injEq] at ht
  rw [← hcall, ← hcall', ht]

theorem requestKey_of (config : RateLimitConfig) {client code : String} {a b : UnlockPost}
    (ha : RequestOf G client code a) (hb : RequestOf G client code b) :
    requestKey config G a = requestKey config G b := by
  rw [requestKey, requestKey, unlockKey, unlockKey, ha.1, ha.2, hb.1, hb.2]

/-- What is known of a verification of a window. -/
theorem mem_verifications {log : List LimitedEv} {client code : String} {resetAt : Nat}
    {e : LimitedEv} : e ∈ verifications G log client code resetAt ↔
      e ∈ log ∧ isVerification e = true ∧ RequestOf G client code e.call ∧
        ∃ e' ∈ log, e'.tid = e.tid ∧ ∃ h, hitOf e' = some h ∧ h.window.resetAt = resetAt := by
  rw [verifications, List.mem_filter, Bool.and_eq_true, Bool.and_eq_true, decide_eq_true_eq,
    List.any_eq_true, and_assoc]
  simp only [countedIn, Bool.and_eq_true, beq_iff_eq, Option.any_eq_true]

/-- A verification was admitted under the key of its request, with a hit in its
    window. -/
theorem verification_admitted
    (hc : Run (unlockSystem P config G) (unlockRequests G) (uncounted w₀) c)
    {client code : String} {resetAt : Nat} {e : LimitedEv}
    (he : e ∈ verifications G c.state.log client code resetAt) :
    ∃ e' ∈ c.state.log, e'.tid = e.tid ∧ ∃ h, hitOf e' = some h ∧
      h.key = requestKey config G e.call ∧ h.window.resetAt = resetAt ∧
      h.window.count ≤ config.RATE_LIMIT_UNLOCK_MAX := by
  have hinv := run_limiterInv hc
  rcases mem_verifications.mp he with ⟨hlog, hv, _, e₁, he₁, htid₁, h₁, hh₁, hreset⟩
  rcases hinv.admitted e hlog hv with ⟨e₂, he₂, h₂, hh₂, hcount⟩
  rw [State.mem_mine] at he₂
  -- The hit that was admitted is the hit of the window: a request has only one.
  have hsame : h₂ = h₁ := hitOf_unique hinv he₂.1 he₁ (he₂.2.trans htid₁.symm) hh₂ hh₁
  refine ⟨e₂, he₂.1, he₂.2, h₂, hh₂, ?_, hsame ▸ hreset, hcount⟩
  rw [hinv.key e₂ he₂.1 h₂ hh₂, same_call hc he₂.1 hlog he₂.2]

/-- A client has at most so many verifications for a code in a window. -/
theorem verifications_le
    (hc : Run (unlockSystem P config G) (unlockRequests G) (uncounted w₀) c)
    (client code : String) (resetAt : Nat) :
    (verifications G c.state.log client code resetAt).length ≤ config.RATE_LIMIT_UNLOCK_MAX := by
  have hinv := run_limiterInv hc
  rcases hlist : verifications G c.state.log client code resetAt with _ | ⟨e₀, rest⟩
  · exact Nat.zero_le _
  rw [← hlist]
  have he₀ : e₀ ∈ verifications G c.state.log client code resetAt :=
    hlist ▸ List.mem_cons_self
  -- The hits of the window that were admitted, and their requests.
  let small : Hit String → Bool := fun h =>
    decide (h.window.count ≤ config.RATE_LIMIT_UNLOCK_MAX) &&
      decide (h.key = requestKey config G e₀.call ∧ h.window.resetAt = resetAt)
  let hits : List LimitedEv := c.state.log.filter (fun e => (hitOf e).any small)
  have hbound : hits.length ≤ config.RATE_LIMIT_UNLOCK_MAX := by
    have hcounted : hits.length ≤ ((c.state.log.filterMap hitOf).filter small).length :=
      filter_le_filterMap (fun e _ he => by
        rcases Option.any_eq_true _ _ |>.mp he with ⟨h, hh, hsmall⟩
        exact ⟨h, hh, hsmall⟩)
    have hadmitted := admitted_le hinv.tally.numbered config.RATE_LIMIT_UNLOCK_MAX
      (requestKey config G e₀.call) resetAt
    rw [inWindow, List.filter_filter] at hadmitted
    exact hcounted.trans hadmitted
  have hnodup : ((verifications G c.state.log client code resetAt).map (·.tid)).Nodup := by
    have hall : ((c.state.log.filter isVerification).map (·.tid)).Nodup := by
      refine nodup_labels (fun i => ?_)
      have hone := hinv.verifiedOnce i
      rw [State.mine, List.filter_filter] at hone
      rw [List.filter_filter]
      simpa only [Bool.and_comm] using hone
    refine hall.sublist (List.Sublist.map _ (List.monotone_filter_right _ (fun e he => ?_)))
    rw [Bool.and_eq_true, Bool.and_eq_true] at he
    exact he.1.1
  have hsubset : ∀ i ∈ (verifications G c.state.log client code resetAt).map (·.tid),
      i ∈ hits.map (·.tid) := by
    intro i hi
    rcases List.mem_map.mp hi with ⟨e, he, rfl⟩
    rcases verification_admitted hc he with ⟨e', he', htid, h, hh, hkey, hreset, hcount⟩
    refine List.mem_map.mpr ⟨e', List.mem_filter.mpr ⟨he', ?_⟩, htid⟩
    have hkey₀ := requestKey_of config (mem_verifications.mp he).2.2.1
      (mem_verifications.mp he₀).2.2.1
    have hsmall : small h = true := by
      rw [Bool.and_eq_true]
      exact ⟨decide_eq_true hcount, decide_eq_true ⟨hkey.trans hkey₀, hreset⟩⟩
    rw [hh]
    exact hsmall
  have hle := (List.subperm_of_subset hnodup hsubset).length_le
  rw [List.length_map, List.length_map] at hle
  exact hle.trans hbound

/-- A request is refused because of as many hits of its client for its code as
    the window allows. -/
theorem refused_crowded
    (hc : Run (unlockSystem P config G) (unlockRequests G) (uncounted w₀) c) {i : Nat}
    {t : Thread LimitedOp LimitedOp.Res LimitedErr Response UnlockPost}
    (ht : c.threads[i]? = some t) {message : String} {seconds : Nat}
    (hr : t.result = some (.error (.tooManyRequests message seconds))) :
    ∃ e ∈ c.state.log, e.tid = i ∧ ∃ h, hitOf e = some h ∧
      config.RATE_LIMIT_UNLOCK_MAX ≤ ((attempts G c.state.log (G.key t.call.ip) t.call.shortCode
        h.window.resetAt).filter (fun e => e.tid != i)).length := by
  have hinv := run_limiterInv hc
  rcases run_result limiting_sound limiterInv_start hc ht hr with
    ⟨st₀, st₁, _, _, _, _, hmine, e, he, h, hh, hlarge⟩
  rw [hmine, State.mem_mine] at he
  refine ⟨e, he.1, he.2, h, hh, ?_⟩
  have hcall : e.call = t.call := (run_fits hc ht).own e he.1 he.2
  rcases List.append_of_mem he.1 with ⟨newer, older, hlog⟩
  -- The hits of the window before this one are of other requests.
  have hhits : c.state.log.filterMap hitOf
      = newer.filterMap hitOf ++ h :: older.filterMap hitOf := by
    rw [hlog, List.filterMap_append, List.filterMap_cons_some hh]
  have hmany := crowded hinv.tally.numbered hhits hlarge
  refine hmany.trans ?_
  rw [inWindow, attempts, List.filter_filter]
  have hsub : (older.filter (fun e => e.tid != i && (decide (RequestOf G (G.key t.call.ip)
        t.call.shortCode e.call) && countedIn h.window.resetAt e))).length
      ≤ (c.state.log.filter (fun e => e.tid != i && (decide (RequestOf G (G.key t.call.ip)
        t.call.shortCode e.call) && countedIn h.window.resetAt e))).length := by
    refine List.Sublist.length_le (List.Sublist.filter _ ?_)
    rw [hlog]
    exact (List.sublist_cons_self e older).trans (List.sublist_append_right newer _)
  refine (filterMap_le_filter (fun e' he' h' hh' hwindow => ?_)).trans hsub
  have hlog' : e' ∈ c.state.log := by
    rw [hlog]
    exact List.mem_append_right _ (List.mem_cons_of_mem _ he')
  rw [decide_eq_true_eq] at hwindow
  have hother : e'.tid ≠ i := by
    intro htid
    have hone := hinv.hitOnce i
    have hmem : h' ∈ (older.filter (fun e => e.tid == i)).filterMap hitOf :=
      List.mem_filterMap.mpr ⟨e', List.mem_filter.mpr ⟨he', beq_iff_eq.mpr htid⟩, hh'⟩
    have hpos := List.length_pos_of_mem hmem
    have hself : (e :: older).filter (fun e => e.tid == i)
        = e :: older.filter (fun e => e.tid == i) :=
      List.filter_cons_of_pos (beq_iff_eq.mpr he.2)
    rw [State.mine, hlog, List.filter_append, hself, List.filterMap_append,
      List.filterMap_cons_some hh, List.length_append, List.length_cons] at hone
    omega
  have hrequest := (hit_key_iff hc hlog' he.1 hh' hh).mp hwindow.1
  rw [hcall] at hrequest
  rw [Bool.and_eq_true, Bool.and_eq_true, bne_iff_ne, decide_eq_true_eq, countedIn, hh']
  exact ⟨hother, hrequest, beq_iff_eq.mpr hwindow.2⟩

/-- In every interleaving of unlock requests the budgets are per client and code. -/
theorem unlock_budgets (P : Platform) (config : RateLimitConfig) (G : IpKeyGenerator) (w₀ : World)
    (c : Config LimitedOp LimitedOp.Res LimitedErr Response UnlockPost Choice LimitedWorld)
    (hc : Run (unlockSystem P config G) (unlockRequests G) (uncounted w₀) c) :
    Budgeted G config c where
  keys := fun _ he _ he' _ _ hh hh' => hit_key_iff hc he he' hh hh'
  windows := (run_limiterInv hc).timed
  attributed := by
    intro e he hv
    rcases (run_limiterInv hc).admitted e he hv with ⟨e', he', h, hh, _⟩
    rw [State.mem_mine] at he'
    exact ⟨h.window.resetAt, mem_verifications.mpr
      ⟨he, hv, ⟨rfl, rfl⟩, e', he'.1, he'.2, h, hh, rfl⟩⟩
  bounded := verifications_le hc
  crowded := fun _ _ _ _ ht hr => refused_crowded hc ht hr

/-- A key generator for one IPv6 address. -/
def sampleKeys : IpKeyGenerator where
  key ip := if ip = "2001:db8::1" then "2001:db8::/56" else ip
  isIPv6 ip := ip = "2001:db8::1"
  ipv4 := by
    intro ip h
    have hne : ip ≠ "2001:db8::1" := fun heq => (by decide : '.' ∉ "2001:db8::1".toList)
      (heq ▸ (ipv4_chars h).2)
    rw [if_neg hne]
  ipv6 := by
    rintro ip rfl
    have hchars : ("2001:db8::".toList).all networkChar = true := by decide
    exact ⟨"2001:db8::", ⟨List.all_eq_true.mp hchars, by decide⟩, rfl⟩

/-- One attempt a minute. -/
def tightConfig : RateLimitConfig :=
  { RATE_LIMIT_UNLOCK_WINDOW_SECONDS := 60, RATE_LIMIT_UNLOCK_MAX := 1, window_pos := by decide,
    max_pos := by decide }

def wrongGuess : UnlockPost :=
  { ip := "1.2.3.4", shortCode := "c", body := .object [("password", .string "q")] }

def fromClient (_ : Config LimitedOp LimitedOp.Res LimitedErr Response UnlockPost Choice
    LimitedWorld) : Action UnlockPost Elsewhere Choice → Bool
  | .spawn req => decide (req.ip = "1.2.3.4" ∧ req.shortCode = "c")
  | _ => true

theorem fromClient_permits (c : Config LimitedOp LimitedOp.Res LimitedErr Response UnlockPost
    Choice LimitedWorld) (a : Action UnlockPost Elsewhere Choice) (h : fromClient c a = true) :
    (unlockRequests sampleKeys).permits c a := by
  cases a with
  | spawn req =>
      have hreq := of_decide_eq_true h
      refine ⟨Or.inl ⟨1, 2, 3, 4, by decide, by decide, by decide, by decide, ?_⟩, 0,
        shortCodeParams "c", ?_⟩
      · rw [hreq.1]
        decide
      · rw [hreq.2]
        exact accepts_shortCode (by decide) (by decide) 0
  | run i ch => exact fun _ _ _ _ _ => trivial
  | _ => trivial

/-- The first guess is verified, and the second is refused. -/
theorem unlock_budgets_second : ∃ c,
    Run (unlockSystem samplePlatform tightConfig sampleKeys) (unlockRequests sampleKeys)
      (uncounted protectedWorld) c ∧
    (verifications sampleKeys c.state.log "1.2.3.4" "c" 60000).length = 1 ∧
    c.resultOf 1 = some (.error (.tooManyRequests
      "Too many requests. Please try again later." 60)) ∧
    Budgeted sampleKeys tightConfig c := by
  have hrun := exists_run_of (unlockSystem samplePlatform tightConfig sampleKeys)
    (unlockRequests sampleKeys) (uncounted protectedWorld) fromClient fromClient_permits
    [.spawn wrongGuess, .run 0 {}, .run 0 {}, .run 0 {}, .run 0 {}, .run 0 {}, .run 0 {},
      .run 0 {}, .run 0 {}, .run 0 {}, .run 0 {}, .spawn wrongGuess, .run 1 {}, .run 1 {}]
    (fun c => decide ((verifications sampleKeys c.state.log "1.2.3.4" "c" 60000).length = 1) &&
      decide (c.resultOf 1 = some (.error (.tooManyRequests
        "Too many requests. Please try again later." 60))))
    (by decide +kernel)
  rcases hrun with ⟨c, hc, hp⟩
  rw [Bool.and_eq_true, decide_eq_true_eq, decide_eq_true_eq] at hp
  exact ⟨c, hc, hp.1, hp.2, unlock_budgets samplePlatform tightConfig sampleKeys
    (uncounted protectedWorld).app c hc⟩

end Results

end ClickScope
