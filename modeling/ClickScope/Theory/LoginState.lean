import ClickScope.Theory.Rules

/-!
# OAuth States and Browsers

Whose state a Google callback carries when it ends in a session.

A state lives in Redis from the moment `GET /google` stores it until a callback
takes it out. Whatever is stored under a state key was drawn by such a request,
which is what `StatesInv` follows through a run. The store knows nothing of
browsers, though: a callback is accepted with any stored state, whoever it was
issued to. So a session is bound to the browser that started the login exactly
as far as no callback carries a state that is still stored and was issued to a
different browser. `login_bound` is that direction for every run, and
`login_unbound` is the run of an attacker who starts a login and has the
victim's browser finish it.

## Main definitions

* `IssuedTo`: `GET /google` issued a state to a browser.
* `Stolen`: A callback carries another browser's stored state.
* `ownStates`: The runs without such callbacks.
* `LoginBound`: Sessions go to the browser that started the login.

## Theorems

* `statesInv_push`: Every operation keeps the invariant.
* `callback_sat`: A callback that ends in a session found its own state.
* `login_bound`: Every run without stolen states.
* `login_unbound`: A run with one.
-/

namespace ClickScope

open Async

/-- The state an operation drew. -/
def issuedState : (op : Op) → op.Res → Option String
  | .randomState, state => some state
  | _, _ => none

/-- `GET /google` issued the state to the browser. -/
def IssuedTo (log : List Ev) (browser : Nat) (state : String) : Prop :=
  ∃ e ∈ log, e.call = .googleStart browser ∧ issuedState e.op e.res = some state

theorem issuedTo_mono {log log' : List Ev} (h : log <:+ log') {browser : Nat} {state : String}
    (hi : IssuedTo log browser state) : IssuedTo log' browser state := by
  rcases hi with ⟨e, he, hcall, hstate⟩
  exact ⟨e, h.subset he, hcall, hstate⟩

/-- A callback that can end in a session. -/
def GoogleRequest.offers (req : GoogleRequest) : Prop :=
  truthy req.error = none ∧ (truthy req.code).isSome

/-- The callback offers a code with a state that is still stored and was issued
    to a different browser. -/
def Stolen (st : Hist) (req : GoogleRequest) : Prop :=
  req.offers ∧ (st.world.redis.get st.world.now (stateKey req.state)).isSome ∧
    ∃ browser, browser ≠ req.browser ∧ IssuedTo st.log browser req.state

def Call.startsLogin : Call → Bool
  | .googleStart _ => true
  | _ => false

/-- No callback takes out a stolen state. -/
def ownStates : Policy Op Op.Res Call Choice World where
  mayStart := fun _ _ => True
  mayDo := fun st _ call op _ => ∀ req, call = .googleCallback req →
    op = .redis (.getdel (stateKey req.state)) → ¬ Stolen st req

/-- No state is stored. -/
def NoStates (w : World) : Prop := ∀ state, w.redis.entry (stateKey state) = none

/-- Every stored state was issued to some browser. -/
def StatesInv (st : Hist) : Prop :=
  ∀ state v ex, st.world.redis.entry (stateKey state) = some ⟨v, ex⟩ →
    ∃ browser, IssuedTo st.log browser state

/-- What a call owes: it stores no state that was not issued. -/
def statePre (st : Hist) : Op → Prop
  | .redis (.set key _ _) => ∀ state, key = stateKey state →
      ∃ browser, IssuedTo st.log browser state
  | _ => True

def loginStates : Protocol Op Op.Res Err Reply Call Choice World Unit where
  toPolicy := ownStates
  loc := fun _ _ => ()
  Inv := StatesInv
  Pre := fun st _ _ op => statePre st op
  Post := fun _ call _ r st => ∀ req location token, call = .googleCallback req →
    r = .ok (.google (.loggedIn location token)) → IssuedTo st.log req.browser req.state

section Steps

variable {P : Platform} {i : Nat} {call : Call} {st : Hist} {ch : Choice}

theorem statesInv_push {op : Op} {r : op.Res} {w : World} (hi : StatesInv st)
    (hpre : statePre st op) (hx : exec P i op ch st.world = some (r, w)) :
    StatesInv (st.push i call op ch r w) := by
  have hgrow : ∀ state, (∃ browser, IssuedTo st.log browser state) →
      ∃ browser, IssuedTo (st.push i call op ch r w).log browser state := by
    rintro state ⟨browser, hb⟩
    exact ⟨browser, issuedTo_mono (List.suffix_cons _ _) hb⟩
  intro state v ex he
  refine hgrow state ?_
  by_cases hc : ∀ c, op ≠ .redis c
  · rw [State.push_world, exec_redis_eq hc hx] at he
    exact hi state v ex he
  · push Not at hc
    rcases hc with ⟨c, rfl⟩
    rcases Redis.exec_entry (exec_redis_inv hx).1.symm he with hold | ⟨ttl, rfl, _⟩
    · exact hi state v ex hold
    · exact hpre state rfl

/-- Only the start of a login stores under a state's key. -/
theorem performs_stateKey {call : Call} {s : String} {v : RedisValue} {ex : Nat}
    (h : call.performs (.redis (.set (stateKey s) v ex))) :
    ∃ browser, call = .googleStart browser := by
  have hlink : ∀ code, stateKey s ≠ linkCacheKey code := stateKey_ne_linkCacheKey s
  cases call with
  | googleStart browser => exact ⟨browser, rfl⟩
  | getLinkByShortCode code => exact absurd h (hlink code)
  | visit req => exact h.elim (fun h => absurd h (hlink req.shortCode)) (fun h => h.elim)
  | unlock req => exact h.elim (fun h => absurd h (hlink req.shortCode)) (fun h => h.elim)
  | _ =>
      simp only [Call.performs, accountOp, callbackOp, hashOp, invalidateOp, createOp,
        ownReadOp, updateOp, deleteOp, workerOp, Op.redis.injEq, reduceCtorEq,
        exists_const, exists_false, or_self] at h

/-- The other calls store no state. -/
theorem performs_state {op : Op} (hcall : call.startsLogin = false)
    (hop : call.performs op) : statePre st op := by
  cases op with
  | redis c =>
      cases c with
      | set key value ex =>
          rintro state rfl
          rcases performs_stateKey hop with ⟨browser, rfl⟩
          cases hcall
      | _ => trivial
  | _ => trivial

end Steps

section Programs

variable {P : Platform} {i : Nat} {st : Hist}

/-- `GET /google` stores the state it has drawn. -/
theorem start_sat (browser : Nat) :
    Sat (clickScope P) loginStates i (.googleStart browser)
      (loginStates.Post i (.googleStart browser) st) (body P (.googleStart browser)) st := by
  refine sat_map (sat_bind _ _ (sat_perform fun st₁ _ _ _ => ⟨trivial, fun ch state w _ _ => ?_⟩))
  refine sat_bind _ _ (sat_redis fun st₂ hl₂ _ _ => ⟨?_, fun ch₂ r s _ _ => ?_⟩)
  · intro state' hkey
    rw [← stateKey_inj hkey]
    exact ⟨browser, _, hl₂.mem List.mem_cons_self, rfl, rfl⟩
  · cases r <;> exact fun _ _ _ hcall => by cases hcall

/-- What follows an accepted state ends in a session only if the callback
    offers a code. -/
theorem acceptCallback_sat {req : GoogleRequest}
    (h : req.offers → IssuedTo st.log req.browser req.state) :
    Sat (clickScope P) loginStates i (.googleCallback req)
      (fun r st' => ∀ location token, r = .ok (.loggedIn location token) →
        IssuedTo st'.log req.browser req.state) (acceptCallback P req) st := by
  by_cases hoffers : req.offers
  · refine sat_keeps (fun _ _ hl hF => issuedTo_mono hl.log_le hF)
      (fun _ _ _ _ _ _ hF => issuedTo_mono (List.suffix_cons _ _) hF) (fun st' op _ _ hop => ?_)
      (fun _ _ hF _ _ _ => hF) _ st (acceptCallback_only P req) (h hoffers)
    have hperforms : (Call.googleCallback req).performs op := hop
    exact performs_state rfl hperforms
  · unfold acceptCallback
    rcases herror : truthy req.error with _ | e
    · rcases hcode : truthy req.code with _ | code
      · exact fun _ _ hr => by cases hr
      · exact absurd ⟨herror, by rw [hcode]; rfl⟩ hoffers
    · exact fun _ _ hr => by cases hr

/-- A callback that ends in a session took out a state that was issued to its
    own browser. -/
theorem callback_sat (req : GoogleRequest) :
    Sat (clickScope P) loginStates i (.googleCallback req)
      (loginStates.Post i (.googleCallback req) st) (body P (.googleCallback req)) st := by
  refine sat_map (sat_bind _ _ (sat_bind _ _ (sat_redis fun st₁ _ hi₁ _ =>
    ⟨trivial, fun ch r s hown hx => ?_⟩)))
  rcases r with e | value
  · exact fun _ _ _ _ hr => by cases hr
  · rcases Redis.exec_ok hx with ⟨hget, _⟩
    simp only [Except.mapError, thenSat_ok]
    cases hvalue : value with
    | none => exact fun _ _ _ _ hr => by cases hr
    | some v =>
        -- The state was stored, so it was issued, and not to another browser.
        have hlive : st₁.world.redis.get st₁.world.now (stateKey req.state) = some v := by
          rw [← hvalue, hget]
          rfl
        rcases Redis.get_some hlive with ⟨ex, hentry, _⟩
        rcases hi₁ req.state v ex hentry with ⟨browser, hissued⟩
        have hmine : req.offers → IssuedTo st₁.log req.browser req.state := by
          intro hoffers
          by_cases hb : browser = req.browser
          · rw [← hb]
            exact hissued
          · exact absurd ⟨hoffers, by rw [hlive]; rfl, browser, hb, hissued⟩
              (hown req rfl rfl)
        change Sat (clickScope P) loginStates i (.googleCallback req) _ (acceptCallback P req) _
        refine sat_mono (fun r st' hr req' location token hcall hres => ?_) _ _
          (acceptCallback_sat fun hoffers => issuedTo_mono (List.suffix_cons _ _) (hmine hoffers))
        rw [Call.googleCallback.injEq] at hcall
        rw [← hcall]
        rcases r with e | reply
        · cases hres
        · refine hr location token ?_
          simpa only [Except.map, Except.ok.injEq, Reply.google.injEq] using hres

end Programs

section Runs

variable {P : Platform} {w₀ : World} {c : Site}

theorem loginStates_sound : Sound (clickScope P) loginStates where
  env := by
    intro st e w hi hw
    rcases env_inv hw with ⟨ms, rfl⟩
    exact hi
  env_loc := fun _ _ _ _ _ => rfl
  reap := fun _ _ hi => hi
  reap_loc := fun _ _ _ _ => rfl
  exec := fun _ _ _ _ _ _ _ hi _ hpre _ hx => statesInv_push hi hpre hx
  exec_loc := fun _ _ _ _ _ _ _ _ _ => rfl
  body := by
    intro st i call _ _ _ _
    cases call with
    | googleStart browser => exact start_sat browser
    | googleCallback req => exact callback_sat req
    | _ =>
        exact sat_performs (fun _ _ _ hop => performs_state rfl hop)
          (fun _ _ _ _ _ hcall => by cases hcall)

end Runs

/-- Every callback that ended in a session carried a state that was issued to
    its own browser. -/
def LoginBound (c : Site) : Prop :=
  ∀ (i : Nat) (t : Task) (req : GoogleRequest) (location token : String),
    c.threads[i]? = some t → t.call = .googleCallback req →
    t.result = some (.ok (.google (.loggedIn location token))) →
    IssuedTo c.state.log req.browser req.state

/-- In every run in which no callback carries a stolen state, sessions go to
    the browsers that started the logins. -/
theorem login_bound (P : Platform) (w₀ : World) (hw : NoStates w₀) (c : Site)
    (hc : Run (clickScope P) ownStates w₀ c) : LoginBound c := by
  intro i t req location token ht hcall hr
  have h0 : StatesInv { world := w₀, log := [] } := by
    intro state v ex he
    rw [hw state] at he
    cases he
  rcases run_result loginStates_sound h0 hc ht hr with ⟨_, st₁, _, _, _, h1, _, hpost⟩
  exact issuedTo_mono h1 (hpost req location token hcall rfl)

/-- Browser 1 starts a login, and a given browser finishes it. -/
def loginFrom (browser : Nat) : List (Action Call EnvStep Choice) :=
  [.spawn (.googleStart 1), .run 0 { draw := "s" }, .run 0 {},
    .spawn (.googleCallback { browser := browser, state := "s", code := some "c", error := none }),
    .run 1 {}, .run 1 { idToken := some "t" },
    .run 1
      { payload := some { sub := some "g", email := some "g@b.c", emailVerified := some true } },
    .run 1 {}, .run 1 {}, .run 1 { draw := "1" }, .run 1 {}]

/-- The callback ended in a session. -/
def loggedInAs (browser : Nat) (c : Site) : Bool :=
  (c.threads[1]?).any (fun t =>
    decide (t.call = .googleCallback
      { browser := browser, state := "s", code := some "c", error := none }) &&
      t.result.any (fun r => match r with
        | .ok (.google (.loggedIn _ _)) => true
        | _ => false))

/-- Browser 1 started the only login. -/
def issuedToOne (c : Site) : Bool :=
  c.state.log.all (fun e => (issuedState e.op e.res).isNone || decide (e.call = .googleStart 1))

theorem loggedInAs_inv {browser : Nat} {c : Site} (h : loggedInAs browser c = true) :
    ∃ t location token, c.threads[1]? = some t ∧ t.call = .googleCallback
      { browser := browser, state := "s", code := some "c", error := none } ∧
      t.result = some (.ok (.google (.loggedIn location token))) := by
  simp only [loggedInAs, Option.any_eq_true, Bool.and_eq_true, decide_eq_true_eq] at h
  rcases h with ⟨t, ht, hcall, r, hr, hp⟩
  split at hp
  · exact ⟨t, _, _, ht, hcall, hr⟩
  · exact absurd hp Bool.false_ne_true

theorem noStates_empty : NoStates emptyWorld := fun _ => rfl

/-- The test that no callback of the run takes out a stolen state: every state
    was issued to browser 1, which makes the only callback. -/
def byOne (c : Site) (_ : Action Call EnvStep Choice) : Bool :=
  issuedToOne c && c.threads.all (fun t => match t.call with
    | .googleCallback req => decide (req.browser = 1)
    | _ => true)

theorem byOne_permits (c : Site) (a : Action Call EnvStep Choice) (h : byOne c a = true) :
    ownStates.permits c a := by
  cases a with
  | run i ch =>
      rintro t op k ht _ req hcall _ ⟨_, _, browser, hne, e, he, hissuer, hstate⟩
      rw [byOne, Bool.and_eq_true] at h
      have hone := List.all_eq_true.mp h.1 e he
      have hmine := List.all_eq_true.mp h.2 t (List.mem_of_getElem? ht)
      simp only [hcall, decide_eq_true_eq] at hmine
      simp only [hstate, hissuer, Option.isNone_some, Bool.false_or, decide_eq_true_eq,
        Call.googleStart.injEq] at hone
      exact hne (hone.trans hmine.symm)
  | _ => trivial

/-- A browser that finishes its own login receives a session. -/
theorem login_bound_own : ∃ c : Site, Run (clickScope samplePlatform) ownStates emptyWorld c ∧
    loggedInAs 1 c = true ∧ LoginBound c := by
  rcases exists_run_of (clickScope samplePlatform) ownStates emptyWorld byOne byOne_permits
    (loginFrom 1) (loggedInAs 1) (by decide) with ⟨c, hc, hp⟩
  exact ⟨c, hc, hp, login_bound samplePlatform emptyWorld noStates_empty c hc⟩

/-- The attacker's browser 1 starts a login, and the victim's browser 2 is made
    to finish it with the attacker's code. It receives a session. -/
theorem login_unbound : ¬ ∀ w₀ c, NoStates w₀ →
    Run (clickScope samplePlatform) Policy.free w₀ c → LoginBound c := by
  intro hall
  rcases exists_run (clickScope samplePlatform) emptyWorld (loginFrom 2)
    (fun c => loggedInAs 2 c && issuedToOne c) (by decide) with ⟨c, hc, hp⟩
  rw [Bool.and_eq_true] at hp
  rcases loggedInAs_inv hp.1 with ⟨t, location, token, ht, hcall, hr⟩
  rcases hall emptyWorld c noStates_empty hc 1 t _ location token ht hcall hr with
    ⟨e, he, hbrowser, hstate⟩
  have hone := List.all_eq_true.mp hp.2 e he
  rw [hstate, hbrowser] at hone
  exact absurd hone (by decide)

end ClickScope
