import ClickScope.Theory.LoginState

/-!
# OAuth States are Single-Use

What a Google callback must have taken out of Redis to get anywhere.

`GET /google` draws a state and stores it for ten minutes; a callback takes
the state it carries out again, in one atomic command, before it looks at
anything else. A state is drawn once, so it is stored once, so it is taken out
once. `StateInv` is that chain as a property of the history: an entry leads to
the request that stored it, and stands for the state not having been taken; an
event that took a state leads to the entry it took.

Sending the callbacks that got past the validation to their states is therefore
injective, and each of these states was issued at most 600 seconds before. A
callback that did not get past it has performed nothing but its one command.

Redis may fail in any way. A `SET` that fails may still have stored its state,
which counts as issued, and a `GETDEL` that fails may have lost it.

## Main definitions

* `Stores`: An event that stored a state.
* `Took`: An event that took a state out.
* `Accepted`: The callbacks that got past the state validation.
* `IssuedInTime`: The state behind such a callback.
* `SingleUse`: Single-use of states, and what they gate.

## Theorems

* `stateInv_push`: Every operation keeps the invariant.
* `states_single_use`: Every run.
-/

namespace ClickScope

open Async

/-- The event stored the state. -/
def Stores (e : Ev) (state : String) : Prop :=
  e.op = .redis (.set (stateKey state) .one STATE_TTL_SECONDS)

/-- The key whose value an operation took out. -/
def tookKey : (op : Op) → op.Res → Option String
  | .redis (.getdel key), .ok (some _) => some key
  | _, _ => none

/-- The event took the state out. -/
def Took (e : Ev) (state : String) : Prop := tookKey e.op e.res = some (stateKey state)

/-- The state was stored before the event, at most its lifetime ago. -/
def StoredFor (log : List Ev) (g : Ev) (state : String) : Prop :=
  ∃ e ∈ log, Stores e state ∧ e.seq < g.seq ∧
    g.after.now < e.after.now + STATE_TTL_SECONDS * 1000

structure StateInv (st : Hist) : Prop where
  drawn : ∀ e ∈ st.log, ∀ s, issuedState e.op e.res = some s → s ∈ st.world.drawn
  drawer : ∀ e ∈ st.log, ∀ e' ∈ st.log, ∀ s, issuedState e.op e.res = some s →
    issuedState e'.op e'.res = some s → e'.tid = e.tid
  stored : ∀ e ∈ st.log, ∀ s, Stores e s → (∃ browser, e.call = .googleStart browser) ∧
    ∃ d ∈ st.log, d.tid = e.tid ∧ issuedState d.op d.res = some s
  live : ∀ s v ex, st.world.redis.entry (stateKey s) = some ⟨v, ex⟩ →
    (∃ e ∈ st.log, Stores e s ∧ ex = e.after.now + STATE_TTL_SECONDS * 1000) ∧
      ∀ g ∈ st.log, ¬ Took g s
  taken : ∀ g ∈ st.log, ∀ s, Took g s → StoredFor st.log g s
  once : ∀ g ∈ st.log, ∀ g' ∈ st.log, ∀ s, Took g s → Took g' s → g'.tid = g.tid
  gated : ∀ e ∈ st.log, ∀ req, e.call = .googleCallback req →
    e.op = .redis (.getdel (stateKey req.state)) ∨
      ∃ g ∈ st.log, g.tid = e.tid ∧ Took g req.state

/-- What a call owes: a state it stores is one it has drawn and not stored yet,
    and a callback starts with its state. -/
structure StateReady (st : Hist) (i : Nat) (call : Call) (op : Op) : Prop where
  sets : ∀ s v ex, op = .redis (.set (stateKey s) v ex) → v = .one ∧ ex = STATE_TTL_SECONDS ∧
    (∃ browser, call = .googleStart browser) ∧
    (∃ d ∈ st.mine i, issuedState d.op d.res = some s) ∧ ∀ e ∈ st.mine i, ¬ Stores e s
  gated : ∀ req, call = .googleCallback req →
    op = .redis (.getdel (stateKey req.state)) ∨ ∃ g ∈ st.mine i, Took g req.state

def singleUse : Protocol Op Op.Res Err Reply Call Choice World Unit where
  toPolicy := Policy.free
  loc := fun _ _ => ()
  Inv := StateInv
  Pre := StateReady
  Post := fun i call _ r st => ∀ req, call = .googleCallback req →
    (∃ g ∈ st.mine i, Took g req.state) ∨ ∃ e, r = .error e

section Steps

variable {P : Platform} {i : Nat} {call : Call} {st : Hist} {ch : Choice}

theorem exec_state {op : Op} {r : op.Res} {w w' : World} {s : String}
    (hx : exec P i op ch w = some (r, w')) (hs : issuedState op r = some s) :
    s ∉ w.drawn ∧ s ∈ w'.drawn := by
  cases op with
  | randomState =>
      simp only [exec] at hx
      -- Only a value that was not drawn before can be drawn.
      by_cases hd : ch.draw ∈ w.drawn
      · rw [if_pos hd] at hx
        cases hx
      · rw [if_neg hd] at hx
        cases hx
        cases hs
        exact ⟨hd, List.mem_cons_self⟩
  | _ => cases hs

theorem tookKey_inv {op : Op} {r : op.Res} {key : String} (h : tookKey op r = some key) :
    op = .redis (.getdel key) := by
  cases op with
  | redis c =>
      cases c with
      | getdel k =>
          rcases r with e | _ | v
          · cases h
          · cases h
          · simp only [tookKey, Option.some.injEq] at h
            rw [h]
      | _ => cases h
  | _ => cases h

/-- Taking a state out finds its entry, and leaves none. -/
theorem took_exec {op : Op} {r : op.Res} {w w' : World} {key : String}
    (hx : exec P i op ch w = some (r, w')) (h : tookKey op r = some key) :
    ∃ v ex, w.redis.entry key = some ⟨v, ex⟩ ∧ w.now < ex ∧ w'.redis.entry key = none := by
  have hop := tookKey_inv h
  subst hop
  rcases r with e | _ | v
  · cases h
  · cases h
  · -- The command was served, so it found the entry and deleted it.
    rcases Redis.exec_ok (exec_redis_inv hx).1.symm with ⟨hget, hafter⟩
    rcases Redis.get_some hget.symm with ⟨ex, hentry, hlt⟩
    refine ⟨v, ex, hentry, hlt, ?_⟩
    rw [hafter]
    simp only [Redis.apply, Redis.del, if_true]

theorem storedFor_push {op : Op} {r : op.Res} {w : World} {g : Ev} {s : String}
    (h : StoredFor st.log g s) : StoredFor (st.push i call op ch r w).log g s := by
  rcases h with ⟨e, he, hrest⟩
  exact ⟨e, List.mem_cons_of_mem _ he, hrest⟩

/-- A state about to be stored was never taken out. -/
theorem not_took {op : Op} {s : String} {v : RedisValue} {ex : Nat} (hi : StateInv st)
    (hpre : StateReady st i call op) (hop : op = .redis (.set (stateKey s) v ex)) :
    ∀ g ∈ st.log, ¬ Took g s := by
  intro g hg htook
  rcases hpre.sets s v ex hop with ⟨_, _, _, ⟨d, hd, hdrew⟩, hnot⟩
  rcases State.mem_mine.mp hd with ⟨hdlog, hdtid⟩
  rcases hi.taken g hg s htook with ⟨e, he, hstores, _⟩
  rcases (hi.stored e he s hstores).2 with ⟨d', hd', htid, hdrew'⟩
  -- Both drew the state, so they are one thread, which would have stored it twice.
  have hsame := hi.drawer d hdlog d' hd' s hdrew hdrew'
  refine hnot e (State.mem_mine.mpr ⟨he, ?_⟩) hstores
  rw [← htid, hsame, hdtid]

theorem live_push {op : Op} {r : op.Res} {w : World} (hi : StateInv st)
    (hpre : StateReady st i call op) (hx : exec P i op ch st.world = some (r, w)) (s : String)
    (v : RedisValue) (ex : Nat) (hentry : w.redis.entry (stateKey s) = some ⟨v, ex⟩) :
    (∃ e ∈ (st.push i call op ch r w).log, Stores e s ∧
      ex = e.after.now + STATE_TTL_SECONDS * 1000) ∧
      ∀ g ∈ (st.push i call op ch r w).log, ¬ Took g s := by
  -- The event itself took nothing, or the entry would be gone.
  have hself : ¬ tookKey op r = some (stateKey s) := by
    intro htook
    rcases took_exec hx htook with ⟨_, _, _, _, hnone⟩
    rw [hnone] at hentry
    cases hentry
  have hno : (∀ g ∈ st.log, ¬ Took g s) → ∀ g ∈ (st.push i call op ch r w).log, ¬ Took g s := by
    intro h g hg
    rcases List.mem_cons.mp hg with rfl | hg
    · exact hself
    · exact h g hg
  have hold : st.world.redis.entry (stateKey s) = some ⟨v, ex⟩ →
      (∃ e ∈ (st.push i call op ch r w).log, Stores e s ∧
        ex = e.after.now + STATE_TTL_SECONDS * 1000) ∧
        ∀ g ∈ (st.push i call op ch r w).log, ¬ Took g s := by
    intro h
    rcases hi.live s v ex h with ⟨⟨e, he, hrest⟩, hnot⟩
    exact ⟨⟨e, List.mem_cons_of_mem _ he, hrest⟩, hno hnot⟩
  -- An entry is an old one, or the operation stored it.
  by_cases hc : ∀ c, op ≠ .redis c
  · rw [exec_redis_eq hc hx] at hentry
    exact hold hentry
  · push Not at hc
    rcases hc with ⟨c, rfl⟩
    rcases exec_redis_inv hx with ⟨hexec, hw⟩
    rcases Redis.exec_entry hexec.symm hentry with hbefore | ⟨ttl, rfl, hex⟩
    · exact hold hbefore
    · -- The entry is the one just stored.
      rcases hpre.sets s v ttl rfl with ⟨rfl, rfl, _, _, _⟩
      refine ⟨⟨_, List.mem_cons_self, rfl, ?_⟩, hno (not_took hi hpre rfl)⟩
      simp only
      rw [hex, exec_now_eq hx]

theorem stateInv_push {op : Op} {r : op.Res} {w : World} (hi : StateInv st) (hs : st.SeqLt)
    (hpre : StateReady st i call op) (hx : exec P i op ch st.world = some (r, w)) :
    StateInv (st.push i call op ch r w) where
  drawn := by
    intro e he s hdrew
    rcases List.mem_cons.mp he with rfl | he
    · exact (exec_state hx hdrew).2
    · exact exec_drawn hx s (hi.drawn e he s hdrew)
  drawer := by
    intro e he e' he' s hdrew hdrew'
    rcases List.mem_cons.mp he with rfl | he
    · -- A state that is drawn was not in the list of draws, so no other event drew it.
      rcases List.mem_cons.mp he' with rfl | he'
      · rfl
      · exact absurd (hi.drawn e' he' s hdrew') (exec_state hx hdrew).1
    · rcases List.mem_cons.mp he' with rfl | he'
      · exact absurd (hi.drawn e he s hdrew) (exec_state hx hdrew').1
      · exact hi.drawer e he e' he' s hdrew hdrew'
  stored := by
    intro e he s hstores
    rcases List.mem_cons.mp he with rfl | he
    · rcases hpre.sets s _ _ hstores with ⟨_, _, hcall, ⟨d, hd, hdrew⟩, _⟩
      rcases State.mem_mine.mp hd with ⟨hdlog, hdtid⟩
      exact ⟨hcall, d, List.mem_cons_of_mem _ hdlog, hdtid, hdrew⟩
    · rcases hi.stored e he s hstores with ⟨hcall, d, hd, hrest⟩
      exact ⟨hcall, d, List.mem_cons_of_mem _ hd, hrest⟩
  live := live_push hi hpre hx
  -- A state is taken out of its entry, which one stored in time.
  taken := by
    intro g hg s htook
    rcases List.mem_cons.mp hg with rfl | hg
    · rcases took_exec hx htook with ⟨v, ex, hentry, hlt, _⟩
      rcases hi.live s v ex hentry with ⟨⟨e, he, hstores, hex⟩, _⟩
      refine ⟨e, List.mem_cons_of_mem _ he, hstores, hs e he, ?_⟩
      simp only
      rw [exec_now_eq hx, ← hex]
      exact hlt
    · exact storedFor_push (hi.taken g hg s htook)
  once := by
    -- A state that is taken out had an entry, so it had not been taken out.
    have hfirst : ∀ g ∈ st.log, ∀ s, tookKey op r = some (stateKey s) → ¬ Took g s := by
      intro g hg s htook
      rcases took_exec hx htook with ⟨v, ex, hentry, _, _⟩
      exact (hi.live s v ex hentry).2 g hg
    intro g hg g' hg' s htook htook'
    rcases List.mem_cons.mp hg with rfl | hg
    · rcases List.mem_cons.mp hg' with rfl | hg'
      · rfl
      · exact absurd htook' (hfirst g' hg' s htook)
    · rcases List.mem_cons.mp hg' with rfl | hg'
      · exact absurd htook (hfirst g hg s htook')
      · exact hi.once g hg g' hg' s htook htook'
  gated := by
    intro e he req hcall
    rcases List.mem_cons.mp he with rfl | he
    · refine (hpre.gated req hcall).imp_right ?_
      rintro ⟨g, hg, htook⟩
      rcases State.mem_mine.mp hg with ⟨hglog, hgtid⟩
      exact ⟨g, List.mem_cons_of_mem _ hglog, hgtid, htook⟩
    · refine (hi.gated e he req hcall).imp_right ?_
      rintro ⟨g, hg, hrest⟩
      exact ⟨g, List.mem_cons_of_mem _ hg, hrest⟩

/-- The other calls store no state and carry none. -/
theorem performs_ready {op : Op} (hcall : call.startsLogin = false)
    (hnot : ∀ req, call ≠ .googleCallback req) (hop : call.performs op) :
    StateReady st i call op where
  sets := by
    rintro s v ex rfl
    rcases performs_stateKey hop with ⟨browser, rfl⟩
    cases hcall
  gated := fun req hreq => absurd hreq (hnot req)

end Steps

section Programs

variable {P : Platform} {i : Nat} {st : Hist}

/-- `GET /google` stores the state it has drawn, once. -/
theorem start_once_sat (browser : Nat) (hmine : st.mine i = []) :
    Sat (clickScope P) singleUse i (.googleStart browser)
      (singleUse.Post i (.googleStart browser) st) (body P (.googleStart browser)) st := by
  refine sat_map (sat_bind _ _ (sat_perform fun st₁ hl₁ _ _ => ⟨?_, fun ch state w _ _ => ?_⟩))
  · exact ⟨fun _ _ _ hop => (by cases hop), fun _ hcall => by cases hcall⟩
  · refine sat_bind _ _ (sat_redis fun st₂ hl₂ _ _ => ⟨⟨?_, fun _ hcall => by cases hcall⟩,
      fun ch₂ r s _ _ => ?_⟩)
    · -- The draw is all the request has done so far.
      have hevents : st₂.mine i = [⟨st₁.log.length, i, .googleStart browser, .randomState, ch,
          state, w⟩] := by
        rw [hl₂.mine_eq, State.push_mine, hl₁.mine_eq, hmine]
      intro s v ex hop
      simp only [Op.redis.injEq, RedisCmd.set.injEq] at hop
      rcases hop with ⟨hkey, rfl, rfl⟩
      rw [← stateKey_inj hkey, hevents]
      refine ⟨rfl, rfl, ⟨browser, rfl⟩, ⟨_, List.mem_cons_self, rfl⟩, fun e he hstores => ?_⟩
      rw [List.mem_singleton] at he
      rw [he] at hstores
      cases hstores
    · cases r <;> exact fun _ hcall => by cases hcall

/-- What a callback does once it has taken its state out. -/
theorem accepted_sat {req : GoogleRequest} (h : ∃ g ∈ st.mine i, Took g req.state) :
    Sat (clickScope P) singleUse i (.googleCallback req)
      (fun _ st' => ∃ g ∈ st'.mine i, Took g req.state) (acceptCallback P req) st := by
  refine sat_keeps (fun st₁ st₂ hl hF => ?_) (fun st₁ _ _ _ _ _ hF => ?_)
    (fun st₁ op _ hF hop => ?_) (fun _ _ hF => hF) _ st (acceptCallback_only P req) h
  · rw [hl.mine_eq]
    exact hF
  · rcases hF with ⟨g, hg, htook⟩
    rw [State.push_mine]
    exact ⟨g, List.mem_cons_of_mem _ hg, htook⟩
  · -- None of the operations that follow stores a state.
    refine ⟨?_, fun req' hcall => ?_⟩
    · rintro s v ex rfl
      have hperforms : (Call.googleCallback req).performs (.redis (.set (stateKey s) v ex)) := hop
      rcases performs_stateKey hperforms with ⟨browser, hcall⟩
      cases hcall
    · rw [Call.googleCallback.injEq] at hcall
      rw [← hcall]
      exact Or.inr hF

/-- A callback that gets past its first command has taken its state out. -/
theorem callback_once_sat (req : GoogleRequest) :
    Sat (clickScope P) singleUse i (.googleCallback req)
      (singleUse.Post i (.googleCallback req) st) (body P (.googleCallback req)) st := by
  refine sat_map (sat_bind _ _ (sat_bind _ _ (sat_redis fun st₁ _ _ _ =>
    ⟨⟨fun _ _ _ hop => (by cases hop), fun req' hcall => ?_⟩, fun ch r s _ _ => ?_⟩)))
  · rw [Call.googleCallback.injEq] at hcall
    rw [hcall]
    exact Or.inl rfl
  · rcases r with e | value
    · exact fun _ _ => Or.inr ⟨_, rfl⟩
    · simp only [Except.mapError, thenSat_ok]
      -- Without a value the request is denied; with one, the state was taken out.
      cases hvalue : value with
      | none => exact fun _ _ => Or.inr ⟨_, rfl⟩
      | some v =>
          change Sat (clickScope P) singleUse i (.googleCallback req) _ (acceptCallback P req) _
          refine sat_mono (fun r st' htook req' hcall => ?_) _ _ (accepted_sat ?_)
          · rw [Call.googleCallback.injEq] at hcall
            rw [← hcall]
            exact Or.inl htook
          · rw [State.push_mine]
            exact ⟨_, List.mem_cons_self, rfl⟩

end Programs

section Runs

variable {P : Platform} {w₀ : World} {c : Site}

theorem singleUse_sound : Sound (clickScope P) singleUse where
  env := by
    intro st e w hi hw
    rcases env_inv hw with ⟨ms, rfl⟩
    exact ⟨hi.drawn, hi.drawer, hi.stored, hi.live, hi.taken, hi.once, hi.gated⟩
  env_loc := fun _ _ _ _ _ => rfl
  reap := fun _ _ hi =>
    ⟨hi.drawn, hi.drawer, hi.stored, hi.live, hi.taken, hi.once, hi.gated⟩
  reap_loc := fun _ _ _ _ => rfl
  exec := fun _ _ _ _ _ _ _ hi hf hpre _ hx => stateInv_push hi hf.seqLt hpre hx
  exec_loc := fun _ _ _ _ _ _ _ _ _ => rfl
  body := by
    intro st i call _ _ hmine _
    -- Only the two routes of a login touch a state.
    cases call with
    | googleStart browser => exact start_once_sat browser hmine
    | googleCallback req => exact callback_once_sat req
    | _ =>
        exact sat_performs
          (fun _ _ _ hop => performs_ready rfl (fun _ hcall => by cases hcall) hop)
          (fun _ _ _ hcall => by cases hcall)

end Runs

/-- Request `i` is a callback that got past the state validation. -/
def Accepted (c : Site) (i : Nat) (req : GoogleRequest) : Prop :=
  (∃ t, c.threads[i]? = some t ∧ t.call = .googleCallback req) ∧
    ∃ g ∈ c.state.mine i, Took g req.state

/-- `GET /google` issued the state at most 600 seconds before request `i` took
    it out. -/
def IssuedInTime (c : Site) (i : Nat) (state : String) : Prop :=
  ∃ g ∈ c.state.mine i, Took g state ∧ ∃ e ∈ c.state.log, Stores e state ∧
    (∃ browser, e.call = .googleStart browser) ∧ e.seq < g.seq ∧
    e.after.now ≤ g.after.now ∧ g.after.now < e.after.now + 600 * 1000

/-- The callbacks that got past the state validation map one to one to states
    issued at most 600 seconds before. Every other callback has performed
    nothing but the command that asks for its state, and ends in an error. -/
def SingleUse (c : Site) : Prop :=
  (∃ f : Nat → String, Set.InjOn f {i | ∃ req, Accepted c i req} ∧
    ∀ i req, Accepted c i req → f i = req.state ∧ IssuedInTime c i (f i)) ∧
  ∀ (i : Nat) (t : Task) (req : GoogleRequest), c.threads[i]? = some t →
    t.call = .googleCallback req → ¬ Accepted c i req →
    (∀ e ∈ c.state.mine i, e.op = .redis (.getdel (stateKey req.state))) ∧
    ∀ r, t.result = some r → ∃ e, r = .error e

/-- The state a callback carries. -/
def Call.carriedState : Call → String
  | .googleCallback req => req.state
  | _ => ""

/-- The state thread `i` carries, if it is a callback. -/
def carriedState (c : Site) (i : Nat) : String :=
  (c.threads[i]?).elim "" (fun t => t.call.carriedState)

theorem carriedState_eq {c : Site} {i : Nat} {t : Task} {req : GoogleRequest}
    (ht : c.threads[i]? = some t) (hcall : t.call = .googleCallback req) :
    carriedState c i = req.state := by
  simp only [carriedState, ht, Option.elim_some, hcall, Call.carriedState]

/-- States are single-use and gate everything, in every run. -/
theorem states_single_use (P : Platform) (w₀ : World) (hw : NoStates w₀) (c : Site)
    (hc : Run (clickScope P) Policy.free w₀ c) : SingleUse c := by
  have h0 : StateInv { world := w₀, log := [] } :=
    { drawn := fun e he => by cases he
      drawer := fun e he => by cases he
      stored := fun e he => by cases he
      live := fun s v ex hentry => by
        rw [hw s] at hentry
        cases hentry
      taken := fun g hg => by cases hg
      once := fun g hg => by cases hg
      gated := fun e he => by cases he }
  have hi := run_inv singleUse_sound h0 hc
  refine ⟨⟨carriedState c, ?_, ?_⟩, ?_⟩
  · -- Two accepted callbacks with one state took it out twice, which one thread does at most.
    rintro i ⟨req, ⟨t, ht, hcall⟩, g, hg, htook⟩ j ⟨req', ⟨t', ht', hcall'⟩, g', hg', htook'⟩ heq
    rw [carriedState_eq ht hcall, carriedState_eq ht' hcall'] at heq
    rcases State.mem_mine.mp hg with ⟨hglog, hgtid⟩
    rcases State.mem_mine.mp hg' with ⟨hglog', hgtid'⟩
    rw [← heq] at htook'
    rw [← hgtid, ← hgtid']
    exact (hi.once g hglog g' hglog' req.state htook htook').symm
  · rintro i req ⟨⟨t, ht, hcall⟩, g, hg, htook⟩
    rw [carriedState_eq ht hcall]
    have hglog := (State.mem_mine.mp hg).1
    rcases hi.taken g hglog req.state htook with ⟨e, he, hstores, hseq, htime⟩
    exact ⟨rfl, g, hg, htook, e, he, hstores, (hi.stored e he req.state hstores).1, hseq,
      (run_timely hc).ordered e he g hglog hseq, htime⟩
  · intro i t req ht hcall hnot
    -- No event of the callback took its state out.
    have hnone : ∀ g ∈ c.state.mine i, ¬ Took g req.state :=
      fun g hg htook => hnot ⟨⟨t, ht, hcall⟩, g, hg, htook⟩
    refine ⟨fun e he => ?_, fun r hr => ?_⟩
    · rcases State.mem_mine.mp he with ⟨helog, hetid⟩
      have hecall := ((run_fits hc ht).own e helog hetid).trans hcall
      rcases hi.gated e helog req hecall with hop | ⟨g, hg, hgtid, htook⟩
      · exact hop
      · exact absurd htook (hnone g (State.mem_mine.mpr ⟨hg, hgtid.trans hetid⟩))
    · rcases run_result singleUse_sound h0 hc ht hr with ⟨_, st₁, _, _, _, _, hmine, hpost⟩
      rcases hpost req hcall with ⟨g, hg, htook⟩ | herr
      · rw [hmine] at hg
        exact absurd htook (hnone g hg)
      · exact herr

/-- Callbacks 1 and 2 carry the state of login 0. The first is let in. -/
def replayed (c : Site) : Bool :=
  (c.resultOf 1).any (fun r => match r with
    | .ok (.google (.denied _)) => true
    | _ => false) &&
  (c.resultOf 2).any (fun r => match r with
    | .error (.app e) => e.statusCode == 400
    | _ => false)

/-- A login is started, and two callbacks carry its state. -/
theorem states_single_use_replay : ∃ c : Site,
    Run (clickScope samplePlatform) Policy.free emptyWorld c ∧ replayed c = true ∧
    SingleUse c := by
  rcases exists_run (clickScope samplePlatform) emptyWorld
    [.spawn (.googleStart 1), .run 0 { draw := "s" }, .run 0 {},
      .spawn (.googleCallback { browser := 1, state := "s", code := none, error := some "x" }),
      .spawn (.googleCallback { browser := 2, state := "s", code := none, error := some "x" }),
      .run 1 {}, .run 2 {}]
    replayed (by decide) with ⟨c, hc, hp⟩
  exact ⟨c, hc, hp, states_single_use samplePlatform emptyWorld noStates_empty c hc⟩

end ClickScope
