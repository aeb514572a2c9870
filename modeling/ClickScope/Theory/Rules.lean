import ClickScope.Theory.Footprint
import ClickScope.Theory.Statements

/-!
# Rules for the Service's Operations

The rule of `Async.Rely` for one awaited operation, for each shape in which
the services await one.

`sat_query` and `sat_redis` hand the proof what the database or Redis did and
pass the thrown form of a failure on to the postcondition. `sat_perform` is the
rule for the operations that cannot fail. `sat_performs` dismisses a call that
owes nothing and promises nothing, by its footprint alone.

The cache is wrapped in handlers that swallow a failure. `getCachedLink_sat`,
`fillCache_sat` and `invalidateLinkCache_sat` are the rules for the wrapped
commands, so that a proof about the lookup never sees the handlers.

## Main definitions

* `cachedOf`: What the lookup makes of the cache's reply.
* `fillCmd`: What the lookup stores.
* `Timely`: Events in the order of their times.

## Theorems

* `sat_query`, `sat_read`, `sat_redis`, `sat_perform`: One awaited operation.
* `sat_performs`: A whole call, from its footprint.
* `env_inv`: What happens of itself.
* `getCachedLink_sat`, `fillCache_sat`, `invalidateLinkCache_sat`: The cache.
* `exec_users`, `exec_ids`, `exec_drawn`: Accounts, ids and draws across any
  operation.
* `run_timely`: The clock along a run.
-/

namespace ClickScope

open Async

section Rules

variable {P : Platform} {L α : Type} {Q : Protocol Op Op.Res Err Reply Call Choice World L}
  {i : Nat} {call : Call} {st : Hist}

/-- A statement through the pool. -/
theorem sat_query {s : Stmt} {Post : Except Err s.Rows → Hist → Prop}
    (h : ∀ st₁, Later Q.loc i st st₁ → Q.Inv st₁ → st₁.Fits i call → Q.Pre st₁ i call (.db s) ∧
      ∀ ch r db, Q.mayDo st₁ i call (.db s) ch →
        st₁.world.db.exec P.pg st₁.world.now i s ch = some (r, db) →
        Post (r.mapError Err.db) (st₁.push i call (.db s) ch r { st₁.world with db := db })) :
    Sat (clickScope P) Q i call Post (query s) st := by
  intro st₁ hl hi hs
  rcases h st₁ hl hi hs with ⟨hpre, hk⟩
  refine ⟨hpre, fun ch r w hd hx => ?_⟩
  rcases exec_db_inv hx with ⟨db, hdb, rfl⟩
  have hpost := hk ch r db hd hdb
  cases r with
  | ok rows => exact hpost
  | error e => exact hpost

/-- A statement that reads leaves the world as it is. -/
theorem sat_read {s : Stmt} {Post : Except Err s.Rows → Hist → Prop} (hs : s.reads = true)
    (h : ∀ st₁, Later Q.loc i st st₁ → Q.Inv st₁ → Q.Pre st₁ i call (.db s) ∧
      ∀ ch r, st₁.world.db.exec P.pg st₁.world.now i s ch = some (r, st₁.world.db) →
        Post (r.mapError Err.db) (st₁.push i call (.db s) ch r st₁.world)) :
    Sat (clickScope P) Q i call Post (query s) st := by
  refine sat_query (fun st₁ hl hi _ => ⟨(h st₁ hl hi).1, fun ch r db _ hx => ?_⟩)
  have hread := Db.exec_read hs hx
  subst hread
  exact (h st₁ hl hi).2 ch r hx

/-- A Redis command. -/
theorem sat_redis {c : RedisCmd} {Post : Except Err c.Reply → Hist → Prop}
    (h : ∀ st₁, Later Q.loc i st st₁ → Q.Inv st₁ → st₁.Fits i call → Q.Pre st₁ i call (.redis c) ∧
      ∀ ch r s, Q.mayDo st₁ i call (.redis c) ch →
        st₁.world.redis.exec st₁.world.now c ch.fault = (r, s) →
        Post (r.mapError (fun _ => Err.redis))
          (st₁.push i call (.redis c) ch r { st₁.world with redis := s })) :
    Sat (clickScope P) Q i call Post (redis c) st := by
  intro st₁ hl hi hs
  rcases h st₁ hl hi hs with ⟨hpre, hk⟩
  refine ⟨hpre, fun ch r w hd hx => ?_⟩
  have hx' : exec P i (.redis c) ch st₁.world = some (r, w) := hx
  rcases exec_redis_inv hx' with ⟨hr, hw⟩
  have hpost := hk ch r w.redis hd hr.symm
  rw [← hw] at hpost
  cases r with
  | ok reply => exact hpost
  | error e => exact hpost

/-- An operation that returns what it answers. -/
theorem sat_perform {op : Op} {Post : Except Err op.Res → Hist → Prop}
    (h : ∀ st₁, Later Q.loc i st st₁ → Q.Inv st₁ → st₁.Fits i call → Q.Pre st₁ i call op ∧
      ∀ ch r w, Q.mayDo st₁ i call op ch → exec P i op ch st₁.world = some (r, w) →
        Post (.ok r) (st₁.push i call op ch r w)) :
    Sat (clickScope P) Q i call Post (.await op .ret) st :=
  fun st₁ hl hi hs => h st₁ hl hi hs

/-- A call that owes nothing that depends on the history, and promises nothing. -/
theorem sat_performs {Post : Except Err Reply → Hist → Prop}
    (hpre : ∀ st op, Q.Inv st → call.performs op → Q.Pre st i call op)
    (hpost : ∀ r st, Post r st) : Sat (clickScope P) Q i call Post (body P call) st :=
  sat_of_only hpre hpost _ st (body_performs P call)

/-- All that happens of itself is that time passes. -/
theorem env_inv {e : EnvStep} {w w' : World} (h : (clickScope P).env e w = some w') :
    ∃ ms, w' = { w with now := w.now + ms } := by
  cases e with
  | tick ms => exact ⟨ms, (Option.some.inj h).symm⟩

end Rules

/-- What the lookup makes of the cache's reply. A failure is a miss. -/
def cachedOf : Except RedisError (Option RedisValue) → CachedLink
  | .ok raw => readCached raw
  | .error _ => .notFound

/-- The command that stores the outcome of a lookup. -/
def fillCmd (shortCode : String) : Option RedirectLink → RedisCmd
  | none => .set (linkCacheKey shortCode) .missSentinel LINK_CACHE_NEGATIVE_TTL_SECONDS
  | some link => .set (linkCacheKey shortCode) (.link link) (linkTtl link)

section Cache

variable {P : Platform} {L : Type} {Q : Protocol Op Op.Res Err Reply Call Choice World L}
  {i : Nat} {call : Call} {st : Hist} {shortCode : String}

/-- A command whose failure is swallowed. -/
theorem sat_redis_swallow {c : RedisCmd} {a : c.Reply} {Post : Except Err c.Reply → Hist → Prop}
    (h : ∀ st₁, Later Q.loc i st st₁ → Q.Inv st₁ → st₁.Fits i call → Q.Pre st₁ i call (.redis c) ∧
      ∀ ch r s, Q.mayDo st₁ i call (.redis c) ch →
        st₁.world.redis.exec st₁.world.now c ch.fault = (r, s) →
        Post (.ok (match r with | .ok v => v | .error _ => a))
          (st₁.push i call (.redis c) ch r { st₁.world with redis := s })) :
    Sat (clickScope P) Q i call Post ((redis c).tryCatch (fun _ => .ret a)) st := by
  refine sat_tryCatch _ _ (sat_redis fun st₁ hl hi hf => ?_)
  rcases h st₁ hl hi hf with ⟨hpre, hk⟩
  refine ⟨hpre, fun ch r s hd hx => ?_⟩
  have hpost := hk ch r s hd hx
  cases r <;> exact hpost

theorem getCachedLink_sat {Post : Except Err CachedLink → Hist → Prop}
    (h : ∀ st₁, Later Q.loc i st st₁ → Q.Inv st₁ → st₁.Fits i call →
      Q.Pre st₁ i call (.redis (.get (linkCacheKey shortCode))) ∧
      ∀ ch r, Q.mayDo st₁ i call (.redis (.get (linkCacheKey shortCode))) ch →
        (r = .ok (st₁.world.redis.get st₁.world.now (linkCacheKey shortCode)) ∨
          (r = .error .unreachable ∧ ch.fault ≠ .none)) →
        Post (.ok (cachedOf r))
          (st₁.push i call (.redis (.get (linkCacheKey shortCode))) ch r st₁.world)) :
    Sat (clickScope P) Q i call Post (getCachedLink shortCode) st := by
  refine sat_tryCatch _ _ (sat_bind _ _ (sat_redis fun st₁ hl hi hf => ?_))
  rcases h st₁ hl hi hf with ⟨hpre, hk⟩
  refine ⟨hpre, fun ch r s hd hx => ?_⟩
  -- A read leaves Redis alone, whether it is answered or not.
  have hcases : s = st₁.world.redis ∧
      (r = .ok (st₁.world.redis.get st₁.world.now (linkCacheKey shortCode)) ∨
        (r = .error .unreachable ∧ ch.fault ≠ .none)) := by
    cases hfault : ch.fault with
    | none =>
        simp only [Redis.exec, hfault, Redis.reply, Redis.apply, Prod.mk.injEq] at hx
        exact ⟨hx.2.symm, Or.inl hx.1.symm⟩
    | lost | unacknowledged =>
        simp only [Redis.exec, hfault, Redis.apply, Prod.mk.injEq] at hx
        exact ⟨hx.2.symm, Or.inr ⟨hx.1.symm, by simp only [ne_eq, reduceCtorEq,
          not_false_eq_true]⟩⟩
  rw [hcases.1]
  have hpost := hk ch r hd hcases.2
  cases r <;> exact hpost

theorem fillCache_sat {link : Option RedirectLink} {Post : Except Err Unit → Hist → Prop}
    (h : ∀ st₁, Later Q.loc i st st₁ → Q.Inv st₁ → st₁.Fits i call →
      Q.Pre st₁ i call (.redis (fillCmd shortCode link)) ∧
      ∀ ch r s, Q.mayDo st₁ i call (.redis (fillCmd shortCode link)) ch →
        st₁.world.redis.exec st₁.world.now (fillCmd shortCode link) ch.fault = (r, s) →
        Post (.ok ()) (st₁.push i call (.redis (fillCmd shortCode link)) ch r
          { st₁.world with redis := s })) :
    Sat (clickScope P) Q i call Post (fillCache shortCode link) st := by
  cases link <;> exact sat_redis_swallow h

theorem invalidateLinkCache_sat {Post : Except Err Unit → Hist → Prop}
    (h : ∀ st₁, Later Q.loc i st st₁ → Q.Inv st₁ → st₁.Fits i call →
      Q.Pre st₁ i call (.redis (.del (linkCacheKey shortCode))) ∧
      ∀ ch r s, Q.mayDo st₁ i call (.redis (.del (linkCacheKey shortCode))) ch →
        st₁.world.redis.exec st₁.world.now (.del (linkCacheKey shortCode)) ch.fault = (r, s) →
        Post (.ok ()) (st₁.push i call (.redis (.del (linkCacheKey shortCode))) ch r
          { st₁.world with redis := s })) :
    Sat (clickScope P) Q i call Post (invalidateLinkCache shortCode) st :=
  sat_redis_swallow h

end Cache

section Frames

variable {P : Platform} {tid : Nat} {op : Op} {ch : Choice} {w w' : World} {r : op.Res}

/-- Only an account insert changes the accounts. -/
theorem exec_users (hop : ∀ u, op ≠ .db (.insertUser u)) (h : exec P tid op ch w = some (r, w')) :
    w'.db.users = w.db.users := by
  by_cases hs : ∀ s, op ≠ .db s
  · rw [exec_db_eq hs h]
  · push Not at hs
    rcases hs with ⟨s, rfl⟩
    rcases exec_db_inv h with ⟨db, hdb, rfl⟩
    exact Db.exec_users_eq (fun u hu => hop u (by rw [hu])) hdb

/-- Ids drawn stay drawn. -/
theorem exec_ids (h : exec P tid op ch w = some (r, w')) : ∀ x ∈ w.db.ids, x ∈ w'.db.ids := by
  by_cases hs : ∀ s, op ≠ .db s
  · rw [exec_db_eq hs h]
    exact fun _ hx => hx
  · push Not at hs
    rcases hs with ⟨s, rfl⟩
    rcases exec_db_inv h with ⟨db, hdb, rfl⟩
    exact Db.exec_ids_subset hdb

/-- Values drawn stay drawn. -/
theorem exec_drawn (h : exec P i op ch w = some (r, w')) : ∀ x ∈ w.drawn, x ∈ w'.drawn := by
  by_cases hs : ∀ s, op ≠ .db s
  · by_cases hc : ∀ c, op ≠ .redis c
    · intro x hx
      cases op with
      | randomUUID | randomState =>
          simp only [exec] at h
          -- A draw that was made before is not enabled.
          by_cases hd : ch.draw ∈ w.drawn
          · rw [if_pos hd] at h
            cases h
          · rw [if_neg hd] at h
            cases h
            exact List.mem_cons_of_mem _ hx
      | db s => exact absurd rfl (hs s)
      | redis c => exact absurd rfl (hc c)
      | enqueue data | poolConnect | getToken code | verifyIdToken token =>
          simp only [exec] at h
          cases hf : ch.fault <;> rw [hf] at h <;> cases h <;> exact hx
      | _ =>
          cases h
          exact hx
    · push Not at hc
      rcases hc with ⟨c, rfl⟩
      rw [(exec_redis_inv h).2]
      exact fun _ hx => hx
  · push Not at hs
    rcases hs with ⟨s, rfl⟩
    rcases exec_db_inv h with ⟨db, _, rfl⟩
    exact fun _ hx => hx

end Frames

section Clock

variable {P : Platform} {π : Policy Op Op.Res Call Choice World} {w₀ : World} {c : Site}

/-- Events are in the order of their times, and none is in the future. -/
structure Timely (st : Hist) : Prop where
  past : ∀ e ∈ st.log, e.after.now ≤ st.world.now
  ordered : ∀ e ∈ st.log, ∀ e' ∈ st.log, e.seq < e'.seq → e.after.now ≤ e'.after.now

/-- No operation moves the clock. -/
theorem timely_push {st : Hist} {i : Nat} {call : Call} {op : Op} {ch : Choice} {r : op.Res}
    {w : World} (hseq : st.SeqLt) (h : Timely st)
    (hx : exec P i op ch st.world = some (r, w)) : Timely (st.push i call op ch r w) := by
  have hnow := exec_now_eq hx
  refine ⟨fun e he => ?_, fun e he e' he' hlt => ?_⟩
  · simp only [State.push_log, State.push_world, List.mem_cons] at he ⊢
    rcases he with rfl | he
    · exact Nat.le_refl _
    · rw [hnow]
      exact h.past e he
  · simp only [State.push_log, List.mem_cons] at he he'
    rcases he with rfl | he
    · -- Nothing comes after the new event.
      rcases he' with rfl | he'
      · exact absurd hlt (Nat.lt_irrefl _)
      · have := hseq e' he'
        simp only at hlt
        omega
    · rcases he' with rfl | he'
      · simp only
        rw [hnow]
        exact h.past e he
      · exact h.ordered e he e' he' hlt

/-- The clock never goes back. -/
theorem run_timely (hc : Run (clickScope P) π w₀ c) : Timely c.state := by
  refine (run_state (I := Timely) ⟨fun e he => (by cases he), fun e he => by cases he⟩
    (fun st i call op ch r w hseq h hx => timely_push hseq h hx) (fun st e w h hw => ?_)
    (fun _ _ h => ⟨h.past, h.ordered⟩) hc).2
  rcases env_inv hw with ⟨ms, rfl⟩
  refine ⟨fun e he => ?_, h.ordered⟩
  have := h.past e he
  simp only
  omega

end Clock

end ClickScope
