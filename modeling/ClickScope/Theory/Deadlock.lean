import ClickScope.Async.Drain
import ClickScope.Theory.Locks

/-!
# The Pool Never Deadlocks

Whatever happened before, the calls that are still running can be run to their
end without any further failure.

A statement waits when another transaction holds what it needs. A transaction
that holds a row has computed the row's new version, and all that its attempt
has left to send is the commit or a rollback, which never wait. A transaction
that holds only its click may have to wait for a row, and then the one that
holds the row can move. So the locks are taken in one order, and among any
calls that wait there is one that does not. An update or a delete needs one row.
The sweep needs many, and is taken to lock all of them at once, when no open
transaction holds one of them.

Failures are not needed for this: a worker whose connection is lost never
waits, and the theorems here let no operation fail.

## Main definitions

* `NoRowHeld`, `NothingHeld`: What no open transaction holds.
* `Faultless`: A choice under which an operation does not fail.

## Theorems

* `exec_unblocked`: Without a transaction that holds something, no operation
  waits.
* `run_unstuck`: While a call is left, some call can move.
* `always_drains`: Every reachable pool can be drained.
-/

namespace ClickScope

open Async

/-- No open transaction holds a row. -/
def NoRowHeld (db : Db) : Prop := ∀ t ∈ db.txs, t.bumped = none

/-- No open transaction holds a row or a click. -/
def NothingHeld (db : Db) : Prop := ∀ t ∈ db.txs, t.inserted = none ∧ t.bumped = none

/-- The operation is answered without a failure. -/
def Faultless (ch : Choice) : Prop := ch.fault = .none

namespace Db

section Enabled

variable {pg : Postgres} {now tid : Nat} {ch : Choice} {db : Db}

theorem rowLocked_of_noRowHeld (h : NoRowHeld db) (id : String) : db.rowLocked id = false := by
  unfold rowLocked
  rw [List.any_eq_false]
  intro t ht
  rw [h t ht]
  simp only [Option.any_none, Bool.false_eq_true, not_false_eq_true]

theorem keyShared_of_nothingHeld (h : NothingHeld db) (id : String) : db.keyShared id = false := by
  unfold keyShared
  rw [List.any_eq_false]
  intro t ht
  rw [(h t ht).1]
  simp only [Option.any_none, Bool.false_eq_true, not_false_eq_true]

theorem jobPending_of_nothingHeld (h : NothingHeld db) (jobId : String) :
    db.jobPending tid jobId = false := by
  unfold jobPending
  rw [List.any_eq_false]
  intro t ht
  rw [(h t ht).1]
  simp only [Option.any_none, Bool.and_false, Bool.false_eq_true, not_false_eq_true]

/-- The counter update waits for a row only. -/
theorem increment_unblocked {linkId : String} {t : ClickTx} (h : NoRowHeld db)
    (ht : db.txOf tid = some t) (hbump : t.bumped = none) :
    (Db.exec pg now tid (.incrementClickCount linkId) ch db).isSome = true := by
  simp only [Db.exec, incrementClickCount, ht, hbump, abortTx, Option.isSome_none]
  split
  · rfl
  · rw [if_neg Bool.false_ne_true]
    split
    · rfl
    · split
      · rfl
      · rw [rowLocked_of_noRowHeld h, if_neg Bool.false_ne_true]
        split <;> rfl

/-- The click insert waits for another click of its job only. -/
theorem insertClick_unblocked {data : ClickJobData} {t : ClickTx} (h : NothingHeld db)
    (ht : db.txOf tid = some t) (hins : t.inserted = none) (hfresh : ch.draw ∉ db.ids) :
    (Db.exec pg now tid (.insertClick data) ch db).isSome = true := by
  simp only [Db.exec, insertClick, ht, hins, abortTx, Option.isSome_none,
    jobPending_of_nothingHeld h]
  split
  · rfl
  · rw [if_neg Bool.false_ne_true]
    split
    · rfl
    · split
      · rfl
      · rw [if_neg Bool.false_ne_true]
        split
        · rfl
        · split
          · rfl
          · rfl

/-- A statement of the pool waits for a transaction that holds something. -/
theorem pool_unblocked {s : Stmt} (hs : s.ofWorker = false) (h : NothingHeld db)
    (hfresh : ch.draw ∉ db.ids) (hwaited : ch.waited = 0) :
    (Db.exec pg now tid s ch db).isSome = true := by
  have hrows := rowLocked_of_noRowHeld (fun t ht => (h t ht).2)
  -- A statement that began just now sees every row.
  have hsees : ∀ r, sees now (now - ch.waited) r = true := by
    intro r
    rw [sees, hwaited, Nat.sub_zero, decide_eq_true (Nat.le_refl now), Bool.true_or]
  cases s with
  | insertUser u =>
      simp only [Db.exec, if_neg hfresh, Option.isSome_some]
  | insertLink l =>
      simp only [Db.exec, if_neg hfresh, Option.isSome_some]
  | updateLink set i u values =>
      simp only [Db.exec, updateLink]
      split
      · rfl
      · split
        · split
          · rfl
          · rw [hrows, hsees, Bool.not_true, Bool.or_self, if_neg Bool.false_ne_true]
            split
            · rfl
            · split <;> rfl
        · rfl
  | deleteLink id userId =>
      simp only [Db.exec, deleteLink]
      split
      · rfl
      · rcases db.links.find? (ownedBy id userId) with _ | row
        · rfl
        · simp only [hrows, keyShared_of_nothingHeld h, Bool.or_self, Bool.false_eq_true, if_false,
            Option.isSome_some]
  | sweepExpired =>
      have hfree : db.links.any (fun r =>
          sweepMatches now (now - ch.waited) r && db.rowLocked r.id) = false := by
        rw [List.any_eq_false]
        intro r _
        rw [hrows, Bool.and_false]
        exact Bool.false_ne_true
      simp only [Db.exec, sweepExpired, hfree, Bool.false_eq_true, if_false, Option.isSome_some]
  | linkIdByCode code =>
      simp only [Db.exec]
      split <;> rfl
  | begin | insertClick | incrementClickCount | commit | rollback => cases hs
  | _ => rfl

end Enabled

end Db

section Moves

variable {P : Platform} {i : Nat} {st : Hist}

theorem exec_db_isSome {s : Stmt} {ch : Choice} {w : World}
    (h : (w.db.exec P.pg w.now i s ch).isSome = true) :
    (exec P i (.db s) ch w).isSome = true := by
  rcases Option.isSome_iff_exists.mp h with ⟨⟨r, db⟩, hx⟩
  simp only [exec, hx, Option.isSome_some]

/-- A value that neither the database nor the service has drawn. -/
theorem exists_draw (w : World) : ∃ x, x ∉ w.db.ids ∧ x ∉ w.drawn := by
  rcases exists_fresh (w.db.ids ++ w.drawn) with ⟨x, hx⟩
  rw [List.mem_append, not_or] at hx
  exact ⟨x, hx.1, hx.2⟩

/-- A commit or a rollback never waits. -/
theorem exec_ended {op : Op} (hop : op = .db .commit ∨ op = .db .rollback) (ch : Choice)
    (w : World) : (exec P i op ch w).isSome = true := by
  rcases hop with rfl | rfl <;> exact exec_db_isSome rfl

/-- Where no transaction holds anything, nothing waits. -/
theorem exec_unblocked {op : Op} (hpre : lockPre st i op) (h : NothingHeld st.world.db) :
    ∃ ch, Faultless ch ∧ (exec P i op ch st.world).isSome = true := by
  rcases exists_draw st.world with ⟨x, hid, hdrawn⟩
  refine ⟨{ draw := x }, rfl, ?_⟩
  cases op with
  | db s =>
      cases hs : s.ofWorker with
      | false => exact exec_db_isSome (Db.pool_unblocked hs h hid rfl)
      | true =>
          cases s with
          | insertClick data =>
              rcases hpre with ⟨t, ht, _, hins, _⟩
              exact exec_db_isSome (Db.insertClick_unblocked h ht hins hid)
          | incrementClickCount linkId =>
              rcases hpre with ⟨t, c, ht, _, _, _, hbump⟩
              exact exec_db_isSome (Db.increment_unblocked (fun t ht => (h t ht).2) ht hbump)
          | begin | commit | rollback => exact exec_db_isSome rfl
          | _ => cases hs
  | randomUUID | randomState =>
      simp only [exec, if_neg hdrawn, Option.isSome_some]
  | _ => rfl

end Moves

section Runs

variable {P : Platform} {w₀ : World} {c : Site}

/-- A thread whose operation is enabled can move. -/
theorem step_enabled {i : Nat} {u : Task} {op : Op} {k : op.Res → Api Reply} {ch : Choice}
    (hu : c.threads[i]? = some u) (ha : u.alive = true) (hp : u.prog = .await op k)
    (hx : (exec P i op ch c.state.world).isSome = true) :
    c.step (clickScope P) (.run i ch) ≠ none := by
  rcases Option.isSome_iff_exists.mp hx with ⟨⟨r, w⟩, hx⟩
  have hx' : (clickScope P).exec i op ch c.state.world = some (r, w) := hx
  simp only [Config.step, hu, ha, hp, hx', ne_eq, reduceCtorEq, not_false_eq_true]

/-- While a call is left, some call can move without a failure. -/
theorem run_unstuck (hlinks : w₀.db.links = []) (hclicks : w₀.db.clicks = [])
    (htxs : w₀.db.txs = []) (hc : Run (clickScope P) Policy.free w₀ c) (hleft : ¬ c.Drained) :
    ¬ c.Stuck (clickScope P) Faultless := by
  have hinv := run_locksInv hlinks hclicks htxs hc
  have howner := run_owner hlinks hclicks htxs hc
  by_cases hrow : NoRowHeld c.state.world.db
  · by_cases hany : NothingHeld c.state.world.db
    · -- Nothing is held, so any call that is left can move.
      unfold Config.Drained at hleft
      push Not at hleft
      rcases hleft with ⟨u, hmem, ha, hfin⟩
      rcases List.getElem?_of_mem hmem with ⟨i, hu⟩
      cases hp : u.prog with
      | ret | throw =>
          rw [hp] at hfin
          exact absurd rfl hfin
      | await op k =>
          have hpre := run_awaits hlinks hclicks htxs hc hu ha hp
          rcases exec_unblocked (P := P) hpre hany with ⟨ch, hch, hx⟩
          exact fun hstuck => step_enabled hu ha hp hx (hstuck i ch hch)
    · -- A click is held and no row, so the attempt that holds the click can move.
      unfold NothingHeld at hany
      push Not at hany
      rcases hany with ⟨t, ht, hheld⟩
      rcases howner t ht with ⟨u, op, k, hu, ha, hp⟩
      have hpre := run_awaits hlinks hclicks htxs hc hu ha hp
      have hx : (exec P t.tid op {} c.state.world).isSome = true := by
        rcases lockPre_inside hinv ht hpre with ⟨_, _, hnone, _⟩ | ⟨linkId, rfl, hbump⟩ | hend
        · exact absurd (hrow t ht) (hheld hnone)
        · rcases hpre with ⟨v, _, hv, _, _, _, hvbump⟩
          exact exec_db_isSome (Db.increment_unblocked hrow hv hvbump)
        · exact exec_ended hend _ _
      exact fun hstuck => step_enabled hu ha hp hx (hstuck t.tid {} rfl)
  · -- A row is held, and the attempt that holds it has only to end its transaction.
    unfold NoRowHeld at hrow
    push Not at hrow
    rcases hrow with ⟨t, ht, hheld⟩
    rcases howner t ht with ⟨u, op, k, hu, ha, hp⟩
    have hx : (exec P t.tid op {} c.state.world).isSome = true := by
      rcases lockPre_inside hinv ht (run_awaits hlinks hclicks htxs hc hu ha hp) with
        ⟨_, _, _, hbump⟩ | ⟨_, _, hbump⟩ | hend
      · exact absurd hbump hheld
      · exact absurd hbump hheld
      · exact exec_ended hend _ _
    exact fun hstuck => step_enabled hu ha hp hx (hstuck t.tid {} rfl)

/-- Where no call is left, no transaction is. -/
theorem drained_txs (hlinks : w₀.db.links = []) (hclicks : w₀.db.clicks = [])
    (htxs : w₀.db.txs = []) (hc : Run (clickScope P) Policy.free w₀ c) (hdone : c.Drained) :
    c.state.world.db.txs = [] := by
  rcases hl : c.state.world.db.txs with _ | ⟨t, rest⟩
  · rfl
  · have ht : t ∈ c.state.world.db.txs := by
      rw [hl]
      exact List.mem_cons_self
    rcases run_owner hlinks hclicks htxs hc t ht with ⟨u, op, k, hu, ha, hp⟩
    have hfin := hdone u (List.mem_of_getElem? hu) ha
    rw [hp] at hfin
    cases hfin

end Runs

/-- From every reachable state, after any calls, failures and deaths, the calls
    that are left can be run to their end without a further failure, and then
    no transaction is open. And no order of their steps goes on for ever. -/
theorem always_drains (P : Platform) (w₀ : World) (hlinks : w₀.db.links = [])
    (hclicks : w₀.db.clicks = []) (htxs : w₀.db.txs = []) (c : Site)
    (hc : Run (clickScope P) Policy.free w₀ c) :
    (∃ acts c', (∀ a ∈ acts, Faultless a.2) ∧ c.runs (clickScope P) acts = some c' ∧
      c'.Drained ∧ c'.state.world.db.txs = []) ∧
    ∀ f : Nat → Site, f 0 = c →
      ¬ ∀ n, ∃ i ch, (f n).step (clickScope P) (.run i ch) = some (f (n + 1)) := by
  refine ⟨?_, fun f _ => Config.no_endless_steps f⟩
  have hkeeps : ∀ (d d' : Site) (i : Nat) (ch : Choice), Run (clickScope P) Policy.free w₀ d →
      d.step (clickScope P) (.run i ch) = some d' → Run (clickScope P) Policy.free w₀ d' :=
    fun d d' i ch hd hs => Run.step d d' (.run i ch) hd (fun _ _ _ _ _ => trivial) hs
  rcases Config.exists_drained hkeeps (fun d hd => run_unstuck hlinks hclicks htxs hd) c hc with
    ⟨acts, c', hacts, hruns, hc', hdone⟩
  exact ⟨acts, c', hacts, hruns, hdone, drained_txs hlinks hclicks htxs hc' hdone⟩

/-- Two attempts at one job, of which the second waits for the first, and an
    owner who waits to delete the link. -/
theorem always_drains_waiting : ∃ c : Site,
    Run (clickScope samplePlatform) Policy.free ownerWorld c ∧
    (c.state.world.db.txs.length = 2 ∧
      (c.step (clickScope samplePlatform) (.run 2 { draw := "m" })).isNone = true ∧
      (c.step (clickScope samplePlatform) (.run 3 {})).isNone = true) ∧
    (∃ acts c', (∀ a ∈ acts, Faultless a.2) ∧
      c.runs (clickScope samplePlatform) acts = some c' ∧ c'.Drained ∧
      c'.state.world.db.txs = []) ∧
    ∀ f : Nat → Site, f 0 = c → ¬ ∀ n, ∃ i ch,
      (f n).step (clickScope samplePlatform) (.run i ch) = some (f (n + 1)) := by
  have hrun := exists_run (clickScope samplePlatform) ownerWorld
    [.spawn (.createLink "u" sampleInput), .run 0 { draw := "abcdefg" }, .run 0 { draw := firstId },
      .spawn (.processClickJob sampleJob), .spawn (.processClickJob sampleJob),
      .spawn (.deleteLink "u" firstId), .run 1 {}, .run 2 {}, .run 1 {}, .run 2 {},
      .run 1 { draw := "k" }]
    (fun c => decide (c.state.world.db.txs.length = 2) &&
      (c.step (clickScope samplePlatform) (.run 2 { draw := "m" })).isNone &&
      (c.step (clickScope samplePlatform) (.run 3 {})).isNone) (by decide)
  rcases hrun with ⟨c, hc, htest⟩
  rw [Bool.and_eq_true, Bool.and_eq_true, decide_eq_true_eq] at htest
  exact ⟨c, hc, ⟨htest.1.1, htest.1.2, htest.2⟩,
    always_drains samplePlatform ownerWorld rfl rfl rfl c hc⟩

end ClickScope
