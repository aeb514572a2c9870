import ClickScope.Theory.ExactlyOnce

/-!
# Who Holds a Transaction

What the open click transactions hold, and who can let go of it, in every run.

Nothing is asked of the calls that start or of the order of their operations,
so jobs may share a click id and the queue may deliver what was never enqueued.
What the code itself promises at each statement of an attempt is enough for the
tables to be right, which is `lockPre`. It also says in what state the attempt's
transaction is when it sends the statement, and so what an attempt that has a
transaction open can be waiting for.

The attempt is told apart by the last thing it did. A transaction is open only
while that was a statement that left it open, so a thread that has ended, or
was killed, has none.

## Main definitions

* `Op.holds`: A statement after which a transaction can be open.
* `lockPre`: What a call owes at each operation.
* `LeftOpen`: Every open transaction's thread has just left it open.
* `locks`: The protocol.

## Theorems

* `exec_txOk`: Every statement keeps the tables right.
* `lockPre_inside`: What the thread of an open transaction can be about to do.
* `locks_sound`: The code meets its obligations.
* `run_locksInv`: The tables and transactions of every reachable state.
* `run_owner`: Every open transaction belongs to a live attempt.
* `run_awaits`: What a thread is waiting for is what it may do.
-/

namespace ClickScope

open Async

/-- A statement after which the attempt's transaction can be open. -/
def Op.holds : Op → Bool
  | .db .begin => true
  | .db (.insertClick _) => true
  | .db (.incrementClickCount _) => true
  | _ => false

/-- What a call owes at an operation: a transaction is begun once, inserts a
    click before it counts it, and is complete when it commits. Any other
    operation is outside of a transaction. -/
def lockPre (st : Hist) (i : Nat) : Op → Prop
  | .db .begin => st.world.db.txOf i = none
  | .db (.insertClick _) => ∃ t, st.world.db.txOf i = some t ∧ t.aborted = false ∧
      t.inserted = none ∧ t.bumped = none
  | .db (.incrementClickCount linkId) => ∃ t c, st.world.db.txOf i = some t ∧
      t.aborted = false ∧ t.inserted = some c ∧ c.linkId = linkId ∧ t.bumped = none
  | .db .commit => ∃ t, st.world.db.txOf i = some t ∧ Db.Complete t
  | .db .rollback => True
  | _ => ∀ e ∈ st.mine i, e.op.holds = false

/-- The thread of every open transaction has just left it open. -/
def LeftOpen (st : Hist) : Prop :=
  ∀ t ∈ st.world.db.txs, ∃ e rest, st.mine t.tid = e :: rest ∧ e.op.holds = true

structure LocksInv (st : Hist) : Prop where
  ok : Db.TxOk st.world.db
  left : LeftOpen st

def locks : Protocol Op Op.Res Err Reply Call Choice World (Option ClickTx) where
  toPolicy := Policy.free
  loc := fun i w => w.db.txOf i
  Inv := LocksInv
  Pre := fun st i _ op => lockPre st i op
  Post := fun i _ _ _ st => ∀ e rest, st.mine i = e :: rest → e.op.holds = false

namespace Db

section Tables

variable {pg : Postgres} {now tid : Nat} {ch : Choice} {db db' : Db}

/-- A transaction that has inserted nothing has counted nothing. -/
theorem bumped_none (h : TxOk db) {t : ClickTx} (ht : t ∈ db.txs) (hins : t.inserted = none) :
    t.bumped = none := by
  rcases hb : t.bumped with _ | b
  · rfl
  · rcases (h.bumped t ht b hb).2 with ⟨c, hc, _⟩
    rw [hins] at hc
    cases hc

/-- The statements of the pool keep the tables right. -/
theorem exec_txOk_pool {s : Stmt} {r : Except DbError s.Rows} (hs : s.ofWorker = false)
    (h : TxOk db) (hx : Db.exec pg now tid s ch db = some (r, db')) : TxOk db' := by
  cases s with
  | insertUser u =>
      rcases insertUser_inv hx with ⟨_, ⟨_, _, _, _, rfl⟩ | ⟨_, _, ⟨ids, hids, rfl⟩, _⟩⟩
      · exact txOk_congr h rfl rfl rfl (fun _ hid => List.mem_cons_of_mem _ hid)
      · exact txOk_congr h rfl rfl rfl hids
  | insertLink l =>
      rcases insertLink_inv hx with ⟨hfresh, ⟨_, _, rfl⟩ | ⟨_, _, ⟨ids, hids, rfl⟩, _⟩⟩
      · exact txOk_insertLink h hfresh rfl
      · exact txOk_congr h rfl rfl rfl hids
  | updateLink set a u values =>
      rcases updateLink_inv hx with ⟨_, _, rfl⟩ | ⟨_, rfl⟩ |
        ⟨id, userId, row, row', _, _, _, hrow, hlock, _, hset, _, _, rfl⟩
      · exact h
      · exact h
      · -- The one row that is rewritten is not locked.
        have hkeep := applySet_keeps hset
        have hsame : ∀ r ∈ db.links, ownedBy id userId r = true → r = row :=
          fun r hr ho => (ownedBy_found h.linkKey hrow hr).mp ho
        refine txOk_mapLinks h (fun r hr => ?_) (fun r hr => ?_) (fun r hr hlocked => ?_)
        · by_cases ho : ownedBy id userId r = true
          · rw [if_pos ho, hsame r hr ho, hkeep.1]
          · rw [if_neg ho]
        · by_cases ho : ownedBy id userId r = true
          · rw [if_pos ho, hsame r hr ho, hkeep.2.1]
          · rw [if_neg ho]
        · by_cases ho : ownedBy id userId r = true
          · rw [hsame r hr ho, hlock] at hlocked
            cases hlocked
          · rw [if_neg ho]
  | deleteLink id userId =>
      rcases deleteLink_inv hx with ⟨_, _, _, rfl⟩ | ⟨_, _, rfl⟩ |
        ⟨row, hrow, hlock, hshare, _, rfl⟩
      · exact h
      · exact h
      · exact txOk_deleteLink h hrow hlock hshare
  | sweepExpired =>
      rcases sweepExpired_inv hx with ⟨hlock, _, rfl⟩
      refine txOk_mapLinks h (fun r _ => ?_) (fun r _ => ?_) (fun r hr hlocked => ?_)
      · by_cases hm : sweepMatches now (now - ch.waited) r = true
        · rw [if_pos hm]
          rfl
        · rw [if_neg hm]
      · by_cases hm : sweepMatches now (now - ch.waited) r = true
        · rw [if_pos hm]
          rfl
        · rw [if_neg hm]
      · by_cases hm : sweepMatches now (now - ch.waited) r = true
        · rw [hlock r hr hm] at hlocked
          cases hlocked
        · rw [if_neg hm]
  | userIdByEmail | userByEmail | userByOAuth | userById | linkIdByCode | listLinks | countLinks
  | linkById | redirectLookup | clickStats =>
      rw [exec_read rfl hx]
      exact h
  | begin | insertClick | incrementClickCount | commit | rollback =>
      simp only [Stmt.ofWorker, Bool.true_eq_false] at hs

end Tables

end Db

section Steps

variable {P : Platform} {i : Nat} {st : Hist} {ch : Choice}

/-- The statements of an attempt that owes what the code promises keep the
    tables right. -/
theorem exec_txOk_worker {s : Stmt} {r : Except DbError s.Rows} {db : Db}
    (hs : s.ofWorker = true) (h : Db.TxOk st.world.db) (hpre : lockPre st i (.db s))
    (hx : st.world.db.exec P.pg st.world.now i s ch = some (r, db)) : Db.TxOk db := by
  cases s with
  | begin =>
      rcases Db.begin_inv hx with ⟨_, rfl⟩ | ⟨_, _, rfl⟩ | ⟨_, hnone, rfl⟩
      · exact h
      · exact h
      · exact Db.txOk_begin h hnone
  | insertClick data =>
      rcases Db.insertClick_inv hx with ⟨_, _, rfl | rfl⟩ |
        ⟨t, ht, _, hins, hpend, ⟨_, rfl, _⟩ | ⟨_, hjob, hlink, _, rfl⟩⟩
      · exact h
      · exact Db.txOk_aborted h
      · exact h
      · exact Db.txOk_inserted h ht (Db.bumped_none h (Db.txOf_mem ht).1 hins) hpend hjob hlink
  | incrementClickCount linkId =>
      rcases hpre with ⟨t, c, ht, _, hins, hlink, _⟩
      rcases Db.incrementClickCount_inv hx with ⟨_, _, rfl | rfl⟩ |
        ⟨_, _, _, _, ⟨_, rfl, _⟩ | ⟨row, _, hrow, hlock, rfl⟩⟩
      · exact h
      · exact Db.txOk_aborted h
      · exact h
      · -- The row is the one of the click the transaction inserted.
        have hid : row.id = linkId := beq_iff_eq.mp (List.find?_some hrow :)
        exact Db.txOk_bumped h ht hins (hlink.trans hid.symm) (List.mem_of_find?_eq_some hrow) hlock
  | commit =>
      rcases hpre with ⟨t, ht, hcomp⟩
      rcases Db.commit_inv hx with ⟨_, _, rfl⟩ | ⟨u, hu, ⟨_, _, rfl⟩ | ⟨_, rfl⟩⟩
      · exact h
      · exact Db.txOk_close h
      · rw [ht, Option.some.injEq] at hu
        subst hu
        rw [hcomp.1]
        exact Db.txOk_apply h ht hcomp
  | rollback =>
      rw [Db.rollback_inv hx]
      exact Db.txOk_close h
  | _ => simp only [Stmt.ofWorker, Bool.false_eq_true] at hs

/-- Every operation keeps the tables right. -/
theorem exec_txOk {op : Op} {r : op.Res} {w : World} (h : Db.TxOk st.world.db)
    (hpre : lockPre st i op) (hx : exec P i op ch st.world = some (r, w)) : Db.TxOk w.db := by
  by_cases hs : ∀ s, op ≠ .db s
  · rw [exec_db_eq hs hx]
    exact h
  · push Not at hs
    rcases hs with ⟨s, rfl⟩
    rcases exec_db_inv hx with ⟨db, hdb, rfl⟩
    cases hw : s.ofWorker with
    | false => exact Db.exec_txOk_pool hw h hdb
    | true => exact exec_txOk_worker hw h hpre hdb

/-- A transaction after an operation was open before, or has just begun. -/
theorem exec_txs_mem {op : Op} {r : op.Res} {w : World}
    (hx : exec P i op ch st.world = some (r, w)) {t : ClickTx} (ht : t ∈ w.db.txs) :
    (op = .db .begin ∧ t.tid = i) ∨ ∃ u ∈ st.world.db.txs, u.tid = t.tid := by
  by_cases hs : ∀ s, op ≠ .db s
  · rw [exec_db_eq hs hx] at ht
    exact Or.inr ⟨t, ht, rfl⟩
  · push Not at hs
    rcases hs with ⟨s, rfl⟩
    rcases exec_db_inv hx with ⟨db, hdb, rfl⟩
    cases Db.exec_change hdb with
    | begun =>
        rcases List.mem_cons.mp ht with rfl | ht
        · exact Or.inl ⟨rfl, rfl⟩
        · exact Or.inr ⟨t, ht, rfl⟩
    | failed | clickAdded | countBumped =>
        rcases Db.mem_setTx ht with ⟨ht, _⟩ | ⟨u, hu, _, rfl⟩
        · exact Or.inr ⟨t, ht, rfl⟩
        · exact Or.inr ⟨u, hu, rfl⟩
    | closed | applied => exact Or.inr ⟨t, (List.mem_filter.mp ht).1, rfl⟩
    | _ => exact Or.inr ⟨t, ht, rfl⟩

/-- The end of a transaction leaves its thread without one, however it fails. -/
theorem exec_txs_ended {op : Op} {r : op.Res} {w : World}
    (hop : op = .db .commit ∨ op = .db .rollback)
    (hx : exec P i op ch st.world = some (r, w)) {t : ClickTx} (ht : t ∈ w.db.txs) :
    t.tid ≠ i := by
  have hclosed : ∀ db : Db, t ∈ (db.closeTx i).txs → t.tid ≠ i :=
    fun db hmem => bne_iff_ne.mp (List.mem_filter.mp hmem).2
  rcases hop with rfl | rfl <;> rcases exec_db_inv hx with ⟨db, hdb, rfl⟩
  · rcases Db.commit_inv hdb with ⟨hnone, _, rfl⟩ | ⟨_, _, ⟨_, _, rfl⟩ | ⟨_, rfl⟩⟩
    · unfold Db.txOf at hnone
      rw [List.find?_eq_none] at hnone
      exact fun htid => hnone t ht (beq_iff_eq.mpr htid)
    · exact hclosed _ ht
    · exact hclosed _ ht
  · rw [Db.rollback_inv hdb] at ht
    exact hclosed _ ht

/-- Outside of the statements of a transaction a call has none. -/
theorem lockPre_outside {op : Op} (hpre : lockPre st i op) (hop : op.holds = false)
    (hend : op ≠ .db .commit ∧ op ≠ .db .rollback) : ∀ e ∈ st.mine i, e.op.holds = false := by
  cases op with
  | db s =>
      cases s with
      | begin | insertClick | incrementClickCount => cases hop
      | commit => exact absurd rfl hend.1
      | rollback => exact absurd rfl hend.2
      | _ => exact hpre
  | _ => exact hpre

/-- What the thread of an open transaction can be about to do: go on with the
    transaction where it is, or end it. -/
theorem lockPre_inside {op : Op} (hi : LocksInv st) {t : ClickTx} (ht : t ∈ st.world.db.txs)
    (hpre : lockPre st t.tid op) :
    (∃ data, op = .db (.insertClick data) ∧ t.inserted = none ∧ t.bumped = none) ∨
    (∃ linkId, op = .db (.incrementClickCount linkId) ∧ t.bumped = none) ∨
    op = .db .commit ∨ op = .db .rollback := by
  have hsame : ∀ u, st.world.db.txOf t.tid = some u → u = t :=
    fun u hu => Db.tx_unique hi.ok (Db.txOf_mem hu).1 ht (Db.txOf_mem hu).2
  by_cases hend : op = .db .commit ∨ op = .db .rollback
  · exact Or.inr (Or.inr hend)
  · cases hop : op.holds with
    | false =>
        -- Outside of a transaction the thread would not have left one open.
        rw [not_or] at hend
        rcases hi.left t ht with ⟨e, rest, he, hholds⟩
        have hfalse := lockPre_outside hpre hop hend e (he ▸ List.mem_cons_self)
        rw [hholds] at hfalse
        cases hfalse
    | true =>
        unfold Op.holds at hop
        split at hop
        · have hnone : st.world.db.txOf t.tid = none := hpre
          unfold Db.txOf at hnone
          rw [List.find?_eq_none] at hnone
          exact absurd (beq_self_eq_true _) (hnone t ht)
        · rename_i data
          rcases hpre with ⟨u, hu, _, hins, hbump⟩
          rw [hsame u hu] at hins hbump
          exact Or.inl ⟨data, rfl, hins, hbump⟩
        · rename_i linkId
          rcases hpre with ⟨u, _, hu, _, _, _, hbump⟩
          rw [hsame u hu] at hbump
          exact Or.inr (Or.inl ⟨linkId, rfl, hbump⟩)
        · cases hop

/-- Every operation leaves the open transactions with threads that have just
    left them open. -/
theorem leftOpen_push {call : Call} {op : Op} {r : op.Res} {w : World} (h : LeftOpen st)
    (hpre : lockPre st i op) (hx : exec P i op ch st.world = some (r, w)) :
    LeftOpen (st.push i call op ch r w) := by
  intro t ht
  by_cases hti : t.tid = i
  · rw [hti, State.push_mine]
    refine ⟨_, _, rfl, ?_⟩
    by_contra hop
    rw [Bool.not_eq_true] at hop
    -- The operation did not open the transaction, so it was there before.
    rcases exec_txs_mem hx ht with ⟨rfl, _⟩ | ⟨u, hu, huid⟩
    · cases hop
    · by_cases hend : op = .db .commit ∨ op = .db .rollback
      · exact exec_txs_ended hend hx ht hti
      · rw [not_or] at hend
        rcases h u hu with ⟨e, rest, hmine, hholds⟩
        rw [huid, hti] at hmine
        have hfalse := lockPre_outside hpre hop hend e (hmine ▸ List.mem_cons_self)
        rw [hholds] at hfalse
        cases hfalse
  · rcases exec_txs_mem hx ht with ⟨_, hid⟩ | ⟨u, hu, huid⟩
    · exact absurd hid hti
    · rw [State.push_mine_other _ _ _ _ _ _ _ _ (Ne.symm hti), ← huid]
      exact h u hu

end Steps

section Attempt

variable {P : Platform} {i : Nat} {data : ClickJobData} {st : Hist}

/-- The last thing the attempt did did not leave a transaction open. -/
def Ended (i : Nat) (st : Hist) : Prop :=
  ∀ e rest, st.mine i = e :: rest → e.op.holds = false

theorem ended_push {call : Call} {op : Op} {r : op.Res} {w : World} (hop : op.holds = false) :
    Ended i (st.push i call op ch r w) := by
  intro e rest hmine
  rw [State.push_mine, List.cons.injEq] at hmine
  rw [← hmine.1]
  exact hop

/-- Committing needs a complete transaction. -/
theorem commit_locks {t : ClickTx} {Post : Except Err Unit → Hist → Prop}
    (ht : st.world.db.txOf i = some t) (hc : Db.Complete t)
    (hok : ∀ st', Ended i st' → Post (.ok ()) st') (herr : ∀ e st', Post (.error e) st') :
    Sat (clickScope P) locks i (.processClickJob data) Post (query .commit) st := by
  refine sat_query fun st₁ hl _ _ => ⟨⟨t, hl.loc_eq.trans ht, hc⟩, fun ch r db _ _ => ?_⟩
  cases r with
  | ok _ => exact hok _ (ended_push rfl)
  | error e => exact herr _ _

/-- The body of an attempt's transaction, with the commit after it. -/
theorem recordClick_locks {Post : Except Err Unit → Hist → Prop} {t : ClickTx}
    (ht : st.world.db.txOf i = some t) (hab : t.aborted = false) (hins : t.inserted = none)
    (hbump : t.bumped = none) (hok : ∀ st', Ended i st' → Post (.ok ()) st')
    (herr : ∀ e st', Post (.error e) st') :
    Sat (clickScope P) locks i (.processClickJob data) Post
      ((recordClick data).bind (fun _ => query .commit)) st := by
  refine sat_bind _ _ (sat_bind _ _ (sat_query fun st₁ hl _ _ => ⟨?_, fun ch r db _ hx => ?_⟩))
  · exact ⟨t, hl.loc_eq.trans ht, hab, hins, hbump⟩
  have ht₁ : st₁.world.db.txOf i = some t := hl.loc_eq.trans ht
  rcases Db.insertClick_inv hx with ⟨e, rfl, _⟩ |
    ⟨_, _, _, _, _, ⟨rfl, rfl, _⟩ | ⟨rfl, _, _, _, rfl⟩⟩
  · exact herr _ _
  · -- The click is there already, and the transaction is empty.
    refine commit_locks ht₁ ⟨hab, fun hsome => ?_⟩ hok herr
    rw [hins] at hsome
    cases hsome
  · have ht₂ := Db.txOf_setTx_self (i := i) (f := fun t : ClickTx =>
      { t with inserted := some (Db.newClickRow (st₁.world.now - ch.waited) ch.draw data) })
      (fun _ => rfl) ht₁
    simp only [Except.mapError, thenSat_ok]
    refine sat_bind _ _ (sat_query fun st₂ hl₂ hi₂ _ => ⟨?_, fun ch₂ r₂ db₂ _ hx₂ => ?_⟩)
    · exact ⟨_, _, hl₂.loc_eq.trans ht₂, hab, rfl, rfl, hbump⟩
    · have ht₃ := hl₂.loc_eq.trans ht₂
      rcases Db.incrementClickCount_inv hx₂ with ⟨e, rfl, _⟩ |
        ⟨_, _, _, _, ⟨rfl, _, hnolink⟩ | ⟨row, rfl, _, _, rfl⟩⟩
      · exact herr _ _
      · -- The click that was inserted keeps its link in place.
        rcases (hi₂.ok.pending _ (Db.txOf_mem ht₃).1 _ rfl).1 with ⟨a, ha, hid⟩
        rw [List.find?_eq_none] at hnolink
        exact absurd (beq_iff_eq.mpr hid) (hnolink a ha)
      · have ht₄ := Db.txOf_setTx_self (i := i) (f := fun t : ClickTx =>
          { t with bumped := some (Db.bump row) }) (fun _ => rfl) ht₃
        exact commit_locks ht₄ ⟨hab, fun _ => rfl⟩ hok herr

/-- Every path of an attempt meets its obligations, and ends with its
    transaction. -/
theorem processClickJob_locks (hmine : st.mine i = []) (hi : LocksInv st) :
    Sat (clickScope P) locks i (.processClickJob data) (fun _ st' => Ended i st')
      (processClickJob data) st := by
  have hnone : st.world.db.txOf i = none := by
    unfold Db.txOf
    rw [List.find?_eq_none]
    intro t ht htid
    rcases hi.left t ht with ⟨e, rest, he, _⟩
    rw [beq_iff_eq.mp htid, hmine] at he
    cases he
  refine sat_bind _ _ ?_
  intro st₁ hl _ _
  have hmine₁ : st₁.mine i = [] := hl.mine_eq.trans hmine
  refine ⟨fun e he => (by rw [hmine₁] at he; cases he), fun ch r w _ hx => ?_⟩
  cases r with
  | error e => exact ended_push rfl
  | ok u =>
      have hw : w.db.txOf i = none := by
        have hx' : exec P i .poolConnect ch st₁.world = some (.ok u, w) := hx
        rw [exec_db_eq (fun s hs => (by cases hs)) hx']
        exact hl.loc_eq.trans hnone
      -- Whatever failed, the rollback ends the transaction.
      have hthrow : ∀ (e : Err) (st' : Hist), Sat (clickScope P) locks i (.processClickJob data)
          (fun (_ : Except Err Unit) st' => Ended i st')
          ((query .rollback).bind (fun _ => .throw e)) st' := by
        intro e st'
        refine sat_bind _ _ (sat_query fun st₃ _ _ _ => ⟨trivial, fun ch₃ r₃ db₃ _ _ => ?_⟩)
        cases r₃ <;> exact ended_push rfl
      refine sat_tryCatch _ _ (sat_bind _ _ (sat_query fun st₂ hl₂ _ _ =>
        ⟨hl₂.loc_eq.trans hw, fun ch₂ r₂ db₂ _ hx₂ => ?_⟩))
      have hnone₂ : st₂.world.db.txOf i = none := hl₂.loc_eq.trans hw
      rcases Db.begin_inv hx₂ with ⟨rfl, rfl⟩ | ⟨_, ⟨t, ht⟩, _⟩ | ⟨rfl, _, rfl⟩
      · exact hthrow _ _
      · rw [hnone₂] at ht
        cases ht
      · have ht : Db.txOf { st₂.world.db with txs :=
            ({ tid := i, aborted := false, inserted := none, bumped := none } : ClickTx) ::
              st₂.world.db.txs } i = some { tid := i, aborted := false, inserted := none,
                                            bumped := none } := by
          unfold Db.txOf
          rw [List.find?_cons, beq_self_eq_true]
        exact recordClick_locks ht rfl rfl rfl (fun _ h => h) hthrow

end Attempt

section Soundness

variable {P : Platform}

/-- What is not a statement of the worker leaves no transaction open. -/
theorem holds_quiet {op : Op} (hop : ∀ s, op = .db s → s.ofWorker = false) : op.holds = false := by
  cases op with
  | db s =>
      have hs := hop s rfl
      cases s with
      | begin | insertClick | incrementClickCount => cases hs
      | _ => rfl
  | _ => rfl

theorem lockPre_quiet {st : Hist} {i : Nat} {op : Op} (hop : ∀ s, op = .db s → s.ofWorker = false)
    (h : ∀ e ∈ st.mine i, e.op.holds = false) : lockPre st i op := by
  cases op with
  | db s =>
      have hs := hop s rfl
      cases s with
      | begin | insertClick | incrementClickCount | commit | rollback => cases hs
      | _ => exact h
  | _ => exact h

theorem locks_sound : Sound (clickScope P) locks where
  env := by
    intro st e w hi hw
    rcases env_inv hw with ⟨ms, rfl⟩
    exact ⟨hi.ok, hi.left⟩
  env_loc := clickJobs_sound.env_loc
  reap := by
    intro st i hi
    exact ⟨Db.txOk_close hi.ok, fun t ht => hi.left t (List.mem_filter.mp ht).1⟩
  reap_loc := clickJobs_sound.reap_loc
  exec := fun st i call op ch r w hi _ hpre _ hx =>
    ⟨exec_txOk hi.ok hpre hx, leftOpen_push hi.left hpre hx⟩
  exec_loc := clickJobs_sound.exec_loc
  body := by
    intro st i call hi _ hmine _
    by_cases hcall : ∃ data, call = .processClickJob data
    · rcases hcall with ⟨data, rfl⟩
      refine sat_map (sat_mono (fun r st' h => ?_) _ _ (processClickJob_locks hmine hi))
      exact h
    · push Not at hcall
      -- The other calls never hold a transaction.
      have hquiet : ∀ op, call.performs op → ∀ s, op = .db s → s.ofWorker = false := by
        rintro _ hop s rfl
        exact performs_ofWorker hcall hop
      refine sat_keeps (p := call.performs) (F := fun st => ∀ e ∈ st.mine i, e.op.holds = false)
        ?_ ?_ ?_ ?_ _ st (body_performs P call) (fun e he => by rw [hmine] at he; cases he)
      · intro st st' hl h
        rw [hl.mine_eq]
        exact h
      · intro st op ch r w hop h e he
        rw [State.push_mine] at he
        rcases List.mem_cons.mp he with rfl | he
        · exact holds_quiet (hquiet op hop)
        · exact h e he
      · exact fun st op _ h hop => lockPre_quiet (hquiet op hop) h
      · exact fun r st h e rest hmine => h e (hmine ▸ List.mem_cons_self)

variable {w₀ : World} {c : Site}

theorem locksInv_start (hlinks : w₀.db.links = []) (hclicks : w₀.db.clicks = [])
    (htxs : w₀.db.txs = []) : LocksInv { world := w₀, log := [] } := by
  refine ⟨Db.txOk_empty w₀.db hlinks hclicks htxs, fun t ht => ?_⟩
  rw [show ({ world := w₀, log := [] } : Hist).world.db.txs = [] from htxs] at ht
  cases ht

/-- The tables and transactions of every reachable state are right. -/
theorem run_locksInv (hlinks : w₀.db.links = []) (hclicks : w₀.db.clicks = [])
    (htxs : w₀.db.txs = []) (hc : Run (clickScope P) Policy.free w₀ c) : LocksInv c.state :=
  run_inv locks_sound (locksInv_start hlinks hclicks htxs) hc

/-- A transaction never outlives its thread. Induction on the run: only a live
    thread begins one, and a thread that dies gives its own up. -/
theorem run_alive (htxs : w₀.db.txs = []) (hc : Run (clickScope P) Policy.free w₀ c) :
    ∀ t ∈ c.state.world.db.txs, ∃ u, c.threads[t.tid]? = some u ∧ u.alive = true := by
  induction hc with
  | start =>
      intro t ht
      rw [show (Config.init w₀ : Site).state.world.db.txs = [] from htxs] at ht
      cases ht
  | step d d' a _ _ hs ih =>
      cases a with
      | spawn call =>
          simp only [Config.step, Option.some.injEq] at hs
          subst hs
          intro t ht
          rcases ih t ht with ⟨u, hu, ha⟩
          exact ⟨u, by
            rw [List.getElem?_append_left (List.getElem?_eq_some_iff.mp hu).1]; exact hu, ha⟩
      | run i ch =>
          rcases step_run_inv hs with ⟨u, op, k, r, w, hu, ha, _, hx, rfl⟩
          intro t ht
          by_cases hti : t.tid = i
          · rw [hti]
            exact ⟨_, List.getElem?_set_self (List.getElem?_eq_some_iff.mp hu).1, ha⟩
          · have hx' : exec P i op ch d.state.world = some (r, w) := hx
            rcases exec_txs_mem hx' ht with ⟨_, hid⟩ | ⟨v, hv, hvid⟩
            · exact absurd hid hti
            · rcases ih v hv with ⟨x, hget, hxa⟩
              refine ⟨x, ?_, hxa⟩
              simp only [Config.advance]
              rw [List.getElem?_set_ne (Ne.symm hti), ← hvid]
              exact hget
      | env e =>
          rcases step_env_inv hs with ⟨w, hw, rfl⟩
          rcases env_inv hw with ⟨ms, rfl⟩
          exact ih
      | kill i =>
          rcases step_kill_inv hs with ⟨_, _, _, rfl⟩
          intro t ht
          rcases List.mem_filter.mp ht with ⟨hmem, hne⟩
          rcases ih t hmem with ⟨u, hu, ha⟩
          exact ⟨u, by rw [List.getElem?_set_ne (Ne.symm (bne_iff_ne.mp hne))]; exact hu, ha⟩

/-- Every open transaction belongs to a thread that is alive and still has
    something to do. -/
theorem run_owner (hlinks : w₀.db.links = []) (hclicks : w₀.db.clicks = [])
    (htxs : w₀.db.txs = []) (hc : Run (clickScope P) Policy.free w₀ c) :
    ∀ t ∈ c.state.world.db.txs, ∃ u op k, c.threads[t.tid]? = some u ∧ u.alive = true ∧
      u.prog = .await op k := by
  intro t ht
  have hstart := locksInv_start hlinks hclicks htxs
  rcases run_alive htxs hc t ht with ⟨u, hu, ha⟩
  cases hp : u.prog with
  | await op k => exact ⟨u, op, k, hu, ha, hp⟩
  | ret | throw =>
      -- A thread that has ended did not leave anything open.
      have hr : ∃ r, u.result = some r := by
        unfold Thread.result
        rw [hp]
        exact ⟨_, rfl⟩
      rcases hr with ⟨r, hr⟩
      rcases run_result locks_sound hstart hc hu hr with ⟨_, _, _, _, _, _, hmine, hpost⟩
      rcases (run_inv locks_sound hstart hc).left t ht with ⟨e, rest, he, hholds⟩
      have hfalse := hpost e rest (hmine.trans he)
      rw [hholds] at hfalse
      cases hfalse

/-- What a thread is waiting for is what it may do. -/
theorem run_awaits (hlinks : w₀.db.links = []) (hclicks : w₀.db.clicks = [])
    (htxs : w₀.db.txs = []) (hc : Run (clickScope P) Policy.free w₀ c) {i : Nat} {u : Task}
    {op : Op} {k : op.Res → Api Reply} (hu : c.threads[i]? = some u) (ha : u.alive = true)
    (hp : u.prog = .await op k) : lockPre c.state i op := by
  rcases run_sound locks_sound (locksInv_start hlinks hclicks htxs) hc with
    ⟨hinv, hthreads⟩
  rcases hthreads i u hu with ⟨st₀, _, _, hrest⟩
  have hnone : u.result = none := by
    simp only [Thread.result, hp, Prog.result]
  simp only [hnone] at hrest
  rcases hrest ha with ⟨st₁, hl, _, hsat⟩
  rw [hp] at hsat
  exact (hsat c.state hl hinv (run_fits hc hu)).1

end Soundness

end ClickScope
