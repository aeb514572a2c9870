import ClickScope.Theory.ClickTables
import ClickScope.Theory.Rules

/-!
# Click Processing Is Exactly Once

Any number of attempts at any number of click jobs, failing anywhere, next to
everything else the service does.

`ClickTables` is about single statements. Here the attempts are programs that
send them, and what a program has to promise is little: it counts the click it
inserted before it commits, and it names its own job. `clickPre` states that as
an obligation at each statement, and `processClickJob_sat` proves that the code
meets it on every path.

An attempt may commit without having inserted anything, when it found the click
there already. By the time it commits the click may be gone again, with its
link. `Settled` covers both, and once a job is settled it stays so: a link that
is gone does not come back under its id.

Deliveries are unrestricted but for one thing: two attempts with the same click
id are attempts at the same job.

## Main definitions

* `clickPre`: What an attempt owes at each of its statements.
* `coherent`: Attempts with one click id are attempts at one job.
* `Landed`: A commit of an attempt took effect.
* `ClicksInv`: The invariant of a run.

## Theorems

* `processClickJob_sat`: One attempt meets its obligations.
* `clicksInv_push`: Every operation keeps the invariant.
* `exactly_once`: Clicks and counters in every reachable state.
-/

namespace ClickScope

open Async

namespace Db

section Transactions

variable {pg : Postgres} {now i j : Nat} {ch : Choice} {db db' : Db}

theorem txOf_closeTx_other (h : i ≠ j) : (db.closeTx i).txOf j = db.txOf j := by
  unfold txOf closeTx
  rw [List.find?_filter]
  refine congrArg (fun p => db.txs.find? p) (funext fun t => ?_)
  by_cases ht : t.tid = j
  · simp only [ht, bne_iff_ne, ne_eq, Ne.symm h, not_false_eq_true, beq_self_eq_true, and_self,
      decide_true]
  · simp only [beq_eq_false_iff_ne.mpr ht, Bool.false_eq_true, and_false, decide_false]

theorem txOf_setTx_other {f : ClickTx → ClickTx} (hf : ∀ t, (f t).tid = t.tid) (h : i ≠ j) :
    (db.setTx i f).txOf j = db.txOf j := by
  unfold txOf setTx
  simp only
  induction db.txs with
  | nil => rfl
  | cons t ts ih =>
      rw [List.map_cons, List.find?_cons, List.find?_cons, ih]
      by_cases ht : t.tid = i
      · rw [if_pos (beq_iff_eq.mpr ht), hf, ht, beq_eq_false_iff_ne.mpr h]
      · rw [if_neg (by rw [beq_iff_eq]; exact ht)]

theorem txOf_setTx_self {f : ClickTx → ClickTx} (hf : ∀ t, (f t).tid = t.tid) {t : ClickTx}
    (h : db.txOf i = some t) : (db.setTx i f).txOf i = some (f t) := by
  unfold txOf setTx at *
  simp only at *
  induction hts : db.txs generalizing db with
  | nil => rw [hts] at h; cases h
  | cons u us ih =>
      rw [hts, List.find?_cons] at h
      rw [List.map_cons, List.find?_cons]
      by_cases hu : u.tid = i
      · rw [beq_iff_eq.mpr hu, Option.some.injEq] at h
        rw [if_pos (beq_iff_eq.mpr hu), hf, beq_iff_eq.mpr hu, h]
      · rw [beq_eq_false_iff_ne.mpr hu] at h
        rw [if_neg (by rw [beq_iff_eq]; exact hu), beq_eq_false_iff_ne.mpr hu]
        have htxs : ({ db with txs := us } : Db).txs = us := rfl
        refine ih ?_ htxs
        exact h

/-- A statement of one thread leaves the other threads' transactions alone. -/
theorem exec_txOf_other {s : Stmt} {r : Except DbError s.Rows} (hne : i ≠ j)
    (h : Db.exec pg now i s ch db = some (r, db')) : db'.txOf j = db.txOf j := by
  -- A statement writes to the transaction of its own session.
  cases exec_change h with
  | begun =>
      unfold txOf
      rw [List.find?_cons, beq_eq_false_iff_ne.mpr hne]
  | failed | clickAdded | countBumped => exact txOf_setTx_other (fun _ => rfl) hne
  | closed => exact txOf_closeTx_other hne
  | applied =>
      rw [txOf_closeTx_other hne]
      rfl
  | _ => rfl

/-- Committing adds clicks and keeps links, so what is settled stays settled. -/
theorem settled_apply {t : ClickTx} {data : ClickJobData} (h : Settled db data) :
    Settled ((db.applyTx t).closeTx i) data := by
  refine ⟨h.1, ?_⟩
  rintro ⟨r, hr, hid⟩
  have hlink : db.HasLink data.linkId := by
    rcases List.mem_map.mp hr with ⟨a, ha, har⟩
    refine ⟨a, ha, ?_⟩
    rw [← hid, ← har]
    rcases t.bumped with _ | b
    · rfl
    · by_cases hab : a.id = b.id
      · simp only [hab, beq_self_eq_true, if_true]
      · simp only [beq_eq_false_iff_ne.mpr hab, Bool.false_eq_true, if_false]
  rcases h.2 hlink with ⟨k, hk, hrest⟩
  exact ⟨k, List.mem_append_left _ hk, hrest⟩

end Transactions

end Db

/-- The row count of a click insert. -/
def clickRowCount : (op : Op) → op.Res → Option Nat
  | .db (.insertClick _), .ok n => some n
  | _, _ => none

def Op.isCommit : Op → Bool
  | .db .commit => true
  | _ => false

theorem Op.ne_commit {op : Op} (h : op.isCommit = false) : op ≠ .db .commit := by
  rintro rfl
  cases h

/-- An event at which an attempt at the job committed, whether or not the
    worker learned of it. -/
def Landed (data : ClickJobData) (e : Ev) : Prop :=
  e.call = .processClickJob data ∧ e.op = .db .commit ∧ e.choice.fault ≠ .lost

/-- What a click row says came from the job. -/
def OfJob (data : ClickJobData) (k : ClickRow) : Prop :=
  k.jobId = data.clickId ∧ k.linkId = data.linkId

/-- Attempts with one click id are attempts at one job. -/
def coherent : Policy Op Op.Res Call Choice World where
  mayStart := fun _ _ => True
  mayDo := fun st _ call _ _ => ∀ data, call = .processClickJob data →
    ∀ e ∈ st.log, ∀ data', e.call = .processClickJob data' → data'.clickId = data.clickId →
      data' = data

/-- What a call owes at a statement: only attempts use transactions, an attempt
    counts the click it inserted, and it commits either that click, counted, or
    nothing for a settled job. -/
def clickPre (st : Hist) (i : Nat) (call : Call) : Op → Prop
  | .db .begin => ∃ data, call = .processClickJob data
  | .db (.insertClick data) => call = .processClickJob data
  | .db (.incrementClickCount linkId) => ∃ t c, st.world.db.txOf i = some t ∧
      t.inserted = some c ∧ c.linkId = linkId
  | .db .commit => ∃ data t, call = .processClickJob data ∧ st.world.db.txOf i = some t ∧
      Db.Complete t ∧ (t.inserted = none → st.world.db.Settled data) ∧
      ∀ c, t.inserted = some c → OfJob data c
  | _ => True

/-- The invariant of a run. -/
structure ClicksInv (st : Hist) : Prop where
  ok : Db.TxOk st.world.db
  owner : ∀ t ∈ st.world.db.txs, ∃ e ∈ st.log, e.tid = t.tid
  found : ∀ e ∈ st.log, ∀ data, e.call = .processClickJob data →
    clickRowCount e.op e.res = some 0 → st.world.db.Settled data
  landed : ∀ e ∈ st.log, ∀ data, Landed data e → st.world.db.Settled data
  rows : ∀ k ∈ st.world.db.clicks, ∃ e ∈ st.log, ∃ data, Landed data e ∧ OfJob data k

def clickJobs : Protocol Op Op.Res Err Reply Call Choice World (Option ClickTx) where
  toPolicy := coherent
  loc := fun i w => w.db.txOf i
  Inv := ClicksInv
  Pre := clickPre
  Post := fun _ _ _ _ _ => True

section Attempt

variable {P : Platform} {i : Nat} {data : ClickJobData} {st : Hist}

/-- Committing needs a complete transaction of the job's own click, or a
    settled job. -/
theorem commit_sat {t : ClickTx} {Post : Except Err Unit → Hist → Prop}
    (ht : st.world.db.txOf i = some t) (hc : Db.Complete t)
    (hfound : t.inserted = none → ∃ e ∈ st.log, e.call = .processClickJob data ∧
      clickRowCount e.op e.res = some 0)
    (hjob : ∀ c, t.inserted = some c → OfJob data c) (hpost : ∀ r st, Post r st) :
    Sat (clickScope P) clickJobs i (.processClickJob data) Post (query .commit) st := by
  refine sat_query fun st₁ hl hi _ => ⟨⟨data, t, rfl, hl.loc_eq.trans ht, hc, ?_, hjob⟩,
    fun _ _ _ _ _ => hpost _ _⟩
  intro hnone
  rcases hfound hnone with ⟨e, he, hcall, hzero⟩
  exact hi.found e (hl.mem he) data hcall hzero

/-- The body of an attempt's transaction, with the commit after it. -/
theorem recordClick_sat {Post : Except Err Unit → Hist → Prop} {t : ClickTx}
    (ht : st.world.db.txOf i = some t) (hab : t.aborted = false) (hins : t.inserted = none)
    (hpost : ∀ r st, Post r st) :
    Sat (clickScope P) clickJobs i (.processClickJob data) Post
      ((recordClick data).bind (fun _ => query .commit)) st := by
  refine sat_bind _ _ (sat_bind _ _ (sat_query fun st₁ hl _ _ => ⟨rfl, fun ch r db _ hx => ?_⟩))
  have ht₁ : st₁.world.db.txOf i = some t := hl.loc_eq.trans ht
  rcases Db.insertClick_inv hx with
    ⟨e, rfl, _⟩ | ⟨u, hu, _, _, _, ⟨rfl, rfl, _⟩ | ⟨rfl, _, _, _, rfl⟩⟩
  · exact hpost _ _
  · -- The click is there already: the attempt commits an empty transaction.
    refine commit_sat ht₁ ⟨hab, fun hsome => ?_⟩ (fun _ => ?_) (fun c hc => ?_) hpost
    · rw [hins] at hsome
      cases hsome
    · exact ⟨_, List.mem_cons_self, rfl, rfl⟩
    · rw [hins] at hc
      cases hc
  · -- The click is the attempt's own, and is counted before the commit.
    have ht₂ := Db.txOf_setTx_self (i := i) (f := fun t : ClickTx =>
      { t with inserted := some (Db.newClickRow (st₁.world.now - ch.waited) ch.draw data) })
      (fun _ => rfl) ht₁
    simp only [Except.mapError, thenSat_ok]
    refine sat_bind _ _ (sat_query fun st₂ hl₂ hi₂ _ => ⟨?_, fun ch₂ r₂ db₂ _ hx₂ => ?_⟩)
    · exact ⟨_, _, hl₂.loc_eq.trans ht₂, rfl, rfl⟩
    · have ht₃ := hl₂.loc_eq.trans ht₂
      rcases Db.incrementClickCount_inv hx₂ with ⟨e, rfl, _⟩ |
        ⟨v, hv, _, _, ⟨rfl, _, hnolink⟩ | ⟨row, rfl, _, _, rfl⟩⟩
      · exact hpost _ _
      · -- The pending click keeps its link in place.
        rcases (hi₂.ok.pending _ (Db.txOf_mem ht₃).1 _ rfl).1 with ⟨a, ha, hid⟩
        rw [List.find?_eq_none] at hnolink
        exact absurd (beq_iff_eq.mpr hid) (hnolink a ha)
      · have ht₄ := Db.txOf_setTx_self (i := i) (f := fun t : ClickTx =>
          { t with bumped := some (Db.bump row) }) (fun _ => rfl) ht₃
        refine commit_sat ht₄ ⟨hab, fun _ => rfl⟩ (fun hnone => ?_) (fun c hc => ?_) hpost
        · cases hnone
        · cases hc
          exact ⟨rfl, rfl⟩

/-- Every path of an attempt meets its obligations. -/
theorem processClickJob_sat {Post : Except Err Unit → Hist → Prop} (hmine : st.mine i = [])
    (hi : ClicksInv st) (hpost : ∀ r st, Post r st) :
    Sat (clickScope P) clickJobs i (.processClickJob data) Post (processClickJob data) st := by
  -- An attempt that has done nothing has no transaction open.
  have hnone : st.world.db.txOf i = none := by
    unfold Db.txOf
    rw [List.find?_eq_none]
    intro t ht htid
    rcases hi.owner t ht with ⟨e, he, heid⟩
    have hmem : e ∈ st.mine i := State.mem_mine.mpr ⟨he, heid.trans (beq_iff_eq.mp htid)⟩
    rw [hmine] at hmem
    cases hmem
  refine sat_bind _ _ ?_
  intro st₁ hl hi₁ _
  refine ⟨trivial, fun ch r w _ hx => ?_⟩
  cases r with
  | error e => exact hpost _ _
  | ok u =>
      have hw : w.db.txOf i = none := by
        have hx' : exec P i .poolConnect ch st₁.world = some (.ok u, w) := hx
        rw [exec_db_eq (fun s hs => (by cases hs)) hx']
        exact hl.loc_eq.trans hnone
      refine sat_tryCatch _ _ (sat_bind _ _ (sat_query fun st₂ hl₂ _ _ =>
        ⟨⟨data, rfl⟩, fun ch₂ r₂ db₂ _ hx₂ => ?_⟩))
      have hthrow : ∀ (e : Err) (st' : Hist), Sat (clickScope P) clickJobs i
          (.processClickJob data) Post ((query .rollback).bind (fun _ => .throw e)) st' := by
        intro e st'
        refine sat_bind _ _ (sat_query fun st₃ _ _ _ => ⟨trivial, fun ch₃ r₃ db₃ _ _ => ?_⟩)
        cases r₃ <;> exact hpost _ _
      have hnone₂ : st₂.world.db.txOf i = none := hl₂.loc_eq.trans hw
      rcases Db.begin_inv hx₂ with ⟨rfl, rfl⟩ | ⟨_, ⟨t, ht⟩, _⟩ | ⟨rfl, _, rfl⟩
      · exact hthrow _ _
      · rw [hnone₂] at ht
        cases ht
      · have ht : Db.txOf { st₂.world.db with txs :=
            ({ tid := i, aborted := false, inserted := none, bumped := none } : ClickTx) ::
              st₂.world.db.txs } i = some { tid := i, aborted := false, inserted := none,
                                            bumped := none } := by
          unfold Db.txOf
          rw [List.find?_cons, beq_self_eq_true]
        refine recordClick_sat ht rfl rfl fun r st' => ?_
        cases r with
        | ok _ => exact hpost _ _
        | error e => exact hthrow e st'

end Attempt

section Steps

variable {P : Platform} {i : Nat} {call : Call} {st : Hist} {ch : Choice}

/-- The invariant after an operation, from what the operation did to the
    database. -/
theorem clicksInv_of {op : Op} {r : op.Res} {w : World} (hi : ClicksInv st)
    (hok : Db.TxOk w.db) (hset : ∀ data, st.world.db.Settled data → w.db.Settled data)
    (howner : ∀ t ∈ w.db.txs, t.tid = i ∨ ∃ u ∈ st.world.db.txs, u.tid = t.tid)
    (hfound : ∀ data, call = .processClickJob data → clickRowCount op r = some 0 →
      w.db.Settled data)
    (hland : ∀ data, call = .processClickJob data → op = .db .commit → ch.fault ≠ .lost →
      w.db.Settled data)
    (hrows : ∀ k ∈ w.db.clicks, k ∈ st.world.db.clicks ∨ ∃ data, call = .processClickJob data ∧
      op = .db .commit ∧ ch.fault ≠ .lost ∧ OfJob data k) :
    ClicksInv (st.push i call op ch r w) where
  ok := hok
  owner := by
    intro t ht
    rcases howner t ht with htid | ⟨u, hu, hutid⟩
    · exact ⟨_, List.mem_cons_self, htid.symm⟩
    · rcases hi.owner u hu with ⟨e, he, hetid⟩
      exact ⟨e, List.mem_cons_of_mem _ he, hetid.trans hutid⟩
  found := by
    intro e he data hcall hzero
    rcases List.mem_cons.mp he with rfl | he
    · exact hfound data hcall hzero
    · exact hset data (hi.found e he data hcall hzero)
  landed := by
    intro e he data hl
    rcases List.mem_cons.mp he with rfl | he
    · exact hland data hl.1 hl.2.1 hl.2.2
    · exact hset data (hi.landed e he data hl)
  rows := by
    intro k hk
    -- A click is an old one, or the commit of this very step put it there.
    rcases hrows k hk with hk | ⟨data, hcall, hop, hf, hjob⟩
    · rcases hi.rows k hk with ⟨e, he, data, hl, hjob⟩
      exact ⟨e, List.mem_cons_of_mem _ he, data, hl, hjob⟩
    · exact ⟨_, List.mem_cons_self, data, ⟨hcall, hop, hf⟩, hjob⟩

/-- An operation that changes neither clicks nor links nor transactions. -/
theorem clicksInv_quiet {op : Op} {r : op.Res} {w : World} (hi : ClicksInv st)
    (hl : w.db.links = st.world.db.links) (hc : w.db.clicks = st.world.db.clicks)
    (ht : w.db.txs = st.world.db.txs) (hids : ∀ x ∈ st.world.db.ids, x ∈ w.db.ids)
    (hfound : clickRowCount op r = none) (hop : op.isCommit = false) :
    ClicksInv (st.push i call op ch r w) := by
  refine clicksInv_of hi (Db.txOk_congr hi.ok hl hc ht hids)
    (fun data hs => Db.settled_congr hs hl hc hids) ?_ ?_ ?_ ?_
  · intro t hmem
    rw [ht] at hmem
    exact Or.inr ⟨t, hmem, rfl⟩
  · intro data _ hzero
    rw [hfound] at hzero
    cases hzero
  · exact fun data _ hcommit => absurd hcommit (Op.ne_commit hop)
  · intro k hk
    rw [hc] at hk
    exact Or.inl hk

/-- Rewriting links in place, as the update and the sweep do. -/
theorem clicksInv_mapLinks {op : Op} {r : op.Res} {w : World} {f : LinkRow → LinkRow}
    (hi : ClicksInv st) (hw : w.db = { st.world.db with links := st.world.db.links.map f })
    (hid : ∀ r ∈ st.world.db.links, (f r).id = r.id)
    (hcount : ∀ r ∈ st.world.db.links, (f r).clickCount = r.clickCount)
    (hlock : ∀ r ∈ st.world.db.links, st.world.db.rowLocked r.id = true → f r = r)
    (hfound : clickRowCount op r = none) (hop : op.isCommit = false) :
    ClicksInv (st.push i call op ch r w) := by
  refine clicksInv_of hi ?_ ?_ ?_ ?_ ?_ ?_ <;> rw [hw]
  · exact Db.txOk_mapLinks hi.ok hid hcount hlock
  · exact fun data hs => Db.settled_mapLinks hs hid
  · exact fun t ht => Or.inr ⟨t, ht, rfl⟩
  · intro data _ hzero
    rw [hfound] at hzero
    cases hzero
  · exact fun data _ hcommit => absurd hcommit (Op.ne_commit hop)
  · exact fun k hk => Or.inl hk

/-- The statements that work on links. -/
theorem clicksInv_linkStmt {s : Stmt} {r : Except DbError s.Rows} {db : Db} (hi : ClicksInv st)
    (hworker : s.ofWorker = false)
    (hx : st.world.db.exec P.pg st.world.now i s ch = some (r, db)) :
    ClicksInv (st.push i call (.db s) ch r { st.world with db := db }) := by
  cases s with
  | insertLink l =>
      rcases Db.insertLink_inv hx with ⟨hfresh, ⟨rfl, _, rfl⟩ | ⟨_, rfl, ⟨ids, hids, rfl⟩, _⟩⟩
      · refine clicksInv_of hi (Db.txOk_insertLink hi.ok hfresh rfl)
          (fun data hs => Db.settled_insertLink hs hfresh) ?_ ?_ ?_ ?_
        · exact fun t ht => Or.inr ⟨t, ht, rfl⟩
        · exact fun _ _ h => (by cases h)
        · exact fun _ _ h => (by cases h)
        · exact fun k hk => Or.inl hk
      · exact clicksInv_quiet hi rfl rfl rfl hids rfl rfl
  | updateLink set a u values =>
      rcases Db.updateLink_inv hx with ⟨_, rfl, rfl⟩ | ⟨rfl, rfl⟩ |
        ⟨id, userId, row, row', _, _, _, hrow, hlock, _, hset, _, rfl, rfl⟩
      · exact clicksInv_quiet hi rfl rfl rfl (fun _ h => h) rfl rfl
      · exact clicksInv_quiet hi rfl rfl rfl (fun _ h => h) rfl rfl
      · -- The update selects one row, which no transaction has locked.
        have hsame : ∀ r ∈ st.world.db.links, Db.ownedBy id userId r = true → r = row :=
          fun r hr ho => (Db.ownedBy_found hi.ok.linkKey hrow hr).mp ho
        have hkeep := applySet_keeps hset
        refine clicksInv_mapLinks hi rfl ?_ ?_ ?_ rfl rfl
        · intro r hr
          by_cases ho : Db.ownedBy id userId r = true
          · rw [if_pos ho, hsame r hr ho, hkeep.1]
          · rw [if_neg ho]
        · intro r hr
          by_cases ho : Db.ownedBy id userId r = true
          · rw [if_pos ho, hsame r hr ho, hkeep.2.1]
          · rw [if_neg ho]
        · intro r hr hlocked
          by_cases ho : Db.ownedBy id userId r = true
          · rw [hsame r hr ho, hlock] at hlocked
            cases hlocked
          · rw [if_neg ho]
  | deleteLink id userId =>
      -- A delete takes the committed clicks along, and waits for a pending one.
      rcases Db.deleteLink_inv hx with ⟨_, _, rfl, rfl⟩ | ⟨_, rfl, rfl⟩ |
        ⟨row, hrow, hlock, hshare, rfl, rfl⟩
      · exact clicksInv_quiet hi rfl rfl rfl (fun _ h => h) rfl rfl
      · exact clicksInv_quiet hi rfl rfl rfl (fun _ h => h) rfl rfl
      · refine clicksInv_of hi (Db.txOk_deleteLink hi.ok hrow hlock hshare)
          (fun data hs => Db.settled_deleteLink hi.ok hs hrow) ?_ ?_ ?_ ?_
        · exact fun t ht => Or.inr ⟨t, ht, rfl⟩
        · exact fun _ _ h => (by cases h)
        · exact fun _ _ h => (by cases h)
        · exact fun k hk => Or.inl (List.mem_filter.mp hk).1
  | sweepExpired =>
      rcases Db.sweepExpired_inv hx with ⟨hlock, rfl, rfl⟩
      refine clicksInv_mapLinks hi rfl ?_ ?_ ?_ rfl rfl
      · intro r _
        by_cases hm : Db.sweepMatches st.world.now (st.world.now - ch.waited) r = true
        · rw [if_pos hm]
          rfl
        · rw [if_neg hm]
      · intro r _
        by_cases hm : Db.sweepMatches st.world.now (st.world.now - ch.waited) r = true
        · rw [if_pos hm]
          rfl
        · rw [if_neg hm]
      · intro r hr hlocked
        by_cases hm : Db.sweepMatches st.world.now (st.world.now - ch.waited) r = true
        · rw [hlock r hr hm] at hlocked
          cases hlocked
        · rw [if_neg hm]
  | insertUser u =>
      rcases Db.insertUser_inv hx with ⟨_, ⟨rfl, _, _, _, rfl⟩ | ⟨_, rfl, ⟨ids, hids, rfl⟩, _⟩⟩
      · exact clicksInv_quiet hi rfl rfl rfl (fun _ h => List.mem_cons_of_mem _ h) rfl
          rfl
      · exact clicksInv_quiet hi rfl rfl rfl hids rfl rfl
  | userIdByEmail | userByEmail | userByOAuth | userById | linkIdByCode | listLinks | countLinks
  | linkById | redirectLookup | clickStats =>
      have hdb := Db.exec_read rfl hx
      rw [hdb]
      exact clicksInv_quiet hi rfl rfl rfl (fun _ h => h) rfl rfl
  | begin | insertClick | incrementClickCount | commit | rollback =>
      simp only [Stmt.ofWorker, Bool.true_eq_false] at hworker

/-- A statement that replaces the thread's own transaction only. -/
theorem clicksInv_setTx {op : Op} {r : op.Res} {db : Db} (f : ClickTx → ClickTx)
    (hi : ClicksInv st) (hok : Db.TxOk db) (hf : ∀ t, (f t).tid = t.tid)
    (hl : db.links = st.world.db.links) (hc : db.clicks = st.world.db.clicks)
    (ht : db.txs = (st.world.db.setTx i f).txs) (hids : ∀ x ∈ st.world.db.ids, x ∈ db.ids)
    (hfound : clickRowCount op r ≠ some 0) (hop : op.isCommit = false) :
    ClicksInv (st.push i call op ch r { st.world with db := db }) := by
  refine clicksInv_of hi hok (fun data hs => Db.settled_congr hs hl hc hids) ?_ ?_ ?_ ?_
  · intro t hmem
    rw [ht] at hmem
    rcases Db.mem_setTx hmem with ⟨hmem, _⟩ | ⟨u, _, hutid, rfl⟩
    · exact Or.inr ⟨t, hmem, rfl⟩
    · exact Or.inl ((hf u).trans hutid)
  · exact fun data _ hzero => absurd hzero hfound
  · exact fun data _ hcommit => absurd hcommit (Op.ne_commit hop)
  · intro k hk
    rw [hc] at hk
    exact Or.inl hk

/-- A statement that fails and aborts the thread's transaction. -/
theorem clicksInv_aborted {op : Op} {r : op.Res} (hi : ClicksInv st)
    (hfound : clickRowCount op r ≠ some 0) (hop : op.isCommit = false) :
    ClicksInv (st.push i call op ch r { st.world with
      db := st.world.db.setTx i (fun t =>
        { t with aborted := true, inserted := none, bumped := none }) }) :=
  clicksInv_setTx (fun t => { t with aborted := true, inserted := none, bumped := none }) hi
    (Db.txOk_aborted hi.ok) (fun _ => rfl) rfl rfl rfl (fun _ h => h) hfound hop

/-- The statements of a click transaction. -/
theorem clicksInv_workerStmt {s : Stmt} {r : Except DbError s.Rows} {db : Db} (hi : ClicksInv st)
    (hworker : s.ofWorker = true) (hpre : clickPre st i call (.db s))
    (hmay : coherent.mayDo st i call (.db s) ch)
    (hx : st.world.db.exec P.pg st.world.now i s ch = some (r, db)) :
    ClicksInv (st.push i call (.db s) ch r { st.world with db := db }) := by
  cases s with
  | begin =>
      rcases Db.begin_inv hx with ⟨rfl, rfl⟩ | ⟨rfl, _, rfl⟩ | ⟨rfl, hnone, rfl⟩
      · exact clicksInv_quiet hi rfl rfl rfl (fun _ h => h) rfl rfl
      · exact clicksInv_quiet hi rfl rfl rfl (fun _ h => h) rfl rfl
      · refine clicksInv_of hi (Db.txOk_begin hi.ok hnone)
          (fun data hs => Db.settled_congr hs rfl rfl (fun _ h => h)) ?_ ?_ ?_ ?_
        · intro t ht
          rcases List.mem_cons.mp ht with rfl | ht
          · exact Or.inl rfl
          · exact Or.inr ⟨t, ht, rfl⟩
        · exact fun _ _ h => (by cases h)
        · exact fun _ _ h => (by cases h)
        · exact fun k hk => Or.inl hk
  | insertClick data =>
      have hcall : call = .processClickJob data := hpre
      rcases Db.insertClick_inv hx with ⟨e, rfl, rfl | rfl⟩ |
        ⟨t, ht, _, hins, hpend, ⟨rfl, rfl, k, hk, hjob⟩ | ⟨rfl, hjob, hlink, hfresh, rfl⟩⟩
      · exact clicksInv_quiet hi rfl rfl rfl (fun _ h => h) rfl rfl
      · exact clicksInv_aborted hi (fun h => by cases h) rfl
      · -- The click that is there is this job's: attempts with its id are attempts at it.
        have hset : st.world.db.Settled data := by
          rcases hi.rows k hk with ⟨e, he, data', hl, hof⟩
          have hsame : data' = data :=
            hmay data hcall e he data' hl.1 (hof.1.symm.trans hjob)
          subst hsame
          rcases hi.ok.clickLink k hk with ⟨a, ha, hid⟩
          refine ⟨?_, fun _ => ⟨k, hk, hof⟩⟩
          rw [← hof.2, ← hid]
          exact hi.ok.drawn a ha
        refine clicksInv_of hi hi.ok (fun _ hs => hs) (fun t ht => Or.inr ⟨t, ht, rfl⟩) ?_ ?_
          (fun k hk => Or.inl hk)
        · intro data' hcall' _
          rw [hcall, Call.processClickJob.injEq] at hcall'
          rw [← hcall']
          exact hset
        · exact fun _ _ h => absurd h (Op.ne_commit rfl)
      · have hbump : t.bumped = none := by
          rcases hb : t.bumped with _ | b
          · rfl
          · rcases (hi.ok.bumped t (Db.txOf_mem ht).1 b hb).2 with ⟨c, hc, _⟩
            rw [hins] at hc
            cases hc
        exact clicksInv_setTx (fun t => { t with inserted := some (Db.newClickRow
            (st.world.now - ch.waited) ch.draw data) }) hi
          (Db.txOk_inserted hi.ok ht hbump hpend hjob hlink) (fun _ => rfl)
          rfl rfl rfl (fun _ h => List.mem_cons_of_mem _ h) (fun h => by cases h) rfl
  | incrementClickCount linkId =>
      rcases hpre with ⟨t, c, ht, hins, hlink⟩
      rcases Db.incrementClickCount_inv hx with ⟨e, rfl, rfl | rfl⟩ |
        ⟨u, _, _, _, ⟨rfl, rfl, _⟩ | ⟨row, rfl, hrow, hlock, rfl⟩⟩
      · exact clicksInv_quiet hi rfl rfl rfl (fun _ h => h) rfl rfl
      · exact clicksInv_aborted hi (fun h => by cases h) rfl
      · exact clicksInv_quiet hi rfl rfl rfl (fun _ h => h) rfl rfl
      · have hid : row.id = linkId := by simpa using List.find?_some hrow
        exact clicksInv_setTx (fun t => { t with bumped := some (Db.bump row) }) hi
          (Db.txOk_bumped hi.ok ht hins (hlink.trans hid.symm) (List.mem_of_find?_eq_some hrow)
            hlock)
          (fun _ => rfl) rfl rfl rfl (fun _ h => h) (fun h => by cases h) rfl
  | commit =>
      rcases hpre with ⟨data, t, rfl, ht, hcomp, hnone, hjob⟩
      have hclose : ∀ u ∈ (st.world.db.closeTx i).txs,
          u.tid = i ∨ ∃ v ∈ st.world.db.txs, v.tid = u.tid :=
        fun u hu => Or.inr ⟨u, (List.mem_filter.mp hu).1, rfl⟩
      rcases Db.commit_inv hx with ⟨hno, _, _⟩ | ⟨u, hu, ⟨hf, rfl, rfl⟩ | ⟨hf, rfl⟩⟩
      · rw [ht] at hno
        cases hno
      · refine clicksInv_of hi (Db.txOk_close hi.ok)
          (fun data hs => Db.settled_congr hs rfl rfl (fun _ h => h)) hclose ?_ ?_
          (fun k hk => Or.inl hk)
        · exact fun _ _ h => (by cases h)
        · exact fun _ _ _ hne => absurd hf hne
      · rw [ht, Option.some.injEq] at hu
        subst hu
        have hdb : (if t.aborted then st.world.db else st.world.db.applyTx t).closeTx i
            = (st.world.db.applyTx t).closeTx i := by
          rw [hcomp.1]
          rfl
        rw [hdb]
        refine clicksInv_of hi (Db.txOk_apply hi.ok ht hcomp) ?_ hclose ?_ ?_ ?_
        · exact fun data' hs => Db.settled_apply hs
        · intro data' _ h
          cases r <;> cases h
        · -- A commit that takes effect settles the job.
          intro data' hcall' _ _
          rw [Call.processClickJob.injEq] at hcall'
          subst hcall'
          rcases hins : t.inserted with _ | c
          · exact Db.settled_apply (hnone hins)
          · rcases hi.ok.pending t (Db.txOf_mem ht).1 c hins with ⟨⟨a, ha, hid⟩, _⟩
            refine ⟨?_, fun _ => ⟨c, ?_, hjob c hins⟩⟩
            · rw [← (hjob c hins).2, ← hid]
              exact hi.ok.drawn a ha
            · refine List.mem_append_right _ ?_
              rw [hins]
              exact List.mem_singleton_self c
        · intro k hk
          rcases List.mem_append.mp hk with hk | hk
          · exact Or.inl hk
          · refine Or.inr ⟨data, rfl, rfl, hf, hjob k ?_⟩
            simpa using hk
  | rollback =>
      rw [Db.rollback_inv hx]
      refine clicksInv_of hi (Db.txOk_close hi.ok)
        (fun data hs => Db.settled_congr hs rfl rfl (fun _ h => h))
        (fun u hu => Or.inr ⟨u, (List.mem_filter.mp hu).1, rfl⟩) ?_ ?_ (fun k hk => Or.inl hk)
      · exact fun _ _ h => (by cases r <;> cases h)
      · exact fun _ _ h => absurd h (Op.ne_commit rfl)
  | _ => simp only [Stmt.ofWorker, Bool.false_eq_true] at hworker

/-- Every operation, performed with what its call owes, keeps the invariant. -/
theorem clicksInv_push {op : Op} {r : op.Res} {w : World} (hi : ClicksInv st)
    (hpre : clickPre st i call op) (hmay : coherent.mayDo st i call op ch)
    (hx : exec P i op ch st.world = some (r, w)) : ClicksInv (st.push i call op ch r w) := by
  by_cases hs : ∀ s, op ≠ .db s
  · have hdb := exec_db_eq hs hx
    refine clicksInv_quiet hi ?_ ?_ ?_ ?_ ?_ ?_ <;> try rw [hdb]
    · exact fun _ h => h
    · cases op with
      | db s => exact absurd rfl (hs s)
      | _ => rfl
    · cases op with
      | db s => exact absurd rfl (hs s)
      | _ => rfl
  · push Not at hs
    rcases hs with ⟨s, rfl⟩
    rcases exec_db_inv hx with ⟨db, hdb, rfl⟩
    cases hw : s.ofWorker with
    | false => exact clicksInv_linkStmt hi hw hdb
    | true => exact clicksInv_workerStmt hi hw hpre hmay hdb

end Steps

section Soundness

variable {P : Platform}

/-- The other statements owe nothing. -/
theorem clickPre_quiet {st : Hist} {i : Nat} {call : Call} {op : Op}
    (h : ∀ s, op = .db s → s.ofWorker = false) : clickPre st i call op := by
  cases op with
  | db s =>
      have hs := h s rfl
      cases s <;> trivial
  | _ => trivial

theorem clickJobs_sound : Sound (clickScope P) clickJobs where
  env := by
    intro st e w hi hw
    rcases env_inv hw with ⟨ms, rfl⟩
    exact ⟨hi.ok, hi.owner, hi.found, hi.landed, hi.rows⟩
  env_loc := by
    intro i e w w' hw
    rcases env_inv hw with ⟨ms, rfl⟩
    rfl
  reap := by
    intro st i hi
    -- A transaction that dies gives up its work, and the tables stay what they were.
    have hset : ∀ data, st.world.db.Settled data → (st.world.db.closeTx i).Settled data :=
      fun data hs => Db.settled_congr hs rfl rfl (fun _ h => h)
    exact
      { ok := Db.txOk_close hi.ok
        owner := fun t ht => hi.owner t (List.mem_filter.mp ht).1
        found := fun e he data hcall hzero => hset data (hi.found e he data hcall hzero)
        landed := fun e he data hl => hset data (hi.landed e he data hl)
        rows := hi.rows }
  reap_loc := fun i j w hij => Db.txOf_closeTx_other hij
  exec := fun st i call op ch r w hi _ hpre hmay hx => clicksInv_push hi hpre hmay hx
  exec_loc := by
    intro i j op ch w r w' hij hx
    by_cases hs : ∀ s, op ≠ .db s
    · exact congrArg (fun db => Db.txOf db j) (exec_db_eq hs hx)
    · push Not at hs
      rcases hs with ⟨s, rfl⟩
      have hx' : exec P i (.db s) ch w = some (r, w') := hx
      rcases exec_db_inv hx' with ⟨db, hdb, rfl⟩
      exact Db.exec_txOf_other hij hdb
  body := by
    intro st i call hi _ hmine _
    by_cases hcall : ∃ data, call = .processClickJob data
    · rcases hcall with ⟨data, rfl⟩
      exact sat_map (processClickJob_sat hmine hi (fun _ _ => trivial))
    · push Not at hcall
      refine sat_performs (fun st' op _ hop => clickPre_quiet fun s hs => ?_) (fun _ _ => trivial)
      subst hs
      exact performs_ofWorker hcall hop

/-- A run in which attempts with one click id are attempts at one job keeps the
    invariant. -/
theorem run_clicksInv {w₀ : World} (hlinks : w₀.db.links = []) (hclicks : w₀.db.clicks = [])
    (htxs : w₀.db.txs = []) {c : Site} (hc : Run (clickScope P) coherent w₀ c) :
    ClicksInv c.state := by
  refine run_inv clickJobs_sound ?_ hc
  exact
    { ok := Db.txOk_empty w₀.db hlinks hclicks htxs
      owner := fun t ht => by
        rw [htxs] at ht
        cases ht
      found := fun e he => by cases he
      landed := fun e he => by cases he
      rows := fun k hk => by
        rw [hclicks] at hk
        cases hk }

/-- A policy under which started attempts with one click id are attempts at one
    job only has coherent runs. -/
theorem run_coherent {π : Policy Op Op.Res Call Choice World} {w₀ : World}
    (hone : ∀ d : Site, Run (clickScope P) π w₀ d → ∀ (i j : Nat) (t u : Task)
      (data data' : ClickJobData), d.threads[i]? = some t → d.threads[j]? = some u →
      t.call = .processClickJob data → u.call = .processClickJob data' →
      data'.clickId = data.clickId → data' = data)
    {c : Site} (hc : Run (clickScope P) π w₀ c) : Run (clickScope P) coherent w₀ c := by
  refine hc.mono (fun _ _ _ _ => trivial) ?_
  intro d hd i t op ch ht _ data hcall e he data' hcall' hid
  rcases run_event_thread hd e he with ⟨u, hu, hucall⟩
  exact hone d hd i e.tid t u data data' ht hu hcall (hucall.trans hcall') hid

end Soundness

/-- Deliveries of jobs from a list, any number of times, next to anything else. -/
def deliveries (jobs : List ClickJobData) : Policy Op Op.Res Call Choice World where
  mayStart := fun _ call => ∀ data, call = .processClickJob data → data ∈ jobs
  mayDo := fun _ _ _ _ _ => True

section Results

variable {P : Platform} {jobs : List ClickJobData} {w₀ : World} {c : Site}

/-- A key that differs between rows selects one row at most. -/
theorem filter_key_le_one {α : Type} {key : α → String} {l : List α}
    (h : l.Pairwise (fun a b => key a ≠ key b)) (x : String) :
    (l.filter (fun a => key a == x)).length ≤ 1 := by
  have hp := h.sublist (List.filter_sublist (p := fun a => key a == x))
  have hx : ∀ a ∈ l.filter (fun a => key a == x), key a = x :=
    fun a ha => beq_iff_eq.mp (List.mem_filter.mp ha).2
  rcases hf : l.filter (fun a => key a == x) with _ | ⟨a, _ | ⟨b, rest⟩⟩
  · exact Nat.zero_le 1
  · exact Nat.le_refl 1
  · rw [hf] at hp hx
    have hne := (List.pairwise_cons.mp hp).1 b List.mem_cons_self
    exact absurd ((hx a List.mem_cons_self).trans
      (hx b (List.mem_cons_of_mem _ List.mem_cons_self)).symm) hne

/-- Every attempt of a run is at a job of the list. -/
theorem run_deliveries (hc : Run (clickScope P) (deliveries jobs) w₀ c) :
    ∀ (i : Nat) (t : Task), c.threads[i]? = some t →
      ∀ data, t.call = .processClickJob data → data ∈ jobs :=
  run_calls (q := fun _ (call : Call) => ∀ data, call = .processClickJob data → data ∈ jobs)
    (fun _ _ h => h) (fun _ _ _ _ _ _ _ _ h => h) (fun _ _ _ _ _ h => h) (fun _ _ _ h => h) hc

/-- The invariant of a run that delivers jobs with different click ids. -/
theorem deliveries_clicksInv (hjobs : jobs.Pairwise (fun a b => a.clickId ≠ b.clickId))
    (hlinks : w₀.db.links = []) (hclicks : w₀.db.clicks = []) (htxs : w₀.db.txs = [])
    (hc : Run (clickScope P) (deliveries jobs) w₀ c) : ClicksInv c.state := by
  refine run_clicksInv hlinks hclicks htxs (run_coherent ?_ hc)
  intro d hd i j t u data data' ht hu hcall hcall' hid
  exact key_unique hjobs (run_deliveries hd j u hu data' hcall')
    (run_deliveries hd i t ht data hcall)
    hid

end Results

/-- In every reachable state, whatever failed: one click per job id, counters
    equal to the clicks, and a click for a job of an existing link exactly when
    one of its attempts committed. -/
theorem exactly_once (P : Platform) (jobs : List ClickJobData)
    (hjobs : jobs.Pairwise (fun a b => a.clickId ≠ b.clickId)) (w₀ : World)
    (hlinks : w₀.db.links = []) (hclicks : w₀.db.clicks = []) (htxs : w₀.db.txs = [])
    (c : Site) (hc : Run (clickScope P) (deliveries jobs) w₀ c) :
    (∀ jobId, (c.state.world.db.clicks.filter (fun k => k.jobId == jobId)).length ≤ 1) ∧
    (∀ r ∈ c.state.world.db.links, r.clickCount = c.state.world.db.clicksOf r.id) ∧
    (∀ data ∈ jobs, c.state.world.db.HasLink data.linkId →
      ((∃ k ∈ c.state.world.db.clicks, k.jobId = data.clickId) ↔
        ∃ e ∈ c.state.log, Landed data e)) := by
  have hi := deliveries_clicksInv hjobs hlinks hclicks htxs hc
  refine ⟨filter_key_le_one hi.ok.jobKey, hi.ok.counted, ?_⟩
  intro data hdata hlink
  constructor
  · rintro ⟨k, hk, hid⟩
    -- A click came from an attempt that landed, and job ids tell the jobs apart.
    rcases hi.rows k hk with ⟨e, he, data', hland, hjob⟩
    rcases run_event_thread hc e he with ⟨t, ht, hcall⟩
    have hdata' := run_deliveries hc e.tid t ht data' (hcall.trans hland.1)
    rw [key_unique hjobs hdata' hdata (hjob.1.symm.trans hid)] at hland
    exact ⟨e, he, hland⟩
  · rintro ⟨e, he, hland⟩
    rcases (hi.landed e he data hland).2 hlink with ⟨k, hk, hid, _⟩
    exact ⟨k, hk, hid⟩

/-- A job for the link that the run below creates. -/
def sampleJob : ClickJobData :=
  { clickId := "c", linkId := firstId, shortCode := "abcdefg", referrer := none, userAgent := none }

def sampleInput : CreateLinkInput :=
  { destinationUrl := "https://x.y", customAlias := none, expiresAt := none, maxClicks := none,
    password := none }

/-- The action starts no job but the sample. -/
def startsSample (_ : Site) : Action Call EnvStep Choice → Bool
  | .spawn (.processClickJob data) => decide (data = sampleJob)
  | _ => true

theorem startsSample_permits (c : Site) (a : Action Call EnvStep Choice)
    (h : startsSample c a = true) : (deliveries [sampleJob]).permits c a := by
  cases a with
  | spawn call =>
      rintro data rfl
      simp only [startsSample, decide_eq_true_eq] at h
      exact List.mem_singleton.mpr h
  | run i ch => exact fun _ _ _ _ _ => trivial
  | _ => trivial

/-- Two deliveries of one job: the first commits but does not learn of it, and
    the second finds the click there. -/
theorem exactly_once_redelivery : ∃ c : Site,
    Run (clickScope samplePlatform) (deliveries [sampleJob]) ownerWorld c ∧
    c.state.world.db.links.map (·.clickCount) = [1] ∧
    (∀ jobId, (c.state.world.db.clicks.filter (fun k => k.jobId == jobId)).length ≤ 1) ∧
    (∀ r ∈ c.state.world.db.links, r.clickCount = c.state.world.db.clicksOf r.id) ∧
    (∀ data ∈ [sampleJob], c.state.world.db.HasLink data.linkId →
      ((∃ k ∈ c.state.world.db.clicks, k.jobId = data.clickId) ↔
        ∃ e ∈ c.state.log, Landed data e)) := by
  have hrun := exists_run_of (clickScope samplePlatform) (deliveries [sampleJob]) ownerWorld
    startsSample startsSample_permits
    [.spawn (.createLink "u" sampleInput), .run 0 { draw := "abcdefg" }, .run 0 { draw := firstId },
      .spawn (.processClickJob sampleJob), .spawn (.processClickJob sampleJob), .run 1 {},
      .run 2 {}, .run 1 {}, .run 2 {}, .run 1 { draw := "k" }, .run 1 {},
      .run 1 { fault := .unacknowledged }, .run 1 {}, .run 2 {}, .run 2 {}]
    (fun c => decide (c.state.world.db.links.map (·.clickCount) = [1])) (by decide)
  rcases hrun with ⟨c, hc, hcount⟩
  exact ⟨c, hc, of_decide_eq_true hcount, exactly_once samplePlatform [sampleJob]
    (List.pairwise_singleton _ _) ownerWorld rfl rfl rfl c hc⟩

end ClickScope
