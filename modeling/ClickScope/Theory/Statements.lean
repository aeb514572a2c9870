import Mathlib.Data.Fintype.EquivFin
import Mathlib.Data.List.Pairwise
import ClickScope.Core.Db

/-!
# What Each Statement Does

One inversion lemma for each statement that can change a table.

Each lemma says everything an execution of its statement can have done: the
result it answered with, the guards that held, and the tables afterwards.
Invariants are derived from these and never unfold the statements again.

What a statement makes of the tables is one of a few changes, whatever it
answers. What all statements leave alone, that the ids drawn so far only grow,
and where a row comes from, are told by the change.

## Main definitions

* `Stmt.reads`, `Stmt.writesLinks`, `Stmt.ofWorker`: Kinds of statements.
* `SameTables`: Two databases that differ at most in the ids drawn.
* `Change`: What an execution makes of the database.

## Theorems

* `insertUser_inv`, `insertLink_inv`, `updateLink_inv`, `deleteLink_inv`,
  `sweepExpired_inv`: The statements of the pool.
* `begin_inv`, `insertClick_inv`, `incrementClickCount_inv`, `commit_inv`,
  `rollback_inv`: The statements of a click transaction.
* `exec_change`: Every execution makes one of the changes.
* `exec_read`, `exec_users_eq`, `exec_links_eq`, `exec_txs_eq`,
  `exec_ids_subset`: What the other statements leave alone.
* `exec_links_mem`, `exec_bumped_mem`: Where a row comes from.
* `applySet_keeps`: What an update leaves alone in its row.
-/

namespace ClickScope

/-- A statement that only reads. -/
def Stmt.reads : Stmt → Bool
  | .insertUser _ | .insertLink _ | .updateLink _ _ _ _ | .deleteLink _ _ | .sweepExpired
  | .begin | .insertClick _ | .incrementClickCount _ | .commit | .rollback => false
  | _ => true

/-- A statement that can change committed links. -/
def Stmt.writesLinks : Stmt → Bool
  | .insertLink _ | .updateLink _ _ _ _ | .deleteLink _ _ | .sweepExpired | .commit => true
  | _ => false

/-- A statement the worker sends on its own connection. -/
def Stmt.ofWorker : Stmt → Bool
  | .begin | .insertClick _ | .incrementClickCount _ | .commit | .rollback => true
  | _ => false

/-- A key that differs between any two members determines the member. -/
theorem key_unique {α β : Type} {key : α → β} {l : List α}
    (h : l.Pairwise (fun a b => key a ≠ key b)) {a b : α} (ha : a ∈ l) (hb : b ∈ l)
    (hkey : key a = key b) : a = b := by
  by_contra hne
  have hsymm : Std.Symm (fun a b : α => key a ≠ key b) := ⟨fun _ _ hab heq => hab heq.symm⟩
  exact h.forall ha hb hne hkey

/-- An id that has not been drawn. -/
theorem exists_fresh (ids : List String) : ∃ x, x ∉ ids := by
  rcases Infinite.exists_notMem_finset ids.toFinset with ⟨x, hx⟩
  exact ⟨x, fun h => hx (List.mem_toFinset.mpr h)⟩

namespace Db

/-- The tables and transactions are the same; ids may have been drawn. -/
def SameTables (db db' : Db) : Prop :=
  ∃ ids, (∀ x ∈ db.ids, x ∈ ids) ∧ db' = { db with ids := ids }

theorem sameTables_refl (db : Db) : SameTables db db :=
  ⟨db.ids, fun _ h => h, rfl⟩

theorem sameTables_draw (db : Db) (id : String) :
    SameTables db { db with ids := id :: db.ids } :=
  ⟨id :: db.ids, fun _ h => List.mem_cons_of_mem _ h, rfl⟩

section Inversion

variable {pg : Postgres} {now tid : Nat} {ch : Choice} {db db' : Db}

/-- An account insert adds exactly one row, or none and says why. -/
theorem insertUser_inv {u : NewUser} {r : Except DbError (List UserRow)}
    (h : Db.exec pg now tid (.insertUser u) ch db = some (r, db')) :
    ch.draw ∉ db.ids ∧
    ((r = .ok [newUserRow now ch.draw u] ∧ textOk u.email = true ∧ passwordXorOauth u = true ∧
        (∀ row ∈ db.users, userClash pg u row = false) ∧
        db' = { db with ids := ch.draw :: db.ids,
                        users := db.users ++ [newUserRow now ch.draw u] }) ∨
      (∃ e, r = .error e ∧ SameTables db db' ∧
        ((e = .invalidByteSequence ∧ (textOk u.email && textOk? u.passwordHash &&
            textOk? u.oauthProvider && textOk? u.oauthId) = false) ∨
          (e = .checkViolation ∧ passwordXorOauth u = false) ∨
          (e = .uniqueViolation ∧ ∃ row ∈ db.users, userClash pg u row = true)))) := by
  simp only [Db.exec] at h
  split at h
  · -- a drawn id is never one that was drawn before
    exact absurd h (by simp only [reduceCtorEq, not_false_eq_true])
  · rename_i hfresh
    refine ⟨hfresh, ?_⟩
    simp only [insertUser, Option.some.injEq] at h
    split at h
    · -- The texts are bound before an id is drawn, and the checks come after.
      rename_i htext
      simp only [Prod.mk.injEq] at h
      exact Or.inr ⟨_, h.1.symm, h.2 ▸ sameTables_refl db, Or.inl ⟨rfl, htext⟩⟩
    · rename_i htext
      simp only [Bool.not_eq_false, Bool.and_eq_true] at htext
      split at h
      · rename_i hxor
        simp only [Prod.mk.injEq] at h
        exact Or.inr ⟨_, h.1.symm, h.2 ▸ sameTables_draw db _, Or.inr (Or.inl ⟨rfl, hxor⟩)⟩
      · rename_i hxor
        split at h
        · rename_i hclash
          simp only [Prod.mk.injEq] at h
          rw [List.any_eq_true] at hclash
          exact Or.inr ⟨_, h.1.symm, h.2 ▸ sameTables_draw db _, Or.inr (Or.inr ⟨rfl, hclash⟩)⟩
        · rename_i hclash
          simp only [Prod.mk.injEq] at h
          simp only [List.any_eq_true, not_exists, not_and, Bool.not_eq_true] at hclash
          exact Or.inl ⟨h.1.symm, htext.1.1.1, Bool.eq_true_of_not_eq_false hxor, hclash, h.2.symm⟩

/-- A link insert adds exactly one row, or none. A unique violation means the
    short code is there already. -/
theorem insertLink_inv {l : NewLink} {r : Except DbError (List LinkRow)}
    (h : Db.exec pg now tid (.insertLink l) ch db = some (r, db')) :
    ch.draw ∉ db.ids ∧
    ((r = .ok [newLinkRow now ch.draw l] ∧ (∀ row ∈ db.links, row.shortCode ≠ l.shortCode) ∧
        db' = { db with ids := ch.draw :: db.ids,
                        links := db.links ++ [newLinkRow now ch.draw l] }) ∨
      (∃ e, r = .error e ∧ SameTables db db' ∧
        (e = .uniqueViolation → ∃ row ∈ db.links, row.shortCode = l.shortCode))) := by
  simp only [Db.exec] at h
  split at h
  · exact absurd h (by simp only [reduceCtorEq, not_false_eq_true])
  · rename_i hfresh
    refine ⟨hfresh, ?_⟩
    simp only [insertLink, Option.some.injEq] at h
    split_ifs at h with htext hint htime hcheck hclash howner <;> simp only [Prod.mk.injEq] at h
    · -- a text, a number and a date that cannot be bound: no id is drawn
      exact Or.inr ⟨_, h.1.symm, h.2 ▸ sameTables_refl db,
        by simp only [reduceCtorEq, false_implies]⟩
    · exact Or.inr ⟨_, h.1.symm, h.2 ▸ sameTables_refl db,
        fun heq => absurd heq (rangeError_ne_uniqueViolation _)⟩
    · exact Or.inr ⟨_, h.1.symm, h.2 ▸ sameTables_refl db,
        by simp only [reduceCtorEq, false_implies]⟩
    · -- the check of the click limit
      exact Or.inr ⟨_, h.1.symm, h.2 ▸ sameTables_draw db _,
        by simp only [reduceCtorEq, false_implies]⟩
    · -- the short code is there
      simp only [List.any_eq_true, beq_iff_eq] at hclash
      exact Or.inr ⟨_, h.1.symm, h.2 ▸ sameTables_draw db _, fun _ => hclash⟩
    · -- the owner is not
      exact Or.inr ⟨_, h.1.symm, h.2 ▸ sameTables_draw db _,
        by simp only [reduceCtorEq, false_implies]⟩
    · simp only [List.any_eq_true, beq_iff_eq, not_exists, not_and] at hclash
      exact Or.inl ⟨h.1.symm, hclash, h.2.symm⟩

theorem ownedBy_iff {id userId : String} {r : LinkRow} :
    ownedBy id userId r = true ↔ Uuid.read id = some r.id ∧ r.userId = userId := by
  simp only [ownedBy, Bool.and_eq_true, beq_iff_eq]

/-- Where ids are unique, the condition of an owner's statement selects the row
    it finds, and no other. -/
theorem ownedBy_found {links : List LinkRow} (hkeys : links.Pairwise (fun a b => a.id ≠ b.id))
    {id userId : String} {row : LinkRow} (hfind : links.find? (ownedBy id userId) = some row)
    {x : LinkRow} (hx : x ∈ links) : ownedBy id userId x = true ↔ x = row := by
  have hown : ownedBy id userId row = true := List.find?_some hfind
  refine ⟨fun hox => key_unique hkeys hx (List.mem_of_find?_eq_some hfind) ?_,
    fun heq => heq ▸ hown⟩
  exact Option.some.inj ((ownedBy_iff.mp hox).1.symm.trans (ownedBy_iff.mp hown).1)

/-- A partial update fails and changes nothing, selects no row, or rewrites the
    rows its condition selects into one checked new version. -/
theorem updateLink_inv {set : List SetClause} {i u : Nat} {values : List SqlValue}
    {r : Except DbError (List LinkRow)}
    (h : Db.exec pg now tid (.updateLink set i u values) ch db = some (r, db')) :
    (∃ e, r = .error e ∧ db' = db) ∨ (r = .ok [] ∧ db' = db) ∨
    (∃ id userId row row', param values i = some (.uuid id) ∧
      param values u = some (.account userId) ∧ values.findSome? SqlValue.bindError = none ∧
      db.links.find? (ownedBy id userId) = some row ∧ db.rowLocked row.id = false ∧
      sees now (now - ch.waited) row = true ∧
      applySet (now - ch.waited) values set row = .ok row' ∧
      maxClicksCheck row'.maxClicks = true ∧ r = .ok [row'] ∧
      db' = { db with
        links := db.links.map (fun r => if ownedBy id userId r then row' else r) }) := by
  simp only [Db.exec, updateLink] at h
  split at h
  · simp only [Option.some.injEq, Prod.mk.injEq] at h
    exact Or.inl ⟨_, h.1.symm, h.2.symm⟩
  · -- The condition is compared with the values that are bound.
    rename_i hbind
    split at h
    · rename_i id userId hid huser
      split at h
      · simp only [Option.some.injEq, Prod.mk.injEq] at h
        exact Or.inr (Or.inl ⟨h.1.symm, h.2.symm⟩)
      · rename_i row hrow
        split at h
        · exact absurd h (by simp only [reduceCtorEq, not_false_eq_true])
        · rename_i hlock
          simp only [Bool.or_eq_true, Bool.not_eq_true', not_or, Bool.not_eq_true,
            Bool.not_eq_false] at hlock
          split at h
          · simp only [Option.some.injEq, Prod.mk.injEq] at h
            exact Or.inl ⟨_, h.1.symm, h.2.symm⟩
          · rename_i row' hset
            split at h
            · simp only [Option.some.injEq, Prod.mk.injEq] at h
              exact Or.inl ⟨_, h.1.symm, h.2.symm⟩
            · rename_i hcheck
              simp only [Option.some.injEq, Prod.mk.injEq] at h
              exact Or.inr (Or.inr ⟨id, userId, row, row', hid, huser, hbind, hrow, hlock.1,
                hlock.2, hset, Bool.eq_true_of_not_eq_false hcheck, h.1.symm, h.2.symm⟩)
    · simp only [Option.some.injEq, Prod.mk.injEq] at h
      exact Or.inl ⟨_, h.1.symm, h.2.symm⟩

/-- A delete is given no UUID, finds no row, or removes the row with its clicks
    while no open transaction holds either. -/
theorem deleteLink_inv {id userId : String} {r : Except DbError (List (String × String))}
    (h : Db.exec pg now tid (.deleteLink id userId) ch db = some (r, db')) :
    (∃ e, uuidError id = some e ∧ r = .error e ∧ db' = db) ∨
    (db.links.find? (ownedBy id userId) = none ∧ r = .ok [] ∧ db' = db) ∨
    (∃ row, db.links.find? (ownedBy id userId) = some row ∧ db.rowLocked row.id = false ∧
      db.keyShared row.id = false ∧ r = .ok [(row.id, row.shortCode)] ∧
      db' = { db with links := db.links.filter (fun r => !ownedBy id userId r),
                      clicks := db.clicks.filter (fun c => c.linkId != row.id) }) := by
  simp only [Db.exec, deleteLink] at h
  split at h
  · rename_i e he
    simp only [Option.some.injEq, Prod.mk.injEq] at h
    exact Or.inl ⟨e, he, h.1.symm, h.2.symm⟩
  · split at h
    · -- No row of the account has this key.
      rename_i hnone
      simp only [Option.some.injEq, Prod.mk.injEq] at h
      exact Or.inr (Or.inl ⟨hnone, h.1.symm, h.2.symm⟩)
    · rename_i row hrow
      split at h
      · exact absurd h (by simp only [reduceCtorEq, not_false_eq_true])
      · -- The row is deleted, and its clicks with it.
        rename_i hlock
        simp only [Bool.or_eq_true, not_or, Bool.not_eq_true] at hlock
        simp only [Option.some.injEq, Prod.mk.injEq] at h
        exact Or.inr (Or.inr ⟨row, hrow, hlock.1, hlock.2, h.1.symm, h.2.symm⟩)

/-- The sweep deactivates every matching row, none of which is locked. -/
theorem sweepExpired_inv {r : Except DbError Nat}
    (h : Db.exec pg now tid .sweepExpired ch db = some (r, db')) :
    (∀ row ∈ db.links, sweepMatches now (now - ch.waited) row = true →
      db.rowLocked row.id = false) ∧
    r = .ok (db.links.filter (sweepMatches now (now - ch.waited))).length ∧
    db' = { db with links := db.links.map (fun r =>
      if sweepMatches now (now - ch.waited) r then deactivate (now - ch.waited) r else r) } := by
  simp only [Db.exec, sweepExpired] at h
  split at h
  · exact absurd h (by simp only [reduceCtorEq, not_false_eq_true])
  · rename_i n db₂ hsweep
    simp only [Option.some.injEq, Prod.mk.injEq] at h
    rcases h with ⟨rfl, rfl⟩
    split at hsweep
    · exact absurd hsweep (by simp only [reduceCtorEq, not_false_eq_true])
    · rename_i hlock
      simp only [List.any_eq_true, Bool.and_eq_true, not_exists, not_and,
        Bool.not_eq_true] at hlock
      simp only [Option.some.injEq, Prod.mk.injEq] at hsweep
      exact ⟨hlock, by rw [← hsweep.1], hsweep.2.symm⟩

theorem begin_inv {r : Except DbError Unit}
    (h : Db.exec pg now tid .begin ch db = some (r, db')) :
    (r = .error .connectionFailure ∧ db' = db) ∨
    (r = .ok () ∧ (∃ t, db.txOf tid = some t) ∧ db' = db) ∨
    (r = .ok () ∧ db.txOf tid = none ∧ db' = { db with
      txs := { tid := tid, aborted := false, inserted := none, bumped := none } :: db.txs }) := by
  simp only [Db.exec, beginTx, Option.some.injEq] at h
  split at h
  · split at h
    · rename_i t ht
      simp only [Prod.mk.injEq] at h
      exact Or.inr (Or.inl ⟨h.1.symm, ⟨t, ht⟩, h.2.symm⟩)
    · rename_i ht
      simp only [Prod.mk.injEq] at h
      exact Or.inr (Or.inr ⟨h.1.symm, ht, h.2.symm⟩)
  · simp only [Prod.mk.injEq] at h
    exact Or.inl ⟨h.1.symm, h.2.symm⟩

/-- The database after transaction `tid` failed a statement. -/
def aborted (db : Db) (tid : Nat) : Db :=
  db.setTx tid (fun t => { t with aborted := true, inserted := none, bumped := none })

/-- The database after transaction `tid` inserted a click. -/
def withInserted (db : Db) (tid : Nat) (c : ClickRow) : Db :=
  { db.setTx tid (fun t => { t with inserted := some c }) with ids := c.id :: db.ids }

/-- The database after transaction `tid` wrote a new version of a link row. -/
def withBumped (db : Db) (tid : Nat) (row : LinkRow) : Db :=
  db.setTx tid (fun t => { t with bumped := some row })

/-- The click insert fails, finds the click there already, or keeps a new click
    to itself, holding off every other transaction that wants the job id. -/
theorem insertClick_inv {data : ClickJobData} {r : Except DbError Nat}
    (h : Db.exec pg now tid (.insertClick data) ch db = some (r, db')) :
    (∃ e, r = .error e ∧ (db' = db ∨ db' = db.aborted tid)) ∨
    (∃ t, db.txOf tid = some t ∧ t.aborted = false ∧ t.inserted = none ∧
      db.jobPending tid data.clickId = false ∧
      ((r = .ok 0 ∧ db' = db ∧ ∃ c ∈ db.clicks, c.jobId = data.clickId) ∨
        (r = .ok 1 ∧ (∀ c ∈ db.clicks, c.jobId ≠ data.clickId) ∧
          (∃ row ∈ db.links, row.id = data.linkId) ∧ ch.draw ∉ db.ids ∧
          db' = db.withInserted tid (newClickRow (now - ch.waited) ch.draw data)))) := by
  simp only [Db.exec, insertClick, abortTx] at h
  split at h
  · -- no transaction
    simp only [Option.some.injEq, Prod.mk.injEq] at h
    exact Or.inl ⟨_, h.1.symm, Or.inl h.2.symm⟩
  · rename_i t ht
    split at h
    · -- a transaction that has failed
      simp only [Option.some.injEq, Prod.mk.injEq] at h
      exact Or.inl ⟨_, h.1.symm, Or.inl h.2.symm⟩
    · rename_i hab
      split at h
      · -- the worker inserts once in a transaction
        exact absurd h (by simp only [reduceCtorEq, not_false_eq_true])
      · rename_i hins
        split at h
        · -- the connection is lost, or the texts cannot be bound
          simp only [Option.some.injEq, Prod.mk.injEq] at h
          exact Or.inl ⟨_, h.1.symm, Or.inr h.2.symm⟩
        · split at h
          · simp only [Option.some.injEq, Prod.mk.injEq] at h
            exact Or.inl ⟨_, h.1.symm, Or.inr h.2.symm⟩
          · split at h
            · -- the insert waits for the transaction that holds the job id
              exact absurd h (by simp only [reduceCtorEq, not_false_eq_true])
            · rename_i hpend
              have hguard : t.aborted = false ∧ t.inserted = none ∧
                  db.jobPending tid data.clickId = false :=
                ⟨Bool.eq_false_of_not_eq_true hab, by simpa using hins,
                  Bool.eq_false_of_not_eq_true hpend⟩
              split at h
              · -- a click of this job is committed: `ON CONFLICT DO NOTHING`
                rename_i hdup
                simp only [Option.some.injEq, Prod.mk.injEq] at h
                simp only [List.any_eq_true, beq_iff_eq] at hdup
                exact Or.inr ⟨t, ht, hguard.1, hguard.2.1, hguard.2.2,
                  Or.inl ⟨h.1.symm, h.2.symm, hdup⟩⟩
              · rename_i hdup
                split at h
                · -- the link was deleted
                  simp only [Option.some.injEq, Prod.mk.injEq] at h
                  exact Or.inl ⟨_, h.1.symm, Or.inr h.2.symm⟩
                · rename_i hlink
                  split at h
                  · exact absurd h (by simp only [reduceCtorEq, not_false_eq_true])
                  · rename_i hfresh
                    simp only [Option.some.injEq, Prod.mk.injEq] at h
                    simp only [List.any_eq_true, beq_iff_eq, not_exists, not_and] at hdup
                    simp only [Bool.not_eq_false, List.any_eq_true, beq_iff_eq] at hlink
                    exact Or.inr ⟨t, ht, hguard.1, hguard.2.1, hguard.2.2,
                      Or.inr ⟨h.1.symm, hdup, hlink, hfresh, h.2.symm⟩⟩

/-- The counter update fails, finds no link, or keeps a new version of the
    unlocked row to itself. -/
theorem incrementClickCount_inv {linkId : String} {r : Except DbError Nat}
    (h : Db.exec pg now tid (.incrementClickCount linkId) ch db = some (r, db')) :
    (∃ e, r = .error e ∧ (db' = db ∨ db' = db.aborted tid)) ∨
    (∃ t, db.txOf tid = some t ∧ t.aborted = false ∧ t.bumped = none ∧
      ((r = .ok 0 ∧ db' = db ∧ db.links.find? (fun r => r.id == linkId) = none) ∨
        (∃ row, r = .ok 1 ∧ db.links.find? (fun r => r.id == linkId) = some row ∧
          db.rowLocked row.id = false ∧
          db' = db.withBumped tid { row with clickCount := row.clickCount + 1 }))) := by
  simp only [Db.exec, incrementClickCount, abortTx] at h
  split at h
  · simp only [Option.some.injEq, Prod.mk.injEq] at h
    exact Or.inl ⟨_, h.1.symm, Or.inl h.2.symm⟩
  · rename_i t ht
    split at h
    · simp only [Option.some.injEq, Prod.mk.injEq] at h
      exact Or.inl ⟨_, h.1.symm, Or.inl h.2.symm⟩
    · rename_i hab
      split at h
      · exact absurd h (by simp only [reduceCtorEq, not_false_eq_true])
      · rename_i hbump
        have hguard : t.aborted = false ∧ t.bumped = none :=
          ⟨Bool.eq_false_of_not_eq_true hab, by simpa using hbump⟩
        split at h
        · simp only [Option.some.injEq, Prod.mk.injEq] at h
          exact Or.inl ⟨_, h.1.symm, Or.inr h.2.symm⟩
        · split at h
          · -- the link was deleted
            rename_i hnone
            simp only [Option.some.injEq, Prod.mk.injEq] at h
            exact Or.inr ⟨t, ht, hguard.1, hguard.2, Or.inl ⟨h.1.symm, h.2.symm, hnone⟩⟩
          · rename_i row hrow
            split at h
            · -- the update waits for the transaction that holds the row
              exact absurd h (by simp only [reduceCtorEq, not_false_eq_true])
            · rename_i hlock
              split at h
              · -- the counter would leave its column
                simp only [Option.some.injEq, Prod.mk.injEq] at h
                exact Or.inl ⟨_, h.1.symm, Or.inr h.2.symm⟩
              · simp only [Option.some.injEq, Prod.mk.injEq] at h
                exact Or.inr ⟨t, ht, hguard.1, hguard.2, Or.inr ⟨row, h.1.symm, hrow,
                  Bool.eq_false_of_not_eq_true hlock, h.2.symm⟩⟩

/-- A commit without a transaction does nothing. One with a transaction closes
    it, and applies its work unless the commit was lost or the transaction had
    already failed. -/
theorem commit_inv {r : Except DbError Unit}
    (h : Db.exec pg now tid .commit ch db = some (r, db')) :
    (db.txOf tid = none ∧ r = .ok () ∧ db' = db) ∨
    (∃ t, db.txOf tid = some t ∧
      ((ch.fault = .lost ∧ r = .error .connectionFailure ∧ db' = db.closeTx tid) ∨
        (ch.fault ≠ .lost ∧
          db' = (if t.aborted then db else db.applyTx t).closeTx tid))) := by
  simp only [Db.exec, commitTx, Option.some.injEq] at h
  split at h
  · rename_i ht
    simp only [Prod.mk.injEq] at h
    exact Or.inl ⟨ht, h.1.symm, h.2.symm⟩
  · rename_i t ht
    refine Or.inr ⟨t, ht, ?_⟩
    split at h <;> rename_i hf <;> simp only [Prod.mk.injEq] at h
    · -- committed, lost, and committed without an acknowledgement
      exact Or.inr ⟨by rw [hf]; decide, h.2.symm⟩
    · exact Or.inl ⟨hf, h.1.symm, h.2.symm⟩
    · exact Or.inr ⟨by rw [hf]; decide, h.2.symm⟩

theorem rollback_inv {r : Except DbError Unit}
    (h : Db.exec pg now tid .rollback ch db = some (r, db')) : db' = db.closeTx tid := by
  simp only [Db.exec, rollbackTx, Option.some.injEq] at h
  split at h <;> exact (Prod.mk.inj h).2.symm

/-- A statement that only reads changes nothing. -/
theorem exec_read {s : Stmt} {r : Except DbError s.Rows} (hs : s.reads = true)
    (h : Db.exec pg now tid s ch db = some (r, db')) : db' = db := by
  cases s with
  | insertUser | insertLink | updateLink | deleteLink | sweepExpired | begin | insertClick
  | incrementClickCount | commit | rollback =>
      simp only [Stmt.reads, Bool.false_eq_true] at hs
  | linkIdByCode code =>
      simp only [Db.exec] at h
      split at h <;> simp only [Option.some.injEq, Prod.mk.injEq] at h <;> exact h.2.symm
  | userIdByEmail | userByEmail | userByOAuth | userById | listLinks | countLinks | linkById
  | redirectLookup | clickStats =>
      simp only [Db.exec, Option.some.injEq, Prod.mk.injEq] at h
      exact h.2.symm

/-- The lookup finds the rows with the code. -/
theorem redirectLookup_ok {code : String} {rows : List LinkRow}
    (h : Db.exec pg now tid (.redirectLookup code) ch db = some (.ok rows, db')) :
    rows = db.links.filter (fun r => r.shortCode == code) := by
  simp only [Db.exec, redirectLookup, Option.some.injEq, Prod.mk.injEq] at h
  by_cases ht : textOk code = true
  · rw [if_pos ht, Except.ok.injEq] at h
    exact h.1.symm
  · rw [if_neg ht] at h
    cases h.1

/-- An owner's read finds the rows of the id that is said. -/
theorem linkById_ok {id userId : String} {rows : List LinkRow}
    (h : Db.exec pg now tid (.linkById id userId) ch db = some (.ok rows, db')) :
    rows = db.links.filter (ownedBy id userId) := by
  simp only [Db.exec, linkById, Option.some.injEq, Prod.mk.injEq] at h
  split at h
  · cases h.1
  · rw [Except.ok.injEq] at h
    exact h.1.symm

/-- What an execution of a statement makes of the database, whatever it answers.
    It is given the moment, and the one its transaction began at. -/
inductive Change (now start tid : Nat) (draw : String) (db : Db) : Stmt → Db → Prop
  | same {s : Stmt} : Change now start tid draw db s db
  | drawn {s : Stmt} {ids : List String} (hids : ∀ x ∈ db.ids, x ∈ ids) :
      Change now start tid draw db s { db with ids := ids }
  | userAdded {u : NewUser} : Change now start tid draw db (.insertUser u)
      { db with ids := draw :: db.ids, users := db.users ++ [newUserRow now draw u] }
  | linkAdded {l : NewLink} : Change now start tid draw db (.insertLink l)
      { db with ids := draw :: db.ids, links := db.links ++ [newLinkRow now draw l] }
  | linkUpdated {set : List SetClause} {i u : Nat} {values : List SqlValue} {id userId : String}
      {row row' : LinkRow} (hrow : row ∈ db.links) (hsees : sees now start row = true)
      (hset : applySet start values set row = .ok row') :
      Change now start tid draw db (.updateLink set i u values)
        { db with links := db.links.map (fun r => if ownedBy id userId r then row' else r) }
  | linkDeleted {id userId : String} {row : LinkRow} :
      Change now start tid draw db (.deleteLink id userId)
      { db with links := db.links.filter (fun r => !ownedBy id userId r),
                clicks := db.clicks.filter (fun c => c.linkId != row.id) }
  | swept : Change now start tid draw db .sweepExpired
      { db with links := db.links.map (fun r =>
          if sweepMatches now start r then deactivate start r else r) }
  | begun : Change now start tid draw db .begin
      { db with
        txs := { tid := tid, aborted := false, inserted := none, bumped := none } :: db.txs }
  | failed {s : Stmt} (hs : s.ofWorker = true) : Change now start tid draw db s (db.aborted tid)
  | clickAdded {data : ClickJobData} : Change now start tid draw db (.insertClick data)
      (db.withInserted tid (newClickRow start draw data))
  | countBumped {linkId : String} {row : LinkRow} (hrow : row ∈ db.links) :
      Change now start tid draw db (.incrementClickCount linkId)
        (db.withBumped tid { row with clickCount := row.clickCount + 1 })
  | closed {s : Stmt} (hs : s.ofWorker = true) : Change now start tid draw db s (db.closeTx tid)
  | applied {t : ClickTx} (ht : t ∈ db.txs) :
      Change now start tid draw db .commit ((db.applyTx t).closeTx tid)

theorem exec_change {s : Stmt} {r : Except DbError s.Rows}
    (h : Db.exec pg now tid s ch db = some (r, db')) :
    Change now (now - ch.waited) tid ch.draw db s db' := by
  cases s with
  | insertUser u =>
      rcases insertUser_inv h with ⟨_, ⟨_, _, _, _, rfl⟩ | ⟨_, _, ⟨ids, hids, rfl⟩, _⟩⟩
      · exact .userAdded
      · exact .drawn hids
  | insertLink l =>
      rcases insertLink_inv h with ⟨_, ⟨_, _, rfl⟩ | ⟨_, _, ⟨ids, hids, rfl⟩, _⟩⟩
      · exact .linkAdded
      · exact .drawn hids
  | updateLink set i u values =>
      rcases updateLink_inv h with ⟨_, _, rfl⟩ | ⟨_, rfl⟩ |
        ⟨_, _, _, _, _, _, _, hfind, _, hsees, hset, _, _, rfl⟩
      · exact .same
      · exact .same
      · exact .linkUpdated (List.mem_of_find?_eq_some hfind) hsees hset
  | deleteLink id userId =>
      rcases deleteLink_inv h with ⟨_, _, _, rfl⟩ | ⟨_, _, rfl⟩ | ⟨_, _, _, _, _, rfl⟩
      · exact .same
      · exact .same
      · exact .linkDeleted
  | sweepExpired =>
      rw [(sweepExpired_inv h).2.2]
      exact .swept
  | begin =>
      rcases begin_inv h with ⟨_, rfl⟩ | ⟨_, _, rfl⟩ | ⟨_, _, rfl⟩
      · exact .same
      · exact .same
      · exact .begun
  | insertClick data =>
      rcases insertClick_inv h with ⟨_, _, rfl | rfl⟩ |
        ⟨_, _, _, _, _, ⟨_, rfl, _⟩ | ⟨_, _, _, _, rfl⟩⟩
      · exact .same
      · exact .failed rfl
      · exact .same
      · exact .clickAdded
  | incrementClickCount linkId =>
      rcases incrementClickCount_inv h with ⟨_, _, rfl | rfl⟩ |
        ⟨_, _, _, _, ⟨_, rfl, _⟩ | ⟨_, _, hrow, _, rfl⟩⟩
      · exact .same
      · exact .failed rfl
      · exact .same
      · exact .countBumped (List.mem_of_find?_eq_some hrow)
  | commit =>
      rcases commit_inv h with ⟨_, _, rfl⟩ | ⟨t, ht, ⟨_, _, rfl⟩ | ⟨_, rfl⟩⟩
      · exact .same
      · exact .closed rfl
      · -- What a transaction has done is installed unless it has failed.
        cases t.aborted with
        | true => exact .closed rfl
        | false => exact .applied (List.mem_of_find?_eq_some ht)
  | rollback =>
      rw [rollback_inv h]
      exact .closed rfl
  | userIdByEmail | userByEmail | userByOAuth | userById | linkIdByCode | listLinks | countLinks
  | linkById | redirectLookup | clickStats =>
      rw [exec_read rfl h]
      exact .same

/-- Only an account insert changes the accounts. -/
theorem exec_users_eq {s : Stmt} {r : Except DbError s.Rows} (hs : ∀ u, s ≠ .insertUser u)
    (h : Db.exec pg now tid s ch db = some (r, db')) : db'.users = db.users := by
  cases exec_change h with
  | userAdded => exact absurd rfl (hs _)
  | _ => rfl

/-- The links change by the owner's writes, the sweep and a commit only. -/
theorem exec_links_eq {s : Stmt} {r : Except DbError s.Rows} (hs : s.writesLinks = false)
    (h : Db.exec pg now tid s ch db = some (r, db')) : db'.links = db.links := by
  cases exec_change h with
  | linkAdded | linkUpdated | linkDeleted | swept | applied => cases hs
  | _ => rfl

/-- The open transactions change by the worker's statements only. -/
theorem exec_txs_eq {s : Stmt} {r : Except DbError s.Rows} (hs : s.ofWorker = false)
    (h : Db.exec pg now tid s ch db = some (r, db')) : db'.txs = db.txs := by
  cases exec_change h with
  | begun | clickAdded | countBumped | applied => cases hs
  | failed hworker | closed hworker => exact (Bool.false_ne_true (hs.symm.trans hworker)).elim
  | _ => rfl

/-- Ids drawn stay drawn. -/
theorem exec_ids_subset {s : Stmt} {r : Except DbError s.Rows}
    (h : Db.exec pg now tid s ch db = some (r, db')) : ∀ x ∈ db.ids, x ∈ db'.ids := by
  intro x hx
  cases exec_change h with
  | drawn hids => exact hids x hx
  | userAdded | linkAdded | clickAdded => exact List.mem_cons_of_mem _ hx
  | _ => exact hx

end Inversion

section Origins

variable {pg : Postgres} {now tid : Nat} {ch : Choice} {db db' : Db}

/-- A transaction after one of them was replaced. -/
theorem mem_setTx {f : ClickTx → ClickTx} {u : ClickTx} (h : u ∈ (db.setTx tid f).txs) :
    (u ∈ db.txs ∧ u.tid ≠ tid) ∨ ∃ t ∈ db.txs, t.tid = tid ∧ u = f t := by
  rcases List.mem_map.mp h with ⟨t, ht, hu⟩
  by_cases hid : t.tid = tid
  · rw [if_pos (beq_iff_eq.mpr hid)] at hu
    exact Or.inr ⟨t, ht, hid, hu.symm⟩
  · rw [if_neg (by rw [beq_iff_eq]; exact hid)] at hu
    rw [← hu]
    exact Or.inl ⟨ht, hid⟩

/-- Where a link row comes from. -/
theorem exec_links_mem {s : Stmt} {r : Except DbError s.Rows}
    (h : Db.exec pg now tid s ch db = some (r, db')) {row' : LinkRow} (hrow : row' ∈ db'.links) :
    row' ∈ db.links ∨ (∃ l id, s = .insertLink l ∧ row' = newLinkRow now id l) ∨
    (∃ set i u values row, s = .updateLink set i u values ∧ row ∈ db.links ∧
      sees now (now - ch.waited) row = true ∧
      applySet (now - ch.waited) values set row = .ok row') ∨
    (∃ row ∈ db.links, sees now (now - ch.waited) row = true ∧
      row' = deactivate (now - ch.waited) row) ∨ ∃ t ∈ db.txs, t.bumped = some row' := by
  cases exec_change h with
  | linkAdded =>
      rcases List.mem_append.mp hrow with hrow | hrow
      · exact Or.inl hrow
      · exact Or.inr (Or.inl ⟨_, ch.draw, rfl, List.mem_singleton.mp hrow⟩)
  | @linkUpdated _ _ _ _ id userId row row₁ hmem hsees hset =>
      rcases List.mem_map.mp hrow with ⟨a, ha, hif⟩
      by_cases ho : ownedBy id userId a = true
      · rw [if_pos ho] at hif
        rw [hif] at hset
        exact Or.inr (Or.inr (Or.inl ⟨_, _, _, _, row, rfl, hmem, hsees, hset⟩))
      · rw [if_neg ho] at hif
        exact Or.inl (hif ▸ ha)
  | linkDeleted => exact Or.inl (List.mem_filter.mp hrow).1
  | swept =>
      rcases List.mem_map.mp hrow with ⟨a, ha, hif⟩
      by_cases hm : sweepMatches now (now - ch.waited) a = true
      · rw [if_pos hm] at hif
        exact Or.inr (Or.inr (Or.inr (Or.inl ⟨a, ha, (Bool.and_eq_true _ _ ▸ hm).2, hif.symm⟩)))
      · rw [if_neg hm] at hif
        exact Or.inl (hif ▸ ha)
  | @applied t ht =>
      rcases List.mem_map.mp hrow with ⟨a, ha, hif⟩
      rcases hb : t.bumped with _ | b
      · simp only [hb] at hif
        exact Or.inl (hif ▸ ha)
      · -- The commit installs the version that was computed when the row was locked.
        simp only [hb] at hif
        by_cases hid : (a.id == b.id) = true
        · rw [if_pos hid] at hif
          exact Or.inr (Or.inr (Or.inr (Or.inr ⟨t, ht, hif ▸ hb⟩)))
        · rw [if_neg hid] at hif
          exact Or.inl (hif ▸ ha)
  | _ => exact Or.inl hrow

/-- Where the uncommitted version of a link row comes from. -/
theorem exec_bumped_mem {s : Stmt} {r : Except DbError s.Rows}
    (h : Db.exec pg now tid s ch db = some (r, db')) {t' : ClickTx} (ht' : t' ∈ db'.txs)
    {b : LinkRow} (hb : t'.bumped = some b) :
    (∃ t ∈ db.txs, t.bumped = some b) ∨
      ∃ row ∈ db.links, b = { row with clickCount := row.clickCount + 1 } := by
  cases exec_change h with
  | begun =>
      rcases List.mem_cons.mp ht' with rfl | hmem
      · cases hb
      · exact Or.inl ⟨t', hmem, hb⟩
  | failed =>
      rcases mem_setTx ht' with ⟨hmem, _⟩ | ⟨u, _, _, rfl⟩
      · exact Or.inl ⟨t', hmem, hb⟩
      · cases hb
  | clickAdded =>
      rcases mem_setTx ht' with ⟨hmem, _⟩ | ⟨u, hu, _, rfl⟩
      · exact Or.inl ⟨t', hmem, hb⟩
      · exact Or.inl ⟨u, hu, hb⟩
  | @countBumped _ row hrow =>
      rcases mem_setTx ht' with ⟨hmem, _⟩ | ⟨u, hu, _, rfl⟩
      · exact Or.inl ⟨t', hmem, hb⟩
      · exact Or.inr ⟨row, hrow, (Option.some.inj hb).symm⟩
  -- Closing a transaction gives up rows, and bumps none.
  | closed | applied => exact Or.inl ⟨t', (List.mem_filter.mp ht').1, hb⟩
  | _ => exact Or.inl ⟨t', ht', hb⟩

end Origins

end Db

/-- A `SET` list leaves the other columns of a row alone. -/
theorem applySet_keeps {now : Nat} {values : List SqlValue} {set : List SetClause} :
    ∀ {row row' : LinkRow}, applySet now values set row = .ok row' →
      row'.id = row.id ∧ row'.clickCount = row.clickCount ∧ row'.userId = row.userId ∧
        row'.shortCode = row.shortCode := by
  induction set with
  | nil =>
      intro row row' h
      simp only [applySet, Except.ok.injEq] at h
      rw [h]
      exact ⟨rfl, rfl, rfl, rfl⟩
  | cons clause rest ih =>
      intro row row' h
      cases clause with
      | updatedAtNow =>
          have hrest : applySet now values rest { row with updatedAt := now } = .ok row' := by
            simpa only [applySet] using h
          have hkept := ih hrest
          exact hkept
      | param col n =>
          simp only [applySet] at h
          rcases hv : param values n with _ | v
          · simp only [hv, reduceCtorEq] at h
          · rcases ha : assign row col v with e | mid
            · simp only [hv, ha, reduceCtorEq] at h
            · simp only [hv, ha] at h
              -- No column that can be set is among these.
              have hmid : mid.id = row.id ∧ mid.clickCount = row.clickCount ∧
                  mid.userId = row.userId ∧ mid.shortCode = row.shortCode := by
                unfold assign at ha
                split at ha <;> first
                  | (rw [Except.ok.injEq] at ha; rw [← ha]; exact ⟨rfl, rfl, rfl, rfl⟩)
                  | exact absurd ha (by simp only [reduceCtorEq, not_false_eq_true])
              rcases ih h with ⟨h1, h2, h3, h4⟩
              exact ⟨h1.trans hmid.1, h2.trans hmid.2.1, h3.trans hmid.2.2.1, h4.trans hmid.2.2.2⟩

end ClickScope
