import Mathlib.Data.List.Forall2
import ClickScope.Core.Redirect
import ClickScope.Theory.Patch

/-!
# Swept Rows

A link row of a run with expiry sweeps, against the same row of the run
without them.

The sweep writes a column that the owner writes too, so the two rows part. They
differ in `isActive` only while the row that was not swept is dead for a reason
of its own, expired or out of clicks, and in `updatedAt`. Time and clicks keep
it dead, a write of `isActive` joins the rows again, and every statement other
than a partial update answers the same on both databases. A partial update that
leaves `isActive` alone is the one that can part them for good: the row that
was not swept is alive again, and the swept one stays deactivated.

## Main definitions

* `spent`: Expired or out of clicks.
* `SweptRow`, `SweptTx`, `SweptDb`: The swept side against the other.
* `accepted`, `revives`: The update that parts the rows.

## Theorems

* `sweptRow_dead`: The rows are dead or alive together.
* `SweptDb.insertLink`, `SweptDb.deleteLink`, `SweptDb.insertClick`,
  `SweptDb.increment`, `SweptDb.commit`: The statements.
* `SweptDb.updateLink`: A partial update that revives nothing.
* `SweptDb.sweep`: The sweep itself, on one side only.
-/

namespace ClickScope

open Async

section Lists

variable {α : Type} {R : α → α → Prop} {p q : α → Bool} {l m : List α}

/-- Related lists have related first matches. -/
theorem find_rel (h : List.Forall₂ R l m) (hp : ∀ a b, R a b → p a = q b) :
    (l.find? p = none ∧ m.find? q = none) ∨
      ∃ a b, l.find? p = some a ∧ m.find? q = some b ∧ R a b := by
  induction h with
  | nil => exact Or.inl ⟨rfl, rfl⟩
  | @cons a b l m hab _ ih =>
      by_cases hb : q b = true
      · have ha : p a = true := (hp a b hab).trans hb
        exact Or.inr ⟨a, b, List.find?_cons_of_pos ha, List.find?_cons_of_pos hb, hab⟩
      · have ha : ¬ p a = true := fun h => hb ((hp a b hab).symm.trans h)
        rw [List.find?_cons_of_neg ha, List.find?_cons_of_neg hb]
        exact ih

theorem any_rel (h : List.Forall₂ R l m) (hp : ∀ a b, R a b → p a = q b) :
    l.any p = m.any q := by
  induction h with
  | nil => rfl
  | cons hab _ ih => rw [List.any_cons, List.any_cons, hp _ _ hab, ih]

theorem filter_rel (h : List.Forall₂ R l m) (hp : ∀ a b, R a b → p a = q b) :
    List.Forall₂ R (l.filter p) (m.filter q) :=
  List.rel_filter (fun {a b} hab => by simp only [hp a b hab]) h

theorem map_rel {f g : α → α} (h : List.Forall₂ R l m) (hf : ∀ a b, R a b → R (f a) (g b)) :
    List.Forall₂ R (l.map f) (m.map g) :=
  List.rel_map (fun {a b} hab => hf a b hab) h

end Lists

/-- The dead states of a row other than deactivation. -/
def spent (now : Nat) (row : LinkRow) : Bool :=
  row.expiresAt.any (fun t => decide (t ≤ (now : Int))) ||
    row.maxClicks.any (fun n => decide (n ≤ (row.clickCount : Int)))

theorem deadStateError_isSome (now : Nat) (row : LinkRow) :
    (deadStateError now (toRedirectLink row)).isSome = (!row.isActive || spent now row) := by
  unfold deadStateError spent toRedirectLink
  rcases row.isActive with _ | _
  · rfl
  · by_cases he : row.expiresAt.any (fun t => decide (t ≤ (now : Int))) = true
    · simp only [he, Bool.true_eq_false, if_true, if_false, Option.isSome_some, Bool.or_true,
        Bool.true_or]
    · by_cases hc : row.maxClicks.any (fun n => decide (n ≤ (row.clickCount : Int))) = true
      · simp only [he, hc, Bool.true_eq_false, Bool.false_eq_true, if_true, if_false,
          Option.isSome_some, Bool.or_true]
      · simp only [he, hc, Bool.true_eq_false, Bool.false_eq_true, if_false, Option.isSome_none,
          Bool.not_true, Bool.or_self]

/-- A row of the run with sweeps, and the same row of the run without. -/
structure SweptRow (now : Nat) (r r' : LinkRow) : Prop where
  same : r = { r' with isActive := r.isActive, updatedAt := r.updatedAt }
  marked : r.isActive = r'.isActive ∨ r.isActive = false ∧ spent now r' = true

section Rows

variable {now : Nat} {r r' : LinkRow}

theorem sweptRow_refl (now : Nat) (r : LinkRow) : SweptRow now r r := ⟨rfl, Or.inl rfl⟩

theorem SweptRow.id (h : SweptRow now r r') : r.id = r'.id := by rw [h.same]
theorem SweptRow.userId (h : SweptRow now r r') : r.userId = r'.userId := by rw [h.same]
theorem SweptRow.shortCode (h : SweptRow now r r') : r.shortCode = r'.shortCode := by rw [h.same]
theorem SweptRow.expiresAt (h : SweptRow now r r') : r.expiresAt = r'.expiresAt := by rw [h.same]
theorem SweptRow.maxClicks (h : SweptRow now r r') : r.maxClicks = r'.maxClicks := by rw [h.same]
theorem SweptRow.clickCount (h : SweptRow now r r') : r.clickCount = r'.clickCount := by
  rw [h.same]
theorem SweptRow.createdAt (h : SweptRow now r r') : r.createdAt = r'.createdAt := by rw [h.same]
theorem SweptRow.passwordHash (h : SweptRow now r r') : r.passwordHash = r'.passwordHash := by
  rw [h.same]

theorem SweptRow.spent (h : SweptRow now r r') (t : Nat) : spent t r = spent t r' := by
  simp only [ClickScope.spent, h.expiresAt, h.maxClicks, h.clickCount]

theorem SweptRow.owned (h : SweptRow now r r') (id userId : String) :
    Db.ownedBy id userId r = Db.ownedBy id userId r' := by
  simp only [Db.ownedBy, h.id, h.userId]

theorem SweptRow.sees (h : SweptRow now r r') (start : Nat) :
    Db.sees now start r = Db.sees now start r' := by
  rw [Db.sees, Db.sees, h.createdAt]

/-- The rows are dead or alive together. -/
theorem sweptRow_dead (h : SweptRow now r r') :
    (deadStateError now (toRedirectLink r)).isSome
      = (deadStateError now (toRedirectLink r')).isSome := by
  rw [deadStateError_isSome, deadStateError_isSome, h.spent]
  rcases h.marked with hsame | ⟨_, hspent⟩
  · rw [hsame]
  · rw [hspent, Bool.or_true, Bool.or_true]

/-- What has expired stays expired. -/
theorem spent_later {t : Nat} (ht : now ≤ t) (h : spent now r = true) : spent t r = true := by
  unfold spent at *
  rw [Bool.or_eq_true] at *
  refine h.imp_left fun he => ?_
  rcases hexp : r.expiresAt with _ | e
  · rw [hexp] at he
    exact absurd he Bool.false_ne_true
  · rw [hexp] at he
    simp only [Option.any_some, decide_eq_true_eq] at he ⊢
    omega

theorem sweptRow_later {t : Nat} (ht : now ≤ t) (h : SweptRow now r r') : SweptRow t r r' :=
  ⟨h.same, h.marked.imp_right fun hm => ⟨hm.1, spent_later ht hm.2⟩⟩

/-- The sweep deactivates a row that is dead anyway: it was when the sweep began. -/
theorem sweptRow_deactivate {start : Nat} (hstart : start ≤ now) (h : SweptRow now r r')
    (hm : Db.sweepMatches now start r = true) : SweptRow now (Db.deactivate start r) r' := by
  refine ⟨?_, Or.inr ⟨rfl, ?_⟩⟩
  · rw [Db.deactivate, h.same]
  · rw [Db.sweepMatches, Bool.and_eq_true, Bool.and_eq_true] at hm
    have hspent : ClickScope.spent start r = true := by
      rw [ClickScope.spent, hm.1.2, Bool.true_or]
    rw [← h.spent now]
    exact spent_later hstart hspent

/-- A click leaves a row that is out of clicks so. -/
theorem sweptRow_bump (h : SweptRow now r r') :
    SweptRow now { r with clickCount := r.clickCount + 1 }
      { r' with clickCount := r'.clickCount + 1 } := by
  refine ⟨?_, h.marked.imp_right fun hm => ⟨hm.1, ?_⟩⟩
  · rw [h.same]
  · unfold ClickScope.spent at *
    rw [Bool.or_eq_true] at *
    refine hm.2.imp_right fun hc => ?_
    rcases hmax : r'.maxClicks with _ | n
    · rw [hmax] at hc
      exact absurd hc Bool.false_ne_true
    · rw [hmax] at hc
      simp only [Option.any_some, decide_eq_true_eq] at hc ⊢
      omega

/-- The update passes the checks of the server. -/
def accepted (input : UpdateLinkInput) (row : LinkRow) : Prop :=
  (setListOf input none).values.findSome? SqlValue.bindError = none ∧
    maxClicksCheck (input.maxClicks.getD row.maxClicks) = true

/-- A partial update of a row the sweep has marked that leaves `isActive`
    alone and makes the row that was not swept alive. -/
def revives (now : Nat) (input : UpdateLinkInput) (r r' : LinkRow) : Prop :=
  accepted input r' ∧ r.isActive = false ∧ r'.isActive = true ∧ input.isActive = none ∧
    spent now (patched now input none r') = false

theorem sweptRow_patched {start : Nat} {input : UpdateLinkInput} {hash : Option (Option String)}
    (h : SweptRow now r r') (hok : accepted input r') (hrev : ¬ revives now input r r') :
    SweptRow now (patched start input hash r) (patched start input hash r') := by
  refine ⟨?_, ?_⟩
  · rw [h.same]
    rfl
  · rcases hactive : input.isActive with _ | b
    · -- The update leaves `isActive` alone.
      simp only [patched, hactive, Option.getD_none]
      rcases h.marked with hsame | ⟨hoff, _⟩
      · exact Or.inl hsame
      · rcases hon : r'.isActive with _ | _
        · exact Or.inl hoff
        · refine Or.inr ⟨hoff, ?_⟩
          by_contra hlive
          exact hrev ⟨hok, hoff, hon, hactive, Bool.eq_false_of_not_eq_true hlive⟩
    · left
      simp only [patched, hactive, Option.getD_some]

/-- The update that revives a row parts the two for a visitor. -/
theorem revived_parts {input : UpdateLinkInput} {hash : Option (Option String)}
    (hrev : revives now input r r') :
    (deadStateError now (toRedirectLink (patched now input hash r))).isSome = true ∧
      (deadStateError now (toRedirectLink (patched now input hash r'))).isSome = false := by
  rcases hrev with ⟨_, hoff, hon, hactive, hlive⟩
  have hspent : spent now (patched now input hash r') = false := hlive
  rw [deadStateError_isSome, deadStateError_isSome, hspent]
  simp only [patched, hactive, Option.getD_none, hoff, hon, Bool.not_true, Bool.not_false,
    Bool.true_or, Bool.or_self, and_self]

end Rows

/-- The uncommitted work of one transaction on both sides. -/
structure SweptTx (now : Nat) (t t' : ClickTx) : Prop where
  tid : t.tid = t'.tid
  aborted : t.aborted = t'.aborted
  inserted : t.inserted = t'.inserted
  bumped : Option.Rel (SweptRow now) t.bumped t'.bumped

structure SweptDb (now : Nat) (db db' : Db) : Prop where
  users : db.users = db'.users
  clicks : db.clicks = db'.clicks
  ids : db.ids = db'.ids
  links : List.Forall₂ (SweptRow now) db.links db'.links
  txs : List.Forall₂ (SweptTx now) db.txs db'.txs

section Tables

variable {now : Nat} {db db' : Db}

theorem sweptDb_refl (now : Nat) (db : Db) : SweptDb now db db where
  users := rfl
  clicks := rfl
  ids := rfl
  links := List.forall₂_same.mpr fun r _ => sweptRow_refl now r
  txs := List.forall₂_same.mpr fun t _ => ⟨rfl, rfl, rfl, by
    cases t.bumped with
    | none => exact .none
    | some b => exact .some (sweptRow_refl now b)⟩

theorem sweptDb_later {t : Nat} (ht : now ≤ t) (h : SweptDb now db db') : SweptDb t db db' where
  users := h.users
  clicks := h.clicks
  ids := h.ids
  links := h.links.imp fun _ _ hr => sweptRow_later ht hr
  txs := h.txs.imp fun a b hab => ⟨hab.tid, hab.aborted, hab.inserted, by
    rcases a with ⟨_, _, _, ba⟩
    rcases b with ⟨_, _, _, bb⟩
    cases hab.bumped with
    | none => exact .none
    | some hr => exact .some (sweptRow_later ht hr)⟩

theorem SweptDb.rowLocked (h : SweptDb now db db') (id : String) :
    db.rowLocked id = db'.rowLocked id := by
  refine any_rel h.txs fun a b hab => ?_
  rcases a with ⟨_, _, _, ba⟩
  rcases b with ⟨_, _, _, bb⟩
  cases hab.bumped with
  | none => rfl
  | some hr => simp only [Option.any_some, hr.id]

theorem SweptDb.keyShared (h : SweptDb now db db') (id : String) :
    db.keyShared id = db'.keyShared id :=
  any_rel h.txs fun _ _ hab => by rw [hab.inserted]

theorem SweptDb.jobPending (h : SweptDb now db db') (tid : Nat) (jobId : String) :
    db.jobPending tid jobId = db'.jobPending tid jobId :=
  any_rel h.txs fun _ _ hab => by rw [hab.tid, hab.inserted]

theorem SweptDb.txOf (h : SweptDb now db db') (tid : Nat) :
    (db.txOf tid = none ∧ db'.txOf tid = none) ∨
      ∃ t t', db.txOf tid = some t ∧ db'.txOf tid = some t' ∧ SweptTx now t t' :=
  find_rel h.txs fun _ _ hab => by rw [hab.tid]

theorem SweptDb.setTx (h : SweptDb now db db') (tid : Nat) {f g : ClickTx → ClickTx}
    (hf : ∀ t t', SweptTx now t t' → SweptTx now (f t) (g t')) :
    SweptDb now (db.setTx tid f) (db'.setTx tid g) where
  users := h.users
  clicks := h.clicks
  ids := h.ids
  links := h.links
  txs := map_rel h.txs fun t t' ht => by
    rw [ht.tid]
    by_cases hid : (t'.tid == tid) = true
    · rw [if_pos hid, if_pos hid]
      exact hf t t' ht
    · rw [if_neg hid, if_neg hid]
      exact ht

theorem SweptDb.closeTx (h : SweptDb now db db') (tid : Nat) :
    SweptDb now (db.closeTx tid) (db'.closeTx tid) where
  users := h.users
  clicks := h.clicks
  ids := h.ids
  links := h.links
  txs := filter_rel h.txs fun _ _ ht => by rw [ht.tid]

theorem SweptDb.insertLink (h : SweptDb now db db') (id : String) (l : NewLink) :
    (db.insertLink now id l).1 = (db'.insertLink now id l).1 ∧
      SweptDb now (db.insertLink now id l).2 (db'.insertLink now id l).2 := by
  -- The tables have the same codes, accounts and keys, so the checks agree.
  have hcode : db.links.any (fun r => r.shortCode == l.shortCode)
      = db'.links.any (fun r => r.shortCode == l.shortCode) :=
    any_rel h.links fun _ _ hr => by rw [hr.shortCode]
  have huser : db.users.any (fun u => u.id == l.userId)
      = db'.users.any (fun u => u.id == l.userId) := by
    rw [h.users]
  have hids : id :: db.ids = id :: db'.ids := by rw [h.ids]
  have hdrawn : SweptDb now { db with ids := id :: db.ids } { db' with ids := id :: db'.ids } :=
    ⟨h.users, h.clicks, hids, h.links, h.txs⟩
  unfold Db.insertLink
  simp only [hcode, huser]
  split_ifs
  · exact ⟨rfl, h⟩
  · exact ⟨rfl, h⟩
  · exact ⟨rfl, h⟩
  · exact ⟨rfl, hdrawn⟩
  · exact ⟨rfl, hdrawn⟩
  · exact ⟨rfl, hdrawn⟩
  · refine ⟨rfl, h.users, h.clicks, hids, ?_, h.txs⟩
    exact List.rel_append h.links (.cons (sweptRow_refl now _) .nil)

theorem SweptDb.deleteLink (h : SweptDb now db db') (id userId : String) :
    Prog.Matches (SweptDb now) (db.deleteLink id userId) (db'.deleteLink id userId) := by
  unfold Db.deleteLink
  rcases uuidError id with _ | e
  · rcases find_rel h.links (fun _ _ hr => hr.owned id userId) with
      ⟨hn, hn'⟩ | ⟨r, r', hs, hs', hr⟩
    · rw [hn, hn']
      exact Prog.matches_some rfl h
    · rw [hs, hs']
      simp only [h.rowLocked, h.keyShared, hr.id, hr.shortCode]
      by_cases hlock : (db'.rowLocked r'.id || db'.keyShared r'.id) = true
      · simp only [hlock, if_true]
        exact Prog.matches_none
      · simp only [hlock, if_false, Bool.false_eq_true]
        refine Prog.matches_some rfl ⟨h.users, by rw [h.clicks], h.ids, ?_, h.txs⟩
        exact filter_rel h.links fun _ _ hr => by rw [hr.owned]
  · exact Prog.matches_some rfl h

theorem SweptDb.abortTx (h : SweptDb now db db') (tid : Nat) (e : DbError) :
    Prog.Matches (SweptDb now) (db.abortTx tid e) (db'.abortTx tid e) :=
  Prog.matches_some rfl (h.setTx tid fun _ _ ht => ⟨ht.tid, rfl, rfl, .none⟩)

theorem SweptDb.beginTx (h : SweptDb now db db') (tid : Nat) (fault : Fault) :
    (db.beginTx tid fault).1 = (db'.beginTx tid fault).1 ∧
      SweptDb now (db.beginTx tid fault).2 (db'.beginTx tid fault).2 := by
  unfold Db.beginTx
  cases fault with
  | none =>
      rcases h.txOf tid with ⟨hn, hn'⟩ | ⟨t, t', hs, hs', ht⟩
      · rw [hn, hn']
        exact ⟨rfl, h.users, h.clicks, h.ids, h.links, .cons ⟨rfl, rfl, rfl, .none⟩ h.txs⟩
      · rw [hs, hs']
        exact ⟨rfl, h⟩
  | lost | unacknowledged => exact ⟨rfl, h⟩

theorem SweptDb.insertClick (h : SweptDb now db db') (tid : Nat) (ch : Choice)
    (data : ClickJobData) :
    Prog.Matches (SweptDb now) (db.insertClick now tid ch data)
      (db'.insertClick now tid ch data) := by
  unfold Db.insertClick
  rcases h.txOf tid with ⟨hn, hn'⟩ | ⟨t, t', hs, hs', ht⟩
  · rw [hn, hn']
    exact Prog.matches_some rfl h
  · -- The sweep removes no row, so both find the link or neither does.
    have hlink : db.links.any (fun r => r.id == data.linkId)
        = db'.links.any (fun r => r.id == data.linkId) :=
      any_rel h.links fun _ _ hr => by rw [hr.id]
    rw [hs, hs']
    simp only [ht.aborted, ht.inserted, h.jobPending, h.clicks, h.ids, hlink]
    split_ifs
    · exact Prog.matches_some rfl h
    · exact Prog.matches_none
    · exact h.abortTx tid _
    · exact h.abortTx tid _
    · exact Prog.matches_none
    · exact Prog.matches_some rfl h
    · exact h.abortTx tid _
    · exact Prog.matches_none
    · have hset := h.setTx tid
        (f := fun t => { t with inserted := some (Db.newClickRow (now - ch.waited) ch.draw data) })
        (g := fun t => { t with inserted := some (Db.newClickRow (now - ch.waited) ch.draw data) })
        (fun _ _ ht => ⟨ht.tid, ht.aborted, rfl, ht.bumped⟩)
      exact Prog.matches_some rfl ⟨hset.users, hset.clicks, rfl, hset.links, hset.txs⟩

theorem SweptDb.increment (h : SweptDb now db db') (tid : Nat) (ch : Choice) (linkId : String) :
    Prog.Matches (SweptDb now) (db.incrementClickCount tid ch linkId)
      (db'.incrementClickCount tid ch linkId) := by
  unfold Db.incrementClickCount
  rcases h.txOf tid with ⟨hn, hn'⟩ | ⟨t, t', hs, hs', ht⟩
  · rw [hn, hn']
    exact Prog.matches_some rfl h
  · -- Both transactions have bumped a row, or neither has.
    have hbumped : t.bumped.isSome = t'.bumped.isSome := by
      rcases t with ⟨_, _, _, bt⟩
      rcases t' with ⟨_, _, _, bt'⟩
      cases ht.bumped <;> rfl
    rw [hs, hs']
    simp only [ht.aborted, hbumped]
    split_ifs
    · exact Prog.matches_some rfl h
    · exact Prog.matches_none
    · exact h.abortTx tid _
    · rcases find_rel h.links (p := fun r => r.id == linkId) (q := fun r => r.id == linkId)
        (fun _ _ hr => by rw [hr.id]) with ⟨hn, hn'⟩ | ⟨r, r', hs, hs', hr⟩
      · rw [hn, hn']
        exact Prog.matches_some rfl h
      · rw [hs, hs']
        simp only [h.rowLocked, hr.id, hr.clickCount]
        split_ifs
        · exact Prog.matches_none
        · exact h.abortTx tid _
        · refine Prog.matches_some rfl (h.setTx tid fun _ _ ht =>
            ⟨ht.tid, ht.aborted, ht.inserted, .some ?_⟩)
          -- The new version keeps the flag of the row it was made from.
          have hb := sweptRow_bump hr
          simp only [hr.id, hr.clickCount] at hb
          exact hb

theorem SweptDb.applyTx (h : SweptDb now db db') {t t' : ClickTx} (ht : SweptTx now t t') :
    SweptDb now (db.applyTx t) (db'.applyTx t') where
  users := h.users
  clicks := by
    simp only [Db.applyTx, h.clicks, ht.inserted]
  ids := h.ids
  links := map_rel h.links fun r r' hr => by
    rcases t with ⟨_, _, _, bt⟩
    rcases t' with ⟨_, _, _, bt'⟩
    cases ht.bumped with
    | none => exact hr
    | @some b b' hb =>
        simp only [hr.id, hb.id]
        by_cases hid : (r'.id == b'.id) = true
        · rw [if_pos hid, if_pos hid]
          exact hb
        · rw [if_neg hid, if_neg hid]
          exact hr
  txs := h.txs

theorem SweptDb.commitTx (h : SweptDb now db db') (tid : Nat) (fault : Fault) :
    (db.commitTx tid fault).1 = (db'.commitTx tid fault).1 ∧
      SweptDb now (db.commitTx tid fault).2 (db'.commitTx tid fault).2 := by
  unfold Db.commitTx
  rcases h.txOf tid with ⟨hn, hn'⟩ | ⟨t, t', hs, hs', ht⟩
  · rw [hn, hn']
    exact ⟨rfl, h⟩
  · rw [hs, hs']
    -- The work of an aborted transaction is dropped on both sides.
    have happly : SweptDb now (if t.aborted then db else db.applyTx t)
        (if t'.aborted then db' else db'.applyTx t') := by
      rw [ht.aborted]
      by_cases hab : t'.aborted = true
      · rw [if_pos hab, if_pos hab]
        exact h
      · rw [if_neg hab, if_neg hab]
        exact h.applyTx ht
    cases fault with
    | none | unacknowledged => exact ⟨rfl, happly.closeTx tid⟩
    | lost => exact ⟨rfl, h.closeTx tid⟩

theorem SweptDb.rollbackTx (h : SweptDb now db db') (tid : Nat) (fault : Fault) :
    (db.rollbackTx tid fault).1 = (db'.rollbackTx tid fault).1 ∧
      SweptDb now (db.rollbackTx tid fault).2 (db'.rollbackTx tid fault).2 := by
  unfold Db.rollbackTx
  cases fault with
  | none | lost | unacknowledged => exact ⟨rfl, h.closeTx tid⟩

/-- The sweep on one side only. -/
theorem SweptDb.sweep (h : SweptDb now db db') {start n : Nat} {swept : Db} (hstart : start ≤ now)
    (hs : db.sweepExpired now start = some (n, swept)) : SweptDb now swept db' := by
  unfold Db.sweepExpired at hs
  split_ifs at hs
  simp only [Option.some.injEq, Prod.mk.injEq] at hs
  rcases hs with ⟨_, rfl⟩
  refine ⟨h.users, h.clicks, h.ids, ?_, h.txs⟩
  rw [List.forall₂_map_left_iff]
  refine h.links.imp fun r r' hr => ?_
  by_cases hm : Db.sweepMatches now start r = true
  · rw [if_pos hm]
    exact sweptRow_deactivate hstart hr hm
  · rw [if_neg hm]
    exact hr

/-- The partial update of `linkId` by `userId` finds a row it revives. -/
def Revives (now : Nat) (userId linkId : String) (input : UpdateLinkInput) (db db' : Db) : Prop :=
  ∃ r r', db.links.find? (Db.ownedBy linkId userId) = some r ∧
    db'.links.find? (Db.ownedBy linkId userId) = some r' ∧ revives now input r r'

/-- The outcomes of a partial update: rows with the same codes, on databases
    related again. -/
def SweptUpdate (now : Nat) :
    Option (Except DbError (List LinkRow) × Db) → Option (Except DbError (List LinkRow) × Db) → Prop
  | none, none => True
  | some (.ok rows, db), some (.ok rows', db') =>
      rows.map (·.shortCode) = rows'.map (·.shortCode) ∧ SweptDb now db db'
  | some (.error e, db), some (.error e', db') => e = e' ∧ SweptDb now db db'
  | _, _ => False

/-- The statement `updateLink` assembles, when it revives nothing. -/
theorem SweptDb.updateLink (h : SweptDb now db db') (start : Nat) {userId linkId : String}
    {input : UpdateLinkInput} (hash : Option (Option String))
    (hrev : ¬ Revives now userId linkId input db db') :
    SweptUpdate now
      (db.updateLink now start ((setListOf input hash).setClauses ++ [.updatedAtNow])
        (((setListOf input hash).values ++ [SqlValue.uuid linkId, .account userId]).length - 1)
        ((setListOf input hash).values ++ [SqlValue.uuid linkId, .account userId]).length
        ((setListOf input hash).values ++ [SqlValue.uuid linkId, .account userId]))
      (db'.updateLink now start ((setListOf input hash).setClauses ++ [.updatedAtNow])
        (((setListOf input hash).values ++ [SqlValue.uuid linkId, .account userId]).length - 1)
        ((setListOf input hash).values ++ [SqlValue.uuid linkId, .account userId]).length
        ((setListOf input hash).values ++ [SqlValue.uuid linkId, .account userId])) := by
  have hids := param_ids (setListOf input hash).values linkId userId
  unfold Db.updateLink
  rcases hbind : ((setListOf input hash).values ++
    [SqlValue.uuid linkId, .account userId]).findSome? SqlValue.bindError with _ | e
  · simp only [hids.1, hids.2, applySet_setListOf]
    rcases find_rel h.links (fun _ _ hr => hr.owned linkId userId) with
      ⟨hn, hn'⟩ | ⟨r, r', hs, hs', hr⟩
    · rw [hn, hn']
      exact ⟨rfl, h⟩
    · have hmax :
          (patched start input hash r).maxClicks = (patched start input hash r').maxClicks := by
        simp only [patched, hr.maxClicks]
      have hcode :
          (patched start input hash r).shortCode = (patched start input hash r').shortCode :=
        hr.shortCode
      rw [hs, hs']
      simp only [h.rowLocked, hr.id, hr.sees, hmax]
      split_ifs with hlock hcheck
      · trivial
      · exact ⟨rfl, h⟩
      · -- The statement passed, so the update was accepted.
        have hok : accepted input r' := by
          rw [setListOf_values, List.append_assoc, List.findSome?_append, Option.or_eq_none_iff]
            at hbind
          exact ⟨hbind.1, Bool.eq_true_of_not_eq_false hcheck⟩
        have hpatched : SweptRow now (patched start input hash r) (patched start input hash r') :=
          sweptRow_patched hr hok (fun hrv => hrev ⟨r, r', hs, hs', hrv⟩)
        refine ⟨congrArg (fun c => [c]) hcode, h.users, h.clicks, h.ids, ?_, h.txs⟩
        refine map_rel h.links fun a b hab => ?_
        rw [hab.owned]
        by_cases ho : Db.ownedBy linkId userId b = true
        · rw [if_pos ho, if_pos ho]
          exact hpatched
        · rw [if_neg ho, if_neg ho]
          exact hab
  · exact ⟨rfl, h⟩

end Tables

end ClickScope
