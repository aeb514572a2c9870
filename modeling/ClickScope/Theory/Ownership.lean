import ClickScope.Theory.Authorization
import ClickScope.Theory.KeptRows

/-!
# Ownership

Where the links in the table come from, and where they go.

Every link was written, as it is, by a statement of its owner. Since then the
jobs have counted its clicks, and the sweep has deactivated it if it has
expired. Every link that was ever written is there until a statement of its
owner deletes it. With what is known of statements, all of this was asked for by
requests that carried a session token of the owner.

## Main definitions

* `wroteRow`, `deletedLink`: What a statement wrote or deleted.
* `OwnedInv`: The invariant of the calls.

## Theorems

* `ownedInv_db`: Every statement keeps it.
* `links_by_owners`: The links of a run of the server.
-/

namespace ClickScope

open Async

/-- The version of a row a statement wrote. -/
def wroteRow : (op : Op) → op.Res → Option LinkRow
  | .db (.insertLink _), .ok [row] => some row
  | .db (.updateLink _ _ _ _), .ok [row] => some row
  | _, _ => none

/-- The id of the link a statement deleted, and the account it did so for. -/
def deletedLink : (op : Op) → op.Res → Option (String × String)
  | .db (.deleteLink _ userId), .ok [(id, _)] => some (id, userId)
  | _, _ => none

/-- The account an operation acts for. -/
def Op.actsFor : Op → Option String
  | .db s => s.actsFor
  | _ => none

/-- The row has been there from the start, or was written for its owner. -/
def Written (w₀ : World) (st : Hist) (row : LinkRow) : Prop :=
  (∃ r ∈ w₀.db.links, KeptRow st.world.now r row) ∨
  ∃ e ∈ st.log, ∃ r, wroteRow e.op e.res = some r ∧ e.op.actsFor = some row.userId ∧
    KeptRow st.world.now r row

/-- The link is there, or was deleted for its owner. -/
def Remains (st : Hist) (r : LinkRow) : Prop :=
  (∃ r' ∈ st.world.db.links, r'.id = r.id ∧ r'.userId = r.userId) ∨
  ∃ e ∈ st.log, deletedLink e.op e.res = some (r.id, r.userId) ∧ e.op.actsFor = some r.userId

structure OwnedInv (w₀ : World) (st : Hist) : Prop where
  table : TableOk st.world.db
  written : ∀ row ∈ st.world.db.links, Written w₀ st row
  remains : ∀ r, (r ∈ w₀.db.links ∨ ∃ e ∈ st.log, wroteRow e.op e.res = some r) → Remains st r

section Rows

variable {now now' : Nat} {a b c : LinkRow}

theorem keptRow_later (hle : now ≤ now') (h : KeptRow now a b) : KeptRow now' a b :=
  ⟨h.same, h.active.imp_right (fun ha => ⟨ha.1, expired_later hle ha.2⟩)⟩

theorem keptRow_trans (h : KeptRow now a b) (h' : KeptRow now b c) : KeptRow now a c := by
  refine ⟨by rw [h'.same, h.same], ?_⟩
  have hexp := h.expired now
  rcases h'.active with hsame | ⟨hoff, hexpired⟩
  · rw [hsame]
    exact h.active
  · exact Or.inr ⟨hoff, hexp ▸ hexpired⟩

theorem KeptRow.userId (h : KeptRow now a b) : b.userId = a.userId := by rw [h.same]

end Rows

section Steps

variable {P : Platform} {w₀ : World} {st : Hist} {i : Nat} {call : Call} {op : Op} {ch : Choice}
  {r : op.Res} {w : World}

/-- A row that was written, and has only been counted or swept since. -/
theorem Written.kept {row row' : LinkRow} (h : Written w₀ st row)
    (hk : KeptRow st.world.now row row') (hnow : st.world.now = w.now) :
    Written w₀ (st.push i call op ch r w) row' := by
  rcases h with ⟨r₀, hr₀, hold⟩ | ⟨e, he, r₀, hwrote, hacts, hold⟩
  · exact Or.inl ⟨r₀, hr₀, hnow ▸ keptRow_trans hold hk⟩
  · refine Or.inr ⟨e, List.mem_cons_of_mem _ he, r₀, hwrote, ?_, hnow ▸ keptRow_trans hold hk⟩
    rw [hk.userId]
    exact hacts

/-- The row a statement has just written. -/
theorem written_now {row : LinkRow} (hwrote : wroteRow op r = some row)
    (hacts : op.actsFor = some row.userId) : Written w₀ (st.push i call op ch r w) row :=
  Or.inr ⟨_, List.mem_cons_self, row, hwrote, hacts, keptRow_refl _ row⟩

/-- What has to be known of a step: the rows there are have been written, and
    those that were there still are, or were deleted. -/
theorem ownedInv_step (h : OwnedInv w₀ st) (htable : TableOk w.db)
    (hwritten : ∀ row ∈ w.db.links, Written w₀ (st.push i call op ch r w) row)
    (hstill : ∀ y ∈ st.world.db.links,
      (∃ y' ∈ w.db.links, y'.id = y.id ∧ y'.userId = y.userId) ∨
        (deletedLink op r = some (y.id, y.userId) ∧ op.actsFor = some y.userId))
    (hwrote : ∀ x, wroteRow op r = some x → x ∈ w.db.links) :
    OwnedInv w₀ (st.push i call op ch r w) where
  table := htable
  written := hwritten
  remains := by
    intro x hx
    have hold : Remains st x → Remains (st.push i call op ch r w) x := by
      rintro (⟨y, hy, hid, huser⟩ | ⟨e, he, hgone⟩)
      · rcases hstill y hy with ⟨y', hy', hid', huser'⟩ | hgone
        · exact Or.inl ⟨y', hy', hid'.trans hid, huser'.trans huser⟩
        · rw [hid, huser] at hgone
          exact Or.inr ⟨_, List.mem_cons_self, hgone⟩
      · exact Or.inr ⟨e, List.mem_cons_of_mem _ he, hgone⟩
    rcases hx with hx | ⟨e, he, hwr⟩
    · exact hold (h.remains x (Or.inl hx))
    · rcases List.mem_cons.mp he with rfl | he
      · exact Or.inl ⟨x, hwrote x hwr, rfl, rfl⟩
      · exact hold (h.remains x (Or.inr ⟨e, he, hwr⟩))

/-- A step that rewrites rows in place, and keeps whose they are. -/
theorem ownedInv_map {f : LinkRow → LinkRow} (h : OwnedInv w₀ st) (htable : TableOk w.db)
    (hlinks : w.db.links = st.world.db.links.map f)
    (hsame : ∀ x ∈ st.world.db.links, (f x).id = x.id ∧ (f x).userId = x.userId)
    (hwritten : ∀ x ∈ st.world.db.links, Written w₀ (st.push i call op ch r w) (f x))
    (hwrote : ∀ x, wroteRow op r = some x → x ∈ w.db.links) :
    OwnedInv w₀ (st.push i call op ch r w) := by
  refine ownedInv_step h htable (fun row hrow => ?_) (fun y hy => Or.inl ⟨f y, ?_, hsame y hy⟩)
    hwrote
  · rw [hlinks] at hrow
    rcases List.mem_map.mp hrow with ⟨x, hx, rfl⟩
    exact hwritten x hx
  · rw [hlinks]
    exact List.mem_map_of_mem hy

/-- A step that leaves the links alone writes no row and deletes none. -/
theorem ownedInv_kept (h : OwnedInv w₀ st) (htable : TableOk w.db) (hnow : st.world.now = w.now)
    (hkept : KeptDb st.world.now st.world.db w.db) (hwrote : wroteRow op r = none) :
    OwnedInv w₀ (st.push i call op ch r w) := by
  rcases hkept with ⟨f, hlinks, hf⟩
  refine ownedInv_map h htable hlinks (fun x hx => ⟨(hf x hx).id, (hf x hx).userId⟩)
    (fun x hx => (h.written x hx).kept (hf x hx) hnow) fun x hx => ?_
  rw [hwrote] at hx
  cases hx

theorem ownedInv_insertLink {l : NewLink} {ans : Except DbError (List LinkRow)} {db : Db}
    (h : OwnedInv w₀ st)
    (hx : st.world.db.exec P.pg st.world.now i (.insertLink l) ch = some (ans, db)) :
    OwnedInv w₀ (st.push i call (.db (.insertLink l)) ch ans { st.world with db := db }) := by
  have htable := (insertLink_tableOk h.table hx).1
  rcases Db.insertLink_inv hx with ⟨_, ⟨rfl, _, rfl⟩ | ⟨e, rfl, ⟨ids, _, rfl⟩, _⟩⟩
  · refine ownedInv_step h htable (fun row hrow => ?_)
      (fun y hy => Or.inl ⟨y, List.mem_append_left _ hy, rfl, rfl⟩) fun x hwr => ?_
    · rcases List.mem_append.mp hrow with hold | hnew
      · exact (h.written row hold).kept (keptRow_refl _ row) rfl
      · rw [List.mem_singleton.mp hnew]
        exact written_now rfl rfl
    · cases hwr
      exact List.mem_append_right _ (List.mem_singleton_self _)
  · exact ownedInv_kept h htable rfl (keptDb_same rfl) rfl

theorem ownedInv_updateLink {set : List SetClause} {a u : Nat} {values : List SqlValue}
    {ans : Except DbError (List LinkRow)} {db : Db} (h : OwnedInv w₀ st)
    (hx : st.world.db.exec P.pg st.world.now i (.updateLink set a u values) ch = some (ans, db)) :
    OwnedInv w₀
      (st.push i call (.db (.updateLink set a u values)) ch ans { st.world with db := db }) := by
  have htable := (updateLink_tableOk h.table hx).1
  rcases Db.updateLink_inv hx with ⟨e, rfl, rfl⟩ | ⟨rfl, rfl⟩ |
    ⟨id, userId, row, row', _, huser, _, hfind, _, _, hset, _, rfl, rfl⟩
  · exact ownedInv_kept h htable rfl (keptDb_same rfl) rfl
  · exact ownedInv_kept h htable rfl (keptDb_same rfl) rfl
  · rcases applySet_keeps hset with ⟨hid, _, howner, _⟩
    -- The condition names the owner, and only the one row satisfies it.
    have hrow : ∀ x ∈ st.world.db.links, Db.ownedBy id userId x = true → x = row := fun x hx' ho =>
      (Db.ownedBy_found h.table.ids hfind hx').mp ho
    have hown := (Db.ownedBy_iff.mp (List.find?_some hfind)).2
    have hacts : (Op.db (.updateLink set a u values)).actsFor = some row'.userId := by
      simp only [Op.actsFor, Stmt.actsFor, huser, howner, hown]
    refine ownedInv_map h htable rfl (fun x hx' => ?_) (fun x hx' => ?_) fun x hx' => ?_
    · by_cases ho : Db.ownedBy id userId x = true
      · rw [if_pos ho, hrow x hx' ho]
        exact ⟨hid, howner⟩
      · rw [if_neg ho]
        exact ⟨rfl, rfl⟩
    · by_cases ho : Db.ownedBy id userId x = true
      · rw [if_pos ho]
        exact written_now rfl hacts
      · rw [if_neg ho]
        exact (h.written x hx').kept (keptRow_refl _ x) rfl
    · cases hx'
      exact List.mem_map.mpr ⟨row, List.mem_of_find?_eq_some hfind, if_pos (List.find?_some hfind)⟩

theorem ownedInv_deleteLink {id userId : String} {ans : Except DbError (List (String × String))}
    {db : Db} (h : OwnedInv w₀ st)
    (hx : st.world.db.exec P.pg st.world.now i (.deleteLink id userId) ch = some (ans, db)) :
    OwnedInv w₀
      (st.push i call (.db (.deleteLink id userId)) ch ans { st.world with db := db }) := by
  have htable := (deleteLink_tableOk h.table hx).1
  rcases Db.deleteLink_inv hx with ⟨e, _, rfl, rfl⟩ | ⟨_, rfl, rfl⟩ |
    ⟨row, hfind, _, _, rfl, rfl⟩
  · exact ownedInv_kept h htable rfl (keptDb_same rfl) rfl
  · exact ownedInv_kept h htable rfl (keptDb_same rfl) rfl
  · have hfound := Db.ownedBy_iff.mp (List.find?_some hfind)
    refine ownedInv_step h htable (fun x hx' => (h.written x (List.mem_filter.mp hx').1).kept
      (keptRow_refl _ x) rfl) (fun y hy => ?_) fun x hwr => (by cases hwr)
    by_cases ho : Db.ownedBy id userId y = true
    · -- This is the link that is deleted now.
      rcases Db.ownedBy_iff.mp ho with ⟨hid, huser⟩
      refine Or.inr ⟨?_, ?_⟩
      · show some (row.id, userId) = some (y.id, y.userId)
        rw [Option.some.inj (hfound.1.symm.trans hid), huser]
      · show some userId = some y.userId
        rw [huser]
    · refine Or.inl ⟨y, List.mem_filter.mpr ⟨hy, ?_⟩, rfl, rfl⟩
      rw [Bool.not_eq_true', Bool.eq_false_iff]
      exact ho

/-- Every operation keeps the invariant. -/
theorem ownedInv_push (h : OwnedInv w₀ st) (hx : exec P i op ch st.world = some (r, w)) :
    OwnedInv w₀ (st.push i call op ch r w) := by
  by_cases hs : ∀ s, op ≠ .db s
  · have hdb := exec_db_eq hs hx
    refine ownedInv_kept h (by rw [hdb]; exact h.table) (exec_now_eq hx).symm
      (keptDb_same (by rw [hdb])) ?_
    cases op with
    | db s => exact absurd rfl (hs s)
    | _ => rfl
  · push Not at hs
    rcases hs with ⟨s, rfl⟩
    rcases exec_db_inv hx with ⟨db, hdb, rfl⟩
    cases s with
    | insertLink l => exact ownedInv_insertLink h hdb
    | updateLink set a u values => exact ownedInv_updateLink h hdb
    | deleteLink id userId => exact ownedInv_deleteLink h hdb
    | _ =>
        rcases exec_kept rfl h.table hdb with ⟨hkept, htable⟩
        exact ownedInv_kept h htable rfl hkept rfl

end Steps

section Runs

variable {P : Platform} {w₀ : World} {c : Site}

theorem tableOk_closeTx {db : Db} (h : TableOk db) (tid : Nat) : TableOk (db.closeTx tid) :=
  ⟨h.ids, h.codes, h.drawn, fun t ht b hb => h.bumped t (List.mem_filter.mp ht).1 b hb⟩

theorem run_owned (h₀ : TableOk w₀.db) (hc : Run (clickScope P) Policy.free w₀ c) :
    OwnedInv w₀ c.state := by
  refine run_state_in ?_ ?_ ?_ ?_ hc
  · refine ⟨h₀, fun row hrow => Or.inl ⟨row, hrow, keptRow_refl _ row⟩, fun r hr => ?_⟩
    rcases hr with hr | ⟨e, he, _⟩
    · exact Or.inl ⟨r, hr, rfl, rfl⟩
    · cases he
  · exact fun d i t op k ch r w _ _ _ _ h hx => ownedInv_push h hx
  · intro d e w _ h hw
    rcases env_inv hw with ⟨ms, rfl⟩
    refine ⟨h.table, fun row hrow => ?_, h.remains⟩
    rcases h.written row hrow with ⟨r, hr, hk⟩ | ⟨e, he, r, hwrote, hacts, hk⟩
    · exact Or.inl ⟨r, hr, keptRow_later (Nat.le_add_right _ _) hk⟩
    · exact Or.inr ⟨e, he, r, hwrote, hacts, keptRow_later (Nat.le_add_right _ _) hk⟩
  · exact fun d i _ h => ⟨tableOk_closeTx h.table i, h.written, h.remains⟩

end Runs

/-- The links there are were written for their owners by authorized requests, up
    to what the jobs do to a row, and the links that ever were are there, or were
    deleted for their owners by authorized requests. -/
structure LinksByOwners (D : Deployment) (w₀ : ServerWorld) (c : ServerSite) : Prop where
  written : ∀ row ∈ c.state.world.app.db.links,
    (∃ r ∈ w₀.app.db.links, KeptRow c.state.world.app.now r row) ∨
    ∃ e ∈ c.state.log, ∃ r, ofApi wroteRow e.op e.res = some r ∧
      KeptRow c.state.world.app.now r row ∧ Authorized D c e row.userId
  remain : ∀ r, (r ∈ w₀.app.db.links ∨ ∃ e ∈ c.state.log, ofApi wroteRow e.op e.res = some r) →
    (∃ r' ∈ c.state.world.app.db.links, r'.id = r.id ∧ r'.userId = r.userId) ∨
    ∃ e ∈ c.state.log, ofApi deletedLink e.op e.res = some (r.id, r.userId) ∧
      Authorized D c e r.userId

section Server

variable {D : Deployment} {w₀ : ServerWorld} {c : ServerSite} {d : Site}
  {asked : Nat → Option Ask} {choose : Nat → Call} {l : List ServerEvent}

/-- What happened behind for an account, an authorized request did. -/
theorem authorized_front (hc : Run (server D) (unforgedBearers D.P) w₀ c)
    (hd : Run (clickScope D.P) Policy.free w₀.app d)
    (hf : Forward (front D) (asksOf D) (RefusedWork D) asked l c)
    (hb : Behind (front D) asked choose l c d) {e' : Ev} (he' : e' ∈ d.state.log)
    {userId : String} (hacts : e'.op.actsFor = some userId) :
    ∃ e ∈ c.state.log, (front D).Echo e e' ∧ Authorized D c e userId := by
  rcases echo_front hb.echo e' he' with ⟨e, he, hecho⟩
  refine ⟨e, hf.sub.subset he, hecho, ?_⟩
  cases hop : e'.op with
  | db s =>
      rw [hop] at hacts
      exact authorized_of_behind hc hd hf hb he he' hecho hop hacts
  | _ =>
      rw [hop] at hacts
      cases hacts

/-- Only operations of calls write rows. -/
theorem wroteRow_not_own {op : HttpOp} {ans : op.Res} {r : LinkRow}
    (h : ofApi wroteRow op ans = some r) : ¬ ownOp op := by
  cases op with
  | api op =>
      intro hown
      obtain rfl : op = .dateNow := hown
      cases h
  | _ => cases h

theorem links_by_owners (D : Deployment) (w₀ : ServerWorld) (h₀ : TableOk w₀.app.db)
    (c : ServerSite) (hc : Run (server D) (unforgedBearers D.P) w₀ c) : LinksByOwners D w₀ c := by
  rcases exists_behind (F := front D) (work_fronted D) hc with ⟨asked, l, hf, hbehind⟩
  rcases hbehind (fun _ => .sweepExpiredLinks) (fun _ => rfl) with ⟨d, hd, hb⟩
  have hworld : d.state.world = c.state.world.app := hb.world
  have howned := run_owned h₀ hd
  refine ⟨fun row hrow => ?_, fun r hr => ?_⟩
  · rw [← hworld] at hrow ⊢
    rcases howned.written row hrow with hold | ⟨e', he', r, hwrote, hacts, hkept⟩
    · exact Or.inl hold
    · rcases authorized_front hc hd hf hb he' hacts with ⟨e, he, hecho, hauth⟩
      exact Or.inr ⟨e, he, r, (ofApi_echo hecho).trans hwrote, hkept, hauth⟩
  · have hr' : r ∈ w₀.app.db.links ∨ ∃ e' ∈ d.state.log, wroteRow e'.op e'.res = some r := by
      refine hr.imp_right fun ⟨e, he, hwrote⟩ => ?_
      have hel := (hf.own e he).resolve_right (wroteRow_not_own hwrote)
      rcases echo_behind hb.echo e hel with ⟨e', he', hecho⟩
      exact ⟨e', he', (ofApi_echo hecho).symm.trans hwrote⟩
    rw [← hworld]
    rcases howned.remains r hr' with hthere | ⟨e', he', hdeleted, hacts⟩
    · exact Or.inl hthere
    · rcases authorized_front hc hd hf hb he' hacts with ⟨e, he, hecho, hauth⟩
      exact Or.inr ⟨e, he, (ofApi_echo hecho).trans hdeleted, hauth⟩

/-- A request for a new link. -/
def createRequest : Incoming :=
  { signupRequest with
    path := "/api/links", originalUrl := "/api/links"
    body := some ("\x7b\"destinationUrl\":\"https://a.example/\"\x7d".toList.map
              (fun c => UInt8.ofNat c.toNat)) }

theorem tableOk_empty (db : Db) (hlinks : db.links = []) (htxs : db.txs = []) : TableOk db := by
  refine ⟨?_, ?_, ?_, ?_⟩
  · rw [hlinks]
    exact List.Pairwise.nil
  · rw [UniqueCodes, hlinks]
    exact List.Pairwise.nil
  · rw [hlinks]
    exact fun r hr => by cases hr
  · rw [htxs]
    exact fun t ht => by cases ht

/-- Somebody signs up and creates a link with the session token. -/
theorem links_by_owners_created : ∃ c : ServerSite,
    Run (server signInDeployment) (unforgedBearers signInDeployment.P) sampleServerWorld c ∧
    c.state.world.app.db.links.map (fun r => (r.id, r.userId)) = [("l", "1")] ∧
    LinksByOwners signInDeployment sampleServerWorld c := by
  have hrun := exists_run_of (server signInDeployment) (unforgedBearers signInDeployment.P)
    sampleServerWorld bearsIssued (bearsIssued_permits _)
    [.spawn (.request (bareRequest signupRequest)), .run 0 {}, .run 0 {}, .run 0 {}, .run 0 {},
      .run 0 {}, .run 0 { draw := "1" }, .run 0 {},
      .spawn (.request { bareRequest createRequest with authorization := some "Bearer t" }),
      .run 1 {}, .run 1 {}, .run 1 {}, .run 1 {}, .run 1 { draw := "abcdefg" },
      .run 1 { draw := "l" }]
    (fun c => decide (c.state.world.app.db.links.map (fun r => (r.id, r.userId)) = [("l", "1")]))
    (by decide +kernel)
  rcases hrun with ⟨c, hc, hp⟩
  exact ⟨c, hc, of_decide_eq_true hp, links_by_owners signInDeployment sampleServerWorld
    (tableOk_empty _ rfl rfl) c hc⟩

end Server

end ClickScope
