import ClickScope.Async.Meets
import ClickScope.Core.Server
import ClickScope.Iso.Datetime
import ClickScope.Theory.Integrity
import ClickScope.Theory.Patch

/-!
# Standards of What Is Stored

What rows are like as long as everything that is written was checked.

A standard says what the texts and times of a row are like: its ids, its email
or its destination, and the instants it records. It asks for no more than the
schemas of the requests ensure, so that what a handler writes after validation
is up to it. The rest comes from outside: ids are drawn by the database, the
email of a Google account is Google's, and the clock is what it is. An
environment is credible if these are up to the standard as well.

In a credible environment the statements keep the rows up to the standard, and
answer with such rows, as long as they are given what is up to it. This is the
agreement on which the handlers rely.

## Main definitions

* `Standard`: What texts and times are like.
* `ShownUser`, `ShownLink`, `DbShown`: Records and tables up to a standard.
* `agreed`, `agreedHttp`: The agreement on operations.
* `credible`: What the environment contributes.

## Theorems

* `exec_shown`: A statement does its side of the agreement.
* `server_honours`: So does the server.
-/

namespace ClickScope

open Async Zod

/-- What ids, emails, destinations and recorded times are like. It is not more
    than the schemas of the requests ensure. -/
structure Standard (H : Host) where
  uuid : String → Prop
  email : String → Prop
  url : String → Prop
  instant : Nat → Prop
  expiry : Int → Prop
  uuid_checked : ∀ s, H.isUuid s = true → uuid s
  email_checked : ∀ s, H.isEmail s = true → email s
  url_checked : ∀ s, (H.urlProtocol s).isSome = true → url s
  instant_before : ∀ t t', t' ≤ t → instant t → instant t'
  expiry_future : ∀ t : Int, 0 < t → expiry t

/-- A standard that asks for nothing. -/
def anyStandard (H : Host) : Standard H :=
  { uuid := fun _ => True, email := fun _ => True, url := fun _ => True, instant := fun _ => True,
    expiry := fun _ => True, uuid_checked := fun _ _ => trivial,
    email_checked := fun _ _ => trivial, url_checked := fun _ _ => trivial,
    instant_before := fun _ _ _ _ => trivial, expiry_future := fun _ _ => trivial }

/-- The standard of the schemas themselves, with times from the epoch to the end
    of the year 9999. -/
def checkedStandard (H : Host) : Standard H :=
  { uuid := fun s => H.isUuid s = true, email := fun s => H.isEmail s = true,
    url := fun s => (H.urlProtocol s).isSome = true,
    instant := fun t => (t : Int) ≤ Iso.LAST_INSTANT, expiry := fun t => 0 ≤ t,
    uuid_checked := fun _ h => h, email_checked := fun _ h => h, url_checked := fun _ h => h,
    instant_before := fun _ _ hle h => (Int.ofNat_le.mpr hle).trans h,
    expiry_future := fun _ h => h.le }

section Rows

variable {H : Host}

/-- An account as it is shown, up to a standard. -/
structure ShownUser (S : Standard H) (u : AuthUser) : Prop where
  id : S.uuid u.id
  email : S.email u.email
  createdAt : S.instant u.createdAt
  updatedAt : S.instant u.updatedAt

/-- A link as it is shown, up to a standard. -/
structure ShownLink (S : Standard H) (l : Link) : Prop where
  id : S.uuid l.id
  userId : S.uuid l.userId
  destinationUrl : S.url l.destinationUrl
  expiresAt : ∀ t, l.expiresAt = some t → S.expiry t
  createdAt : S.instant l.createdAt
  updatedAt : S.instant l.updatedAt

/-- Tables whose rows are up to a standard, and transactions that will keep them
    so. -/
structure DbShown (S : Standard H) (db : Db) : Prop where
  users : ∀ u ∈ db.users, ShownUser S (toAuthUser u)
  links : ∀ l ∈ db.links, ShownLink S (toLink l)
  bumped : ∀ t ∈ db.txs, ∀ b, t.bumped = some b → ShownLink S (toLink b)

theorem dbShown_empty (S : Standard H) {db : Db}
    (h : db = { users := [], links := [], clicks := [], txs := [], ids := [] }) : DbShown S db := by
  subst h
  exact ⟨fun u hu => (by cases hu), fun l hl => (by cases hl), fun t ht => by cases ht⟩

end Rows

section Agreements

variable {H : Host} (S : Standard H)

/-- What a statement may be given. An update may not take a row below the
    standard. -/
def asksStmt : Stmt → Prop
  | .insertUser u => S.email u.email
  | .insertLink l => S.url l.destinationUrl ∧ ∀ t, l.expiresAt = some t → S.expiry t
  | .updateLink set _ _ values => ∀ now row row', S.instant now → ShownLink S (toLink row) →
      applySet now values set row = .ok row' → ShownLink S (toLink row')
  | _ => True

/-- What the rows are like that a statement answers with. -/
def rowsShown : (s : Stmt) → s.Rows → Prop
  | .userByEmail _, rows => ∀ u ∈ rows, ShownUser S (toAuthUser u)
  | .userByOAuth _ _, rows => ∀ u ∈ rows, ShownUser S (toAuthUser u)
  | .userById _, rows => ∀ u ∈ rows, ShownUser S (toAuthUser u)
  | .insertUser _, rows => ∀ u ∈ rows, ShownUser S (toAuthUser u)
  | .insertLink _, rows => ∀ l ∈ rows, ShownLink S (toLink l)
  | .listLinks _ _ _, rows => ∀ l ∈ rows, ShownLink S (toLink l)
  | .linkById _ _, rows => ∀ l ∈ rows, ShownLink S (toLink l)
  | .updateLink _ _ _ _, rows => ∀ l ∈ rows, ShownLink S (toLink l)
  | _, _ => True

def asksOp : Op → Prop
  | .db s => asksStmt S s
  | _ => True

def answersOp : (op : Op) → op.Res → Prop
  | .db s, r => ∀ rows, r = .ok rows → rowsShown S s rows
  | .verifyIdToken _, r => ∀ p e, r = .ok (some p) → p.email = some e → S.email e
  | _, _ => True

/-- The agreement on the operations of the service. -/
def agreed : Agreement Op Op.Res := { asks := asksOp S, answers := answersOp S }

/-- The same for the operations of the server. -/
def agreedHttp : Agreement HttpOp HttpOp.Res where
  asks
    | .api op => asksOp S op
    | .nobody op => asksOp S op
    | _ => True
  answers
    | .api op, r => answersOp S op r
    | .nobody op, r => answersOp S op r
    | _, _ => True

/-- What the environment contributes to an operation is up to the standard: the
    id of a new row, and the email of a Google account. -/
def credibleChoice : Op → Choice → Prop
  | .db (.insertUser _), ch => S.uuid ch.draw
  | .db (.insertLink _), ch => S.uuid ch.draw
  | .verifyIdToken _, ch => ∀ p e, ch.payload = some p → p.email = some e → S.email e
  | _, _ => True

/-- A credible environment: so is every contribution, and the clock. -/
def credible : Policy HttpOp HttpOp.Res Work Choice ServerWorld where
  mayStart := fun _ _ => True
  mayDo := fun st _ _ op ch => S.instant st.world.app.now ∧
    match op with
    | .api op => credibleChoice S op ch
    | .nobody op => credibleChoice S op ch
    | _ => True

end Agreements

section Statements

variable {H : Host} {S : Standard H} {pg : Postgres} {now tid : Nat} {ch : Choice} {db db' : Db}

theorem newUserRow_shown {id : String} {u : NewUser} (hid : S.uuid id) (hemail : S.email u.email)
    (hnow : S.instant now) : ShownUser S (toAuthUser (Db.newUserRow now id u)) :=
  ⟨hid, hemail, hnow, hnow⟩

theorem exec_users_shown {s : Stmt} {r : Except DbError s.Rows} (h : DbShown S db)
    (hnow : S.instant now) (hasks : asksStmt S s) (hch : credibleChoice S (.db s) ch)
    (hx : Db.exec pg now tid s ch db = some (r, db')) :
    ∀ u ∈ db'.users, ShownUser S (toAuthUser u) := by
  intro u hu
  cases Db.exec_change hx with
  | userAdded =>
      rcases List.mem_append.mp hu with hold | hnew
      · exact h.users u hold
      · rw [List.mem_singleton.mp hnew]
        exact newUserRow_shown hch hasks hnow
  | _ => exact h.users u hu

/-- A new link has the id the database drew, and an owner in the table. -/
theorem newLinkRow_shown {w : World} {l : NewLink} {rows : List LinkRow} (h : DbShown S w.db)
    (hnow : S.instant w.now) (hasks : asksStmt S (.insertLink l)) (hid : S.uuid ch.draw)
    (hx : w.db.exec pg w.now tid (.insertLink l) ch = some (.ok rows, db')) :
    ShownLink S (toLink (Db.newLinkRow w.now ch.draw l)) := by
  rcases (insertLink_linkOk hx).owner with ⟨u, hu, howner⟩
  have huser := (h.users u hu).id
  rw [show (toAuthUser u).id = u.id from rfl, howner] at huser
  exact ⟨hid, huser, hasks.1, hasks.2, hnow, hnow⟩

theorem exec_links_shown {w : World} {s : Stmt} {r : Except DbError s.Rows} (h : DbShown S w.db)
    (hnow : S.instant w.now) (hasks : asksStmt S s) (hch : credibleChoice S (.db s) ch)
    (hx : w.db.exec pg w.now tid s ch = some (r, db')) :
    ∀ l ∈ db'.links, ShownLink S (toLink l) := by
  intro row hrow
  rcases Db.exec_links_mem hx hrow with hold | ⟨l, id, rfl, _⟩ |
    ⟨set, a, u, values, old, rfl, hold, _, hset⟩ | ⟨old, hold, _, rfl⟩ | ⟨t, ht, hb⟩
  · exact h.links row hold
  · rcases Db.insertLink_inv hx with ⟨_, ⟨rfl, _, rfl⟩ | ⟨_, _, ⟨ids, _, rfl⟩, _⟩⟩
    · rcases List.mem_append.mp hrow with hold | hnew
      · exact h.links row hold
      · rw [List.mem_singleton.mp hnew]
        exact newLinkRow_shown h hnow hasks hch hx
    · exact h.links row hrow
  · exact hasks _ old row (S.instant_before _ _ (Nat.sub_le _ _) hnow) (h.links old hold) hset
  · exact { h.links old hold with updatedAt := S.instant_before _ _ (Nat.sub_le _ _) hnow }
  · exact h.bumped t ht row hb

theorem exec_bumped_shown {s : Stmt} {r : Except DbError s.Rows} (h : DbShown S db)
    (hx : Db.exec pg now tid s ch db = some (r, db')) :
    ∀ t ∈ db'.txs, ∀ b, t.bumped = some b → ShownLink S (toLink b) := by
  intro t ht b hb
  rcases Db.exec_bumped_mem hx ht hb with ⟨u, hu, hold⟩ | ⟨row, hrow, rfl⟩
  · exact h.bumped u hu b hold
  · have hshown := h.links row hrow
    exact { hshown with }

theorem exec_rows_shown {w : World} {s : Stmt} {rows : s.Rows} (h : DbShown S w.db)
    (hnow : S.instant w.now) (hasks : asksStmt S s) (hch : credibleChoice S (.db s) ch)
    (hx : w.db.exec pg w.now tid s ch = some (.ok rows, db')) : rowsShown S s rows := by
  cases s with
  | insertUser u =>
      rcases Db.insertUser_inv hx with ⟨_, ⟨hr, _⟩ | ⟨e, hr, _⟩⟩
      · rw [Except.ok.injEq] at hr
        subst hr
        intro x hmem
        rw [List.mem_singleton.mp hmem]
        exact newUserRow_shown hch hasks hnow
      · cases hr
  | insertLink l =>
      rcases Db.insertLink_inv hx with ⟨_, ⟨hr, _⟩ | ⟨e, hr, _⟩⟩
      · have hnew := newLinkRow_shown h hnow hasks hch hx
        rw [Except.ok.injEq] at hr
        subst hr
        intro x hmem
        rw [List.mem_singleton.mp hmem]
        exact hnew
      · cases hr
  | updateLink set a u values =>
      rcases Db.updateLink_inv hx with ⟨_, hr, _⟩ | ⟨hr, _⟩ |
        ⟨_, _, row, row', _, _, _, hfind, _, _, hset, _, hr, _⟩
      · cases hr
      · rw [Except.ok.injEq] at hr
        subst hr
        exact fun x hmem => by cases hmem
      · rw [Except.ok.injEq] at hr
        subst hr
        intro x hmem
        rw [List.mem_singleton.mp hmem]
        exact hasks _ row row' (S.instant_before _ _ (Nat.sub_le _ _) hnow)
          (h.links row (List.mem_of_find?_eq_some hfind)) hset
  | userByEmail email =>
      simp only [Db.exec, Db.usersByEmail, Option.some.injEq, Prod.mk.injEq] at hx
      split_ifs at hx
      · rw [Except.ok.injEq] at hx
        exact fun u hu => h.users u (List.mem_filter.mp (hx.1 ▸ hu)).1
      · cases hx.1
  | userByOAuth provider oauthId =>
      simp only [Db.exec, Db.usersByOAuth, Option.some.injEq, Prod.mk.injEq] at hx
      split_ifs at hx
      · rw [Except.ok.injEq] at hx
        exact fun u hu => h.users u (List.mem_filter.mp (hx.1 ▸ hu)).1
      · cases hx.1
  | userById id =>
      simp only [Db.exec, Option.some.injEq, Prod.mk.injEq, Except.ok.injEq] at hx
      exact fun u hu => h.users u (List.mem_filter.mp (hx.1 ▸ hu)).1
  | linkById id userId =>
      rw [Db.linkById_ok hx]
      exact fun l hl => h.links l (List.mem_filter.mp hl).1
  | listLinks userId limit offset =>
      simp only [Db.exec, Db.listLinks, Option.some.injEq, Prod.mk.injEq] at hx
      split_ifs at hx
      · cases hx.1
      · cases hx.1
      · cases hx.1
      · -- A page is part of the owner's links, in their order.
        rw [Except.ok.injEq] at hx
        intro l hl
        have hsorted := List.mem_of_mem_drop (List.mem_of_mem_take (hx.1 ▸ hl))
        rw [List.mem_insertionSort] at hsorted
        exact h.links l (List.mem_filter.mp hsorted).1
  | _ => trivial

/-- A statement that is given what is up to the standard answers so, and keeps
    the tables so. -/
theorem exec_shown {w : World} {s : Stmt} {r : Except DbError s.Rows} (h : DbShown S w.db)
    (hnow : S.instant w.now) (hasks : asksStmt S s) (hch : credibleChoice S (.db s) ch)
    (hx : w.db.exec pg w.now tid s ch = some (r, db')) :
    (∀ rows, r = .ok rows → rowsShown S s rows) ∧ DbShown S db' := by
  refine ⟨fun rows hr => ?_, exec_users_shown h hnow hasks hch hx,
    exec_links_shown h hnow hasks hch hx, exec_bumped_shown h hx⟩
  subst hr
  exact exec_rows_shown h hnow hasks hch hx

end Statements

section Pools

variable {P : Platform} {i : Nat} {ch : Choice}

/-- An operation of the service does its side of the agreement. -/
theorem exec_agreed {H : Host} {S : Standard H} {op : Op} {r : op.Res} {w w' : World}
    (h : DbShown S w.db) (hnow : S.instant w.now) (hasks : asksOp S op)
    (hch : credibleChoice S op ch) (hx : exec P i op ch w = some (r, w')) :
    answersOp S op r ∧ DbShown S w'.db := by
  cases op with
  | db s =>
      rcases exec_db_inv hx with ⟨db, hdb, rfl⟩
      exact exec_shown h hnow hasks hch hdb
  | verifyIdToken idToken =>
      refine ⟨fun p e hr hemail => ?_, by rw [exec_db_eq (fun s => Op.noConfusion) hx]; exact h⟩
      subst hr
      simp only [exec] at hx
      split at hx
      · rw [Option.some.injEq, Prod.mk.injEq, Except.ok.injEq] at hx
        exact hch p e hx.1 hemail
      · cases hx
  | _ => exact ⟨trivial, by rw [exec_db_eq (fun s => Op.noConfusion) hx]; exact h⟩

/-- A statement that is given no owner finds no rows. -/
theorem forNobody_shown {H : Host} {S : Standard H} {s : Stmt} {ans : Except DbError s.Rows}
    (hs : forNobody s = some ans) : ∀ rows, ans = .ok rows → rowsShown S s rows := by
  rintro rows rfl
  cases s with
  | userById | linkById | listLinks | updateLink | insertLink =>
      simp only [forNobody, Option.some.injEq] at hs
      first
        | (split_ifs at hs <;> cases hs <;> exact fun x hx => by cases hx)
        | (split at hs <;> cases hs <;> exact fun x hx => by cases hx)
        | (cases hs; exact fun x hx => by cases hx)
  | _ => trivial

/-- In a credible environment the server does its side of the agreement. -/
theorem server_honours (D : Deployment) (S : Standard D.H) :
    Honours (server D) (credible S) (agreedHttp S) (fun w => DbShown S w.app.db) where
  exec := by
    rintro st j call op ch r w ⟨hnow, hch⟩ hI hasks hx
    -- An operation of the service works on the world of the service.
    have happ : ∀ (op : Op) {r : op.Res}, asksOp S op → credibleChoice S op ch →
        (exec D.P j op ch st.world.app).map (fun r => (r.1, { st.world with app := r.2 }))
          = some (r, w) → answersOp S op r ∧ DbShown S w.app.db := by
      intro op r hask hch hmap
      rcases Option.map_eq_some_iff.mp hmap with ⟨⟨r', app⟩, hexec, heq⟩
      cases heq
      exact exec_agreed hI hnow hask hch hexec
    cases op with
    | increment windowMs key =>
        simp only [server, execServer] at hx
        split at hx <;> simp only [Option.some.injEq, Prod.mk.injEq] at hx <;> rw [← hx.2] <;>
          exact ⟨trivial, hI⟩
    | api op => exact happ op hasks hch hx
    | nobody op =>
        cases op with
        | db s =>
            simp only [server, execServer] at hx
            cases hs : forNobody s with
            | some ans =>
                simp only [hs, Option.some.injEq, Prod.mk.injEq] at hx
                rw [← hx.2, ← hx.1]
                exact ⟨forNobody_shown hs, hI⟩
            | none =>
                simp only [hs] at hx
                exact happ (.db s) hasks hch hx
        | poolConnect => exact happ .poolConnect hasks hch hx
        | redis c => exact happ (.redis c) hasks hch hx
        | enqueue data => exact happ (.enqueue data) hasks hch hx
        | dateNow => exact happ .dateNow hasks hch hx
        | randomUUID => exact happ .randomUUID hasks hch hx
        | randomState => exact happ .randomState hasks hch hx
        | generateId => exact happ .generateId hasks hch hx
        | bcryptHash plain => exact happ (.bcryptHash plain) hasks hch hx
        | bcryptCompare plain hash => exact happ (.bcryptCompare plain hash) hasks hch hx
        | jwtSign claims ttl => exact happ (.jwtSign claims ttl) hasks hch hx
        | getToken code => exact happ (.getToken code) hasks hch hx
        | verifyIdToken idToken => exact happ (.verifyIdToken idToken) hasks hch hx
    | checkDatabase | checkRedis =>
        simp only [server, execServer, Option.some.injEq, Prod.mk.injEq] at hx
        rw [← hx.2]
        exact ⟨trivial, hI⟩
    | getWaitingCount =>
        simp only [server, execServer] at hx
        split at hx <;> simp only [Option.some.injEq, Prod.mk.injEq] at hx <;> rw [← hx.2] <;>
          exact ⟨trivial, hI⟩
  env := by
    intro e w w' hI hw
    cases e <;> simp only [server, Option.some.injEq] at hw <;> rw [← hw] <;> exact hI
  reap := fun i w hI => ⟨hI.users, hI.links, fun t ht => hI.bumped t (List.mem_filter.mp ht).1⟩

end Pools

end ClickScope
