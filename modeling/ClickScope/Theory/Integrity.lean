import ClickScope.Async.Along
import ClickScope.Theory.Accounts
import ClickScope.Theory.KeptRows
import ClickScope.Theory.Locks

/-!
# The Database Stays Consistent

Every constraint the migrations declare, and what the services rely on besides,
in every state of every run.

Postgres checks an insert and an update of one row when it is made. What it
does not check is that the columns of different tables agree: that a link's
counter is the number of its clicks is the code's own doing, and so is that a
row never claims to have been updated before it was created, or later than now.
A statement that waited stamps a row with the moment it began at; it sees no row
that was created after that. A counter that is computed in one statement and
installed by a later one has to fit its column when it is installed.

Nothing is asked of the calls, so jobs may be delivered that no visit enqueued.

## Main definitions

* `ColumnsOk`: The columns an update can set hold what they can hold.
* `UserOk`, `LinkOk`, `ClickOk`: The rows of the three tables.
* `ClickIds`: The ids of clicks.
* `RowsOk`: The rows of the tables, and the counters and clicks on their way.
* `Constraints`: What is declared of the three tables.

## Theorems

* `applySet_columnsOk`: An update sets columns to what they can hold.
* `exec_rowsOk`: Every operation keeps the rows right.
* `constraints_hold`: Every reachable state.
-/

namespace ClickScope

open Async

/-- The columns that can be set hold what Postgres can store in them. -/
structure ColumnsOk (r : LinkRow) : Prop where
  url : textOk r.destinationUrl = true
  hash : textOk? r.passwordHash = true
  expiry : timestampOk? r.expiresAt = true
  limit : int4Ok? r.maxClicks = true

/-- An account row: its texts can be stored, and its times are in order. -/
structure UserOk (now : Nat) (u : UserRow) : Prop where
  email : textOk u.email = true
  hash : textOk? u.passwordHash = true
  provider : textOk? u.oauthProvider = true
  identity : textOk? u.oauthId = true
  created : u.createdAt ≤ u.updatedAt
  updated : u.updatedAt ≤ now

/-- A link row: its owner exists, its columns are in range, and its times are
    in order. -/
structure LinkOk (users : List UserRow) (now : Nat) (r : LinkRow) : Prop extends
    ColumnsOk r where
  owner : ∃ u ∈ users, u.id = r.userId
  code : textOk r.shortCode = true
  positive : maxClicksCheck r.maxClicks = true
  count : (r.clickCount : Int) ≤ INT4_MAX
  created : r.createdAt ≤ r.updatedAt
  updated : r.updatedAt ≤ now

/-- A click row: its texts can be stored, and it has happened. -/
structure ClickOk (now : Nat) (k : ClickRow) : Prop where
  referrer : textOk? k.referrer = true
  agent : textOk? k.userAgent = true
  clicked : k.clickedAt ≤ now

/-- Clicks and clicks that are on their way have ids of their own. -/
structure ClickIds (db : Db) : Prop where
  drawn : ∀ k ∈ db.clicks, k.id ∈ db.ids
  keys : db.clicks.Pairwise (fun a b => a.id ≠ b.id)
  pendingDrawn : ∀ t ∈ db.txs, ∀ c, t.inserted = some c → c.id ∈ db.ids
  pendingNew : ∀ t ∈ db.txs, ∀ c, t.inserted = some c → ∀ k ∈ db.clicks, k.id ≠ c.id
  pendingKeys : db.txs.Pairwise (fun t u => ∀ c k, t.inserted = some c → u.inserted = some k →
    c.id ≠ k.id)

/-- The rows of the tables, and the counters and clicks on their way. -/
structure RowsOk (pg : Postgres) (w : World) : Prop where
  accounts : UsersOk pg w.db
  users : ∀ u ∈ w.db.users, UserOk w.now u
  codes : UniqueCodes w.db
  links : ∀ r ∈ w.db.links, LinkOk w.db.users w.now r
  fits : ∀ t ∈ w.db.txs, ∀ b, t.bumped = some b → (b.clickCount : Int) ≤ INT4_MAX
  clicks : ClickIds w.db
  stored : ∀ k ∈ w.db.clicks, ClickOk w.now k
  pending : ∀ t ∈ w.db.txs, ∀ k, t.inserted = some k → ClickOk w.now k

section Columns

variable {now : Nat} {values : List SqlValue} {row row' : LinkRow}

/-- A value that can be bound is one its column can hold. -/
theorem assign_columnsOk {col : LinkColumn} {v : SqlValue} (hv : v.bindError = none)
    (h : ColumnsOk row) (ha : assign row col v = .ok row') :
    ColumnsOk row' ∧ row'.createdAt = row.createdAt ∧ row'.updatedAt = row.updatedAt := by
  -- What does not fail to be bound passed the test of its type.
  have htest : ∀ {b : Bool} {e : DbError},
      (if b = true then none else some e) = none → b = true := by
    intro b e hb
    cases b with
    | true => rfl
    | false => cases hb
  unfold assign at ha
  split at ha <;> simp only [Except.ok.injEq, reduceCtorEq] at ha <;> rw [← ha]
  · exact ⟨⟨htest hv, h.hash, h.expiry, h.limit⟩, rfl, rfl⟩
  · exact ⟨⟨h.url, h.hash, htest hv, h.limit⟩, rfl, rfl⟩
  · exact ⟨⟨h.url, h.hash, h.expiry, htest hv⟩, rfl, rfl⟩
  · exact ⟨⟨h.url, h.hash, h.expiry, h.limit⟩, rfl, rfl⟩
  · exact ⟨⟨h.url, htest hv, h.expiry, h.limit⟩, rfl, rfl⟩

/-- A set list of values that can be bound. -/
theorem applySet_columnsOk {set : List SetClause} (hv : ∀ v ∈ values, v.bindError = none) :
    ∀ {row row' : LinkRow}, ColumnsOk row → applySet now values set row = .ok row' →
      ColumnsOk row' ∧ row'.createdAt = row.createdAt ∧
        (row'.updatedAt = row.updatedAt ∨ row'.updatedAt = now) := by
  induction set with
  | nil =>
      intro row row' h hx
      simp only [applySet, Except.ok.injEq] at hx
      rw [← hx]
      exact ⟨h, rfl, Or.inl rfl⟩
  | cons clause rest ih =>
      intro row row' h hx
      cases clause with
      | updatedAtNow =>
          have hrest : applySet now values rest { row with updatedAt := now } = .ok row' := by
            simpa only [applySet] using hx
          have hmid : ColumnsOk { row with updatedAt := now } :=
            ⟨h.url, h.hash, h.expiry, h.limit⟩
          rcases ih hmid hrest with ⟨hcols, hcreated, hupdated⟩
          exact ⟨hcols, hcreated, Or.inr (hupdated.elim id id)⟩
      | param col n =>
          simp only [applySet] at hx
          rcases hp : param values n with _ | v
          · simp only [hp, reduceCtorEq] at hx
          · rcases ha : assign row col v with e | mid
            · simp only [hp, ha, reduceCtorEq] at hx
            · simp only [hp, ha] at hx
              have hmem : v ∈ values := by
                cases n with
                | zero => cases hp
                | succ k => exact List.mem_of_getElem? hp
              rcases assign_columnsOk (hv v hmem) h ha with ⟨hmid, hmc, hmu⟩
              rcases ih hmid hx with ⟨hcols, hcreated, hupdated⟩
              exact ⟨hcols, hcreated.trans hmc, hupdated.imp_left (fun hu => hu.trans hmu)⟩

end Columns

section Statements

variable {pg : Postgres} {now tid : Nat} {ch : Choice} {w : World} {db : Db}

/-- An accepted insert has storable columns. -/
theorem insertUser_userOk {u : NewUser} {rows : List UserRow}
    (h : w.db.exec pg w.now tid (.insertUser u) ch = some (.ok rows, db)) :
    UserOk w.now (Db.newUserRow w.now ch.draw u) := by
  simp only [Db.exec] at h
  split at h
  · cases h
  · simp only [Db.insertUser, Option.some.injEq] at h
    split_ifs at h with htext hxor hclash <;>
      simp only [Prod.mk.injEq, reduceCtorEq, false_and] at h
    simp only [Bool.not_eq_false, Bool.and_eq_true] at htext
    exact
      { email := htext.1.1.1
        hash := htext.1.1.2
        provider := htext.1.2
        identity := htext.2
        created := Nat.le_refl _
        updated := Nat.le_refl _ }

theorem exec_userOk {s : Stmt} {r : Except DbError s.Rows} (h : ∀ u ∈ w.db.users, UserOk w.now u)
    (hx : w.db.exec pg w.now tid s ch = some (r, db)) : ∀ u ∈ db.users, UserOk w.now u := by
  by_cases hs : ∃ u, s = .insertUser u
  · rcases hs with ⟨u, rfl⟩
    rcases Db.insertUser_inv hx with ⟨_, ⟨rfl, _, _, _, rfl⟩ | ⟨_, _, ⟨ids, _, rfl⟩, _⟩⟩
    · intro v hv
      rcases List.mem_append.mp hv with hold | hnew
      · exact h v hold
      · rw [List.mem_singleton.mp hnew]
        exact insertUser_userOk hx
    · exact h
  · push Not at hs
    rw [Db.exec_users_eq hs hx]
    exact h

theorem userOk_later {now' : Nat} {u : UserRow} (h : UserOk now u) (hle : now ≤ now') :
    UserOk now' u :=
  { h with updated := h.updated.trans hle }

theorem clickOk_later {now' : Nat} {k : ClickRow} (h : ClickOk now k) (hle : now ≤ now') :
    ClickOk now' k :=
  { h with clicked := h.clicked.trans hle }

/-- An accepted insert has storable columns, and an owner. -/
theorem insertLink_linkOk {l : NewLink} {rows : List LinkRow}
    (h : w.db.exec pg w.now tid (.insertLink l) ch = some (.ok rows, db)) :
    LinkOk w.db.users w.now (Db.newLinkRow w.now ch.draw l) := by
  simp only [Db.exec] at h
  split at h
  · cases h
  · simp only [Db.insertLink, Option.some.injEq] at h
    split_ifs at h with htext hint htime hcheck hclash howner <;>
      simp only [Prod.mk.injEq, reduceCtorEq, false_and] at h
    simp only [Bool.not_eq_false, Bool.and_eq_true] at htext hint htime hcheck howner
    simp only [List.any_eq_true, beq_iff_eq] at howner
    exact
      { url := htext.1.2
        hash := htext.2
        expiry := htime
        limit := hint
        owner := howner
        code := htext.1.1
        positive := hcheck
        count := show ((0 : Nat) : Int) ≤ INT4_MAX by decide
        created := Nat.le_refl _
        updated := Nat.le_refl _ }

/-- A row that is seen was there when the statement began. -/
theorem created_seen {users : List UserRow} {start : Nat} {row : LinkRow}
    (hsees : Db.sees now start row = true) (h : LinkOk users now row) : row.createdAt ≤ start := by
  rw [Db.sees, Bool.or_eq_true, decide_eq_true_eq, decide_eq_true_eq] at hsees
  rcases hsees with hnow | hcreated
  · exact h.created.trans (h.updated.trans hnow)
  · exact hcreated

/-- A row that is updated keeps what an update cannot set. -/
theorem updateLink_linkOk {users : List UserRow} {start : Nat} {set : List SetClause}
    {values : List SqlValue} {row row' : LinkRow} (hstart : start ≤ now)
    (hbind : values.findSome? SqlValue.bindError = none) (hsees : Db.sees now start row = true)
    (hset : applySet start values set row = .ok row')
    (hcheck : maxClicksCheck row'.maxClicks = true) (h : LinkOk users now row) :
    LinkOk users now row' := by
  have hv : ∀ v ∈ values, v.bindError = none := List.findSome?_eq_none_iff.mp hbind
  rcases applySet_keeps hset with ⟨_, hcount, huser, hcode⟩
  rcases applySet_columnsOk hv h.toColumnsOk hset with ⟨hcols, hcreated, hupdated⟩
  refine { hcols with
    owner := by rw [huser]; exact h.owner
    code := by rw [hcode]; exact h.code
    positive := hcheck
    count := by rw [hcount]; exact h.count
    created := ?_
    updated := ?_ }
  · rw [hcreated]
    rcases hupdated with hu | hu <;> rw [hu]
    · exact h.created
    · exact created_seen hsees h
  · rcases hupdated with hu | hu <;> rw [hu]
    · exact h.updated
    · exact hstart

theorem linkOk_later {users users' : List UserRow} {now' : Nat} {r : LinkRow}
    (h : LinkOk users now r) (husers : ∀ u ∈ users, u ∈ users') (hle : now ≤ now') :
    LinkOk users' now' r := by
  rcases h.owner with ⟨u, hu, hid⟩
  exact { h with owner := ⟨u, husers u hu, hid⟩, updated := h.updated.trans hle }

/-- The row of a new version has a new counter only. -/
theorem linkOk_counted {users : List UserRow} {n : Nat} {r : LinkRow} (h : LinkOk users now r)
    (hn : (n : Int) ≤ INT4_MAX) : LinkOk users now { r with clickCount := n } :=
  { h with count := hn }

/-- A statement leaves every link row right. -/
theorem exec_linkOk {s : Stmt} {r : Except DbError s.Rows} (hok : Db.TxOk w.db)
    (h : RowsOk pg w) (hx : w.db.exec pg w.now tid s ch = some (r, db)) :
    ∀ row ∈ db.links, LinkOk w.db.users w.now row := by
  intro row hrow
  rcases Db.exec_links_mem hx hrow with hold | ⟨l, id, rfl, _⟩ |
    ⟨set, a, u, values, old, rfl, _, _⟩ | ⟨old, hold, hsees, rfl⟩ | ⟨t, ht, hb⟩
  · exact h.links row hold
  · rcases Db.insertLink_inv hx with ⟨_, ⟨rfl, _, rfl⟩ | ⟨_, _, ⟨ids, _, rfl⟩, _⟩⟩
    · rcases List.mem_append.mp hrow with hold | hnew
      · exact h.links row hold
      · rw [List.mem_singleton.mp hnew]
        exact insertLink_linkOk hx
    · exact h.links row hrow
  · rcases Db.updateLink_inv hx with ⟨_, _, rfl⟩ | ⟨_, rfl⟩ |
      ⟨id, userId, old, new, _, _, hbind, hfind, _, hsees, hset, hcheck, _, rfl⟩
    · exact h.links row hrow
    · exact h.links row hrow
    · rcases List.mem_map.mp hrow with ⟨a, ha, hif⟩
      by_cases ho : Db.ownedBy id userId a = true
      · rw [if_pos ho] at hif
        rw [← hif]
        exact updateLink_linkOk (Nat.sub_le _ _) hbind hsees hset hcheck
          (h.links old (List.mem_of_find?_eq_some hfind))
      · rw [if_neg ho] at hif
        rw [← hif]
        exact h.links a ha
  · have hrow := h.links old hold
    have hcreated := created_seen hsees hrow
    exact { hrow with created := hcreated, updated := Nat.sub_le _ _ }
  · -- The version that is installed differs from its row by the counter.
    rcases (hok.bumped t ht row hb).1 with ⟨old, hold, heq⟩
    rw [heq]
    have hfits := h.fits t ht row hb
    rw [heq] at hfits
    exact linkOk_counted (h.links old hold) hfits

/-- A counter that is computed fits its column. -/
theorem increment_fits {linkId : String} {r : Except DbError Nat} {db₀ : Db}
    (hx : Db.exec pg now tid (.incrementClickCount linkId) ch db₀ = some (r, db)) {t : ClickTx}
    (ht : t ∈ db.txs) {b : LinkRow} (hb : t.bumped = some b) :
    (∃ u ∈ db₀.txs, u.bumped = some b) ∨ (b.clickCount : Int) ≤ INT4_MAX := by
  rcases Db.incrementClickCount_inv hx with ⟨_, _, rfl | rfl⟩ |
    ⟨u, hu, hab, hbump, ⟨_, rfl, _⟩ | ⟨row, rfl, hrow, hlock, rfl⟩⟩
  · exact Or.inl ⟨t, ht, hb⟩
  · rcases Db.mem_setTx ht with ⟨hold, _⟩ | ⟨u, _, _, rfl⟩
    · exact Or.inl ⟨t, hold, hb⟩
    · cases hb
  · exact Or.inl ⟨t, ht, hb⟩
  · rcases Db.mem_setTx ht with ⟨hold, _⟩ | ⟨v, _, _, rfl⟩
    · exact Or.inl ⟨t, hold, hb⟩
    · refine Or.inr ?_
      rw [← Option.some.inj hb]
      by_contra hbig
      -- Beyond the column the statement would have failed.
      have hbig' : INT4_MAX < (row.clickCount : Int) + 1 := by
        push Not at hbig
        exact hbig
      simp only [Db.exec, Db.incrementClickCount, hu, hab, hbump, hrow, hlock, hbig', Db.abortTx,
        Bool.false_eq_true, if_false, if_true, Option.isSome_none] at hx
      split at hx <;> cases hx

/-- Only the counter update computes a new version. -/
theorem exec_bumped_old {s : Stmt} {r : Except DbError s.Rows} {db₀ : Db}
    (hs : ∀ linkId, s ≠ .incrementClickCount linkId)
    (hx : Db.exec pg now tid s ch db₀ = some (r, db)) {t : ClickTx} (ht : t ∈ db.txs)
    {b : LinkRow} (hb : t.bumped = some b) : ∃ u ∈ db₀.txs, u.bumped = some b := by
  cases Db.exec_change hx with
  | countBumped => exact absurd rfl (hs _)
  | begun =>
      rcases List.mem_cons.mp ht with rfl | hold
      · cases hb
      · exact ⟨t, hold, hb⟩
  | failed =>
      rcases Db.mem_setTx ht with ⟨hold, _⟩ | ⟨u, _, _, rfl⟩
      · exact ⟨t, hold, hb⟩
      · cases hb
  | clickAdded =>
      rcases Db.mem_setTx ht with ⟨hold, _⟩ | ⟨u, hu, _, rfl⟩
      · exact ⟨t, hold, hb⟩
      · exact ⟨u, hu, hb⟩
  | closed | applied => exact ⟨t, (List.mem_filter.mp ht).1, hb⟩
  | _ => exact ⟨t, ht, hb⟩

/-- A counter that is on its way fits its column. -/
theorem exec_countersFit {s : Stmt} {r : Except DbError s.Rows} {db₀ : Db}
    (h : ∀ t ∈ db₀.txs, ∀ b, t.bumped = some b → (b.clickCount : Int) ≤ INT4_MAX)
    (hx : Db.exec pg now tid s ch db₀ = some (r, db)) :
    ∀ t ∈ db.txs, ∀ b, t.bumped = some b → (b.clickCount : Int) ≤ INT4_MAX := by
  intro t ht b hb
  by_cases hs : ∃ linkId, s = .incrementClickCount linkId
  · rcases hs with ⟨linkId, rfl⟩
    rcases increment_fits hx ht hb with ⟨u, hu, hub⟩ | hfits
    · exact h u hu b hub
    · exact hfits
  · push Not at hs
    rcases exec_bumped_old hs hx ht hb with ⟨u, hu, hub⟩
    exact h u hu b hub

theorem tableOk_of {db₀ : Db} (hok : Db.TxOk db₀) (hcodes : UniqueCodes db₀) : TableOk db₀ where
  ids := hok.linkKey
  codes := hcodes
  drawn := hok.drawn
  bumped := by
    intro t ht b hb
    rcases (hok.bumped t ht b hb).1 with ⟨row, hrow, heq⟩
    exact ⟨row, hrow, by rw [heq]; rfl⟩

/-- No statement makes two links of one code. -/
theorem exec_codes {s : Stmt} {r : Except DbError s.Rows} {db₀ : Db} (hok : Db.TxOk db₀)
    (hcodes : UniqueCodes db₀) (hx : Db.exec pg now tid s ch db₀ = some (r, db)) :
    UniqueCodes db := by
  have htable := tableOk_of hok hcodes
  cases hs : s.ownerWrites with
  | false => exact (exec_kept hs htable hx).2.codes
  | true =>
      cases s with
      | insertLink => exact (insertLink_tableOk htable hx).1.codes
      | updateLink => exact (updateLink_tableOk htable hx).1.codes
      | deleteLink => exact (deleteLink_tableOk htable hx).1.codes
      | _ => cases hs

end Statements

section ClickIdentity

variable {pg : Postgres} {now tid : Nat} {ch : Choice} {db db' : Db}

/-- Fewer clicks and fewer transactions, and more ids drawn. -/
theorem clickIds_fewer (h : ClickIds db) (hclicks : db'.clicks.Sublist db.clicks)
    (htxs : db'.txs.Sublist db.txs) (hids : ∀ x ∈ db.ids, x ∈ db'.ids) : ClickIds db' where
  drawn := fun k hk => hids _ (h.drawn k (hclicks.subset hk))
  keys := h.keys.sublist hclicks
  pendingDrawn := fun t ht c hc => hids _ (h.pendingDrawn t (htxs.subset ht) c hc)
  pendingNew := fun t ht c hc k hk => h.pendingNew t (htxs.subset ht) c hc k (hclicks.subset hk)
  pendingKeys := h.pendingKeys.sublist htxs

/-- A transaction that is replaced by one with the same click, or with none. -/
theorem clickIds_setTx (hok : Db.TxOk db) (h : ClickIds db) {f : ClickTx → ClickTx}
    (hf : ∀ t c, (f t).inserted = some c → t.inserted = some c) : ClickIds (db.setTx tid f) where
  drawn := h.drawn
  keys := h.keys
  pendingDrawn := by
    intro t ht c hc
    rcases Db.mem_setTx ht with ⟨ht, _⟩ | ⟨u, hu, _, rfl⟩
    · exact h.pendingDrawn t ht c hc
    · exact h.pendingDrawn u hu c (hf u c hc)
  pendingNew := by
    intro t ht c hc
    rcases Db.mem_setTx ht with ⟨ht, _⟩ | ⟨u, hu, _, rfl⟩
    · exact h.pendingNew t ht c hc
    · exact h.pendingNew u hu c (hf u c hc)
  pendingKeys := by
    refine Db.pairwise_setTx hok h.pendingKeys (fun _ _ hne c k hc hk => (hne k c hk hc).symm)
      (fun t ht htid u hu hutid c k hc hk => ?_)
    have hne : t ≠ u := fun heq => hutid (heq ▸ htid)
    exact Db.txs_forall (fun _ _ hR c k hc hk heq => hR k c hk hc heq.symm) h.pendingKeys ht hu hne
      c k (hf t c hc) hk

/-- A click whose id was drawn just now. -/
theorem clickIds_inserted (hok : Db.TxOk db) (h : ClickIds db) {c : ClickRow}
    (hfresh : c.id ∉ db.ids) : ClickIds (db.withInserted tid c) where
  drawn := fun k hk => List.mem_cons_of_mem _ (h.drawn k hk)
  keys := h.keys
  pendingDrawn := by
    intro t ht k hk
    rcases Db.mem_setTx ht with ⟨ht, _⟩ | ⟨u, _, _, rfl⟩
    · exact List.mem_cons_of_mem _ (h.pendingDrawn t ht k hk)
    · rw [← Option.some.inj hk]
      exact List.mem_cons_self
  pendingNew := by
    intro t ht k hk k' hk' heq
    rcases Db.mem_setTx ht with ⟨ht, _⟩ | ⟨u, _, _, rfl⟩
    · exact h.pendingNew t ht k hk k' hk' heq
    · rw [← Option.some.inj hk] at heq
      exact hfresh (heq ▸ h.drawn k' hk')
  pendingKeys := by
    refine Db.pairwise_setTx hok h.pendingKeys (fun _ _ hne c k hc hk => (hne k c hk hc).symm)
      (fun t _ _ u hu _ a k ha hk heq => ?_)
    rw [← Option.some.inj ha] at heq
    exact hfresh (heq ▸ h.pendingDrawn u hu k hk)

/-- A commit moves a click into the table. -/
theorem clickIds_apply (h : ClickIds db) {t : ClickTx}
    (ht : db.txOf tid = some t) : ClickIds ((db.applyTx t).closeTx tid) := by
  rcases Db.txOf_mem ht with ⟨hmem, htid⟩
  have hother : ∀ u ∈ (db.applyTx t).closeTx tid |>.txs, u ∈ db.txs ∧ t ≠ u := by
    intro u hu
    rcases List.mem_filter.mp hu with ⟨hu, hne⟩
    exact ⟨hu, fun heq => bne_iff_ne.mp hne (heq ▸ htid)⟩
  have hnew : ∀ k ∈ t.inserted.toList, t.inserted = some k :=
    fun k hk => Option.mem_toList.mp hk
  refine ⟨fun k hk => ?_, ?_, fun u hu => h.pendingDrawn u (hother u hu).1, ?_,
    h.pendingKeys.filter _⟩
  · rcases List.mem_append.mp hk with hk | hk
    · exact h.drawn k hk
    · exact h.pendingDrawn t hmem k (hnew k hk)
  · refine List.pairwise_append.mpr ⟨h.keys, ?_, fun a ha b hb => ?_⟩
    · cases t.inserted with
      | none => exact List.Pairwise.nil
      | some c => exact List.pairwise_singleton _ _
    · exact h.pendingNew t hmem b (hnew b hb) a ha
  · intro u hu c hc k hk
    rcases List.mem_append.mp hk with hk | hk
    · exact h.pendingNew u (hother u hu).1 c hc k hk
    · exact Db.txs_forall (fun _ _ hR c k hc hk heq => hR k c hk hc heq.symm) h.pendingKeys hmem
        (hother u hu).1 (hother u hu).2 k c (hnew k hk) hc

theorem insertClick_clickIds {data : ClickJobData} {r : Except DbError Nat} (hok : Db.TxOk db)
    (h : ClickIds db) (hx : Db.exec pg now tid (.insertClick data) ch db = some (r, db')) :
    ClickIds db' := by
  rcases Db.insertClick_inv hx with ⟨_, _, rfl | rfl⟩ |
    ⟨_, _, _, _, _, ⟨_, rfl, _⟩ | ⟨_, _, _, hfresh, rfl⟩⟩
  · exact h
  · exact clickIds_setTx hok h (fun _ _ hc => by cases hc)
  · exact h
  · exact clickIds_inserted hok h hfresh

theorem commit_clickIds {r : Except DbError Unit} (h : ClickIds db)
    (hx : Db.exec pg now tid .commit ch db = some (r, db')) : ClickIds db' := by
  have hclosed : ClickIds (db.closeTx tid) :=
    clickIds_fewer h (List.Sublist.refl _) List.filter_sublist (fun _ hid => hid)
  rcases Db.commit_inv hx with ⟨_, _, rfl⟩ | ⟨t, ht, ⟨_, _, rfl⟩ | ⟨_, rfl⟩⟩
  · exact h
  · exact hclosed
  · cases t.aborted with
    | true => exact hclosed
    | false => exact clickIds_apply h ht

theorem exec_clickIds {s : Stmt} {r : Except DbError s.Rows} (hok : Db.TxOk db) (h : ClickIds db)
    (hx : Db.exec pg now tid s ch db = some (r, db')) : ClickIds db' := by
  have hinsert : ∀ data, s = .insertClick data → ClickIds db' := by
    rintro data rfl
    exact insertClick_clickIds hok h hx
  have hcommit : s = .commit → ClickIds db' := by
    rintro rfl
    exact commit_clickIds h hx
  cases Db.exec_change hx with
  | same => exact h
  | drawn hids => exact clickIds_fewer h (List.Sublist.refl _) (List.Sublist.refl _) hids
  | userAdded | linkAdded =>
      exact clickIds_fewer h (List.Sublist.refl _) (List.Sublist.refl _)
        (fun _ hid => List.mem_cons_of_mem _ hid)
  | linkUpdated | swept =>
      exact clickIds_fewer h (List.Sublist.refl _) (List.Sublist.refl _) (fun _ hid => hid)
  | linkDeleted =>
      exact clickIds_fewer h List.filter_sublist (List.Sublist.refl _) (fun _ hid => hid)
  | begun =>
      -- A transaction that begins has no click.
      refine ⟨h.drawn, h.keys, fun t ht c hc => ?_, fun t ht c hc => ?_,
        List.pairwise_cons.mpr ⟨fun _ _ c k hc _ => (by cases hc), h.pendingKeys⟩⟩
      · rcases List.mem_cons.mp ht with rfl | ht
        · cases hc
        · exact h.pendingDrawn t ht c hc
      · rcases List.mem_cons.mp ht with rfl | ht
        · cases hc
        · exact h.pendingNew t ht c hc
  | failed => exact clickIds_setTx hok h (fun _ _ hc => by cases hc)
  | countBumped => exact clickIds_setTx hok h (fun _ _ hc => hc)
  | clickAdded => exact hinsert _ rfl
  | closed => exact clickIds_fewer h (List.Sublist.refl _) List.filter_sublist (fun _ hid => hid)
  | applied => exact hcommit rfl

end ClickIdentity

section ClickRows

variable {pg : Postgres} {now tid : Nat} {ch : Choice} {db db' : Db}

/-- A click that is inserted has texts that could be bound. -/
theorem insertClick_clickOk {data : ClickJobData}
    (hx : Db.exec pg now tid (.insertClick data) ch db = some (.ok 1, db')) :
    ClickOk now (Db.newClickRow (now - ch.waited) ch.draw data) := by
  have htext : (textOk? data.referrer && textOk? data.userAgent) = true := by
    by_contra hbad
    rcases Db.insertClick_inv hx with ⟨_, herr, _⟩ | ⟨t, ht, hab, hins, _⟩
    · cases herr
    · -- The insert would have failed in its transaction.
      simp only [Db.exec, Db.insertClick, ht, hab, hins, Bool.eq_false_of_not_eq_true hbad,
        Db.abortTx, Bool.false_eq_true, if_false, if_true, Option.isSome_none] at hx
      split at hx <;> cases hx
  rw [Bool.and_eq_true] at htext
  exact ⟨htext.1, htext.2, Nat.sub_le _ _⟩

/-- The clicks of the table and those on their way. -/
theorem exec_clickOk {s : Stmt} {r : Except DbError s.Rows}
    (hstored : ∀ k ∈ db.clicks, ClickOk now k)
    (hpending : ∀ t ∈ db.txs, ∀ k, t.inserted = some k → ClickOk now k)
    (hx : Db.exec pg now tid s ch db = some (r, db')) :
    (∀ k ∈ db'.clicks, ClickOk now k) ∧
      ∀ t ∈ db'.txs, ∀ k, t.inserted = some k → ClickOk now k := by
  -- What an insert that was answered adds.
  have hinsert : ∀ data, s = .insertClick data → (∀ k ∈ db'.clicks, ClickOk now k) ∧
      ∀ t ∈ db'.txs, ∀ k, t.inserted = some k → ClickOk now k := by
    rintro data rfl
    rcases Db.insertClick_inv hx with ⟨_, _, rfl | rfl⟩ |
      ⟨_, _, _, _, _, ⟨_, rfl, _⟩ | ⟨rfl, _, _, _, rfl⟩⟩
    · exact ⟨hstored, hpending⟩
    · refine ⟨hstored, fun t ht k hk => ?_⟩
      rcases Db.mem_setTx ht with ⟨hold, _⟩ | ⟨u, _, _, rfl⟩
      · exact hpending t hold k hk
      · cases hk
    · exact ⟨hstored, hpending⟩
    · refine ⟨hstored, fun t ht k hk => ?_⟩
      rcases Db.mem_setTx ht with ⟨hold, _⟩ | ⟨u, _, _, rfl⟩
      · exact hpending t hold k hk
      · rw [← Option.some.inj hk]
        exact insertClick_clickOk hx
  cases Db.exec_change hx with
  | linkDeleted => exact ⟨fun k hk => hstored k (List.mem_filter.mp hk).1, hpending⟩
  | begun =>
      refine ⟨hstored, fun t ht k hk => ?_⟩
      rcases List.mem_cons.mp ht with rfl | hold
      · cases hk
      · exact hpending t hold k hk
  | failed =>
      refine ⟨hstored, fun t ht k hk => ?_⟩
      rcases Db.mem_setTx ht with ⟨hold, _⟩ | ⟨u, _, _, rfl⟩
      · exact hpending t hold k hk
      · cases hk
  | countBumped =>
      refine ⟨hstored, fun t ht k hk => ?_⟩
      rcases Db.mem_setTx ht with ⟨hold, _⟩ | ⟨u, hu, _, rfl⟩
      · exact hpending t hold k hk
      · exact hpending u hu k hk
  | clickAdded => exact hinsert _ rfl
  | closed => exact ⟨hstored, fun t ht => hpending t (List.mem_filter.mp ht).1⟩
  | @applied t ht =>
      refine ⟨fun k hk => ?_, fun u hu => hpending u (List.mem_filter.mp hu).1⟩
      rcases List.mem_append.mp hk with hold | hnew
      · exact hstored k hold
      · exact hpending t ht k (Option.mem_toList.mp hnew)
  | _ => exact ⟨hstored, hpending⟩

end ClickRows

section Runs

variable {P : Platform} {w₀ : World} {c : Site}

theorem exec_rowsOk {i : Nat} {op : Op} {ch : Choice} {r : op.Res} {w w' : World}
    (hok : Db.TxOk w.db) (h : RowsOk P.pg w) (hx : exec P i op ch w = some (r, w')) :
    RowsOk P.pg w' := by
  by_cases hs : ∀ s, op ≠ .db s
  · have hdb := exec_db_eq hs hx
    have hnow := exec_now_eq hx
    refine ⟨?_, ?_, ?_, ?_, ?_, ?_, ?_, ?_⟩ <;> rw [hdb]
    · exact h.accounts
    · rw [hnow]
      exact h.users
    · exact h.codes
    · rw [hnow]
      exact h.links
    · exact h.fits
    · exact h.clicks
    · rw [hnow]
      exact h.stored
    · rw [hnow]
      exact h.pending
  · push Not at hs
    rcases hs with ⟨s, rfl⟩
    rcases exec_usersOk h.accounts hx with ⟨hacc, hgrow⟩
    rcases exec_db_inv hx with ⟨db, hdb, rfl⟩
    have husers := exec_userOk h.users hdb
    have hclicks := exec_clickOk h.stored h.pending hdb
    refine ⟨hacc, husers, exec_codes hok h.codes hdb, fun row hrow => ?_,
      exec_countersFit h.fits hdb, exec_clickIds hok h.clicks hdb, hclicks.1, hclicks.2⟩
    exact linkOk_later (exec_linkOk hok h hdb row hrow) (fun u hu => hgrow.subset hu)
      (Nat.le_refl _)

/-- The rows of every reachable state are right. -/
theorem run_rowsOk (hw : w₀.db = { users := [], links := [], clicks := [], txs := [], ids := [] })
    (hc : Run (clickScope P) Policy.free w₀ c) : RowsOk P.pg c.state.world := by
  have hempty : w₀.db.users = [] ∧ w₀.db.links = [] ∧ w₀.db.clicks = [] ∧ w₀.db.txs = [] := by
    rw [hw]
    exact ⟨rfl, rfl, rfl, rfl⟩
  refine run_state_in (I := fun st => RowsOk P.pg st.world) ?_ ?_ ?_ ?_ hc
  · refine ⟨⟨?_, ?_, ?_, ?_, ?_⟩, ?_, ?_, ?_, ?_, ⟨?_, ?_, ?_, ?_, ?_⟩, ?_, ?_⟩ <;> simp only
      [UniqueCodes, hempty, List.not_mem_nil, List.Pairwise.nil, false_implies, implies_true]
  · intro d i t op k ch r w hd _ _ _ h hx
    exact exec_rowsOk (run_locksInv hempty.2.1 hempty.2.2.1 hempty.2.2.2 hd).ok h hx
  · intro d e w _ h hw
    rcases env_inv hw with ⟨ms, rfl⟩
    have hlater := Nat.le_add_right d.state.world.now ms
    exact ⟨h.accounts, fun u hu => userOk_later (h.users u hu) hlater, h.codes,
      fun r hr => linkOk_later (h.links r hr) (fun _ hu => hu) hlater, h.fits, h.clicks,
      fun k hk => clickOk_later (h.stored k hk) hlater,
      fun t ht k hk => clickOk_later (h.pending t ht k hk) hlater⟩
  · exact fun d i _ h => ⟨usersOk_congr h.accounts rfl (fun _ hid => hid), h.users, h.codes,
      h.links, fun t ht => h.fits t (List.mem_filter.mp ht).1,
      clickIds_fewer h.clicks (List.Sublist.refl _) List.filter_sublist (fun _ hid => hid),
      h.stored, fun t ht => h.pending t (List.mem_filter.mp ht).1⟩

end Runs

/-- What is declared of the three tables, and that every counter is the number
    of its clicks. -/
structure Constraints (pg : Postgres) (w : World) : Prop where
  accounts : UsersOk pg w.db
  userRows : ∀ u ∈ w.db.users, UserOk w.now u
  linkIds : w.db.links.Pairwise (fun a b => a.id ≠ b.id)
  linkCodes : w.db.links.Pairwise (fun a b => a.shortCode ≠ b.shortCode)
  linkRows : ∀ r ∈ w.db.links, LinkOk w.db.users w.now r
  clickIds : w.db.clicks.Pairwise (fun a b => a.id ≠ b.id)
  clickJobs : w.db.clicks.Pairwise (fun a b => a.jobId ≠ b.jobId)
  clickLinks : ∀ k ∈ w.db.clicks, ∃ r ∈ w.db.links, r.id = k.linkId
  clickRows : ∀ k ∈ w.db.clicks, ClickOk w.now k
  counters : ∀ r ∈ w.db.links,
    r.clickCount = (w.db.clicks.filter (fun k => k.linkId == r.id)).length

/-- From empty tables on, whatever calls run, fail and die, the constraints hold
    in every reachable state. -/
theorem constraints_hold (P : Platform) (w₀ : World)
    (hw : w₀.db = { users := [], links := [], clicks := [], txs := [], ids := [] }) (c : Site)
    (hc : Run (clickScope P) Policy.free w₀ c) : Constraints P.pg c.state.world := by
  have hrows := run_rowsOk hw hc
  have htx := (run_locksInv (by rw [hw]) (by rw [hw]) (by rw [hw]) hc).ok
  exact
    { accounts := hrows.accounts
      userRows := hrows.users
      linkIds := htx.linkKey
      linkCodes := hrows.codes
      linkRows := hrows.links
      clickIds := hrows.clicks.keys
      clickJobs := htx.jobKey
      clickLinks := htx.clickLink
      clickRows := hrows.stored
      counters := htx.counted }

/-- An account, its link, a counted click and an update of the link. -/
def sampleHistory : List (Action Call EnvStep Choice) :=
  [.spawn (.findOrCreateOAuthUser "google" "g" "a@b.c" true), .run 0 {}, .run 0 {},
    .run 0 { draw := "u" }, .run 0 {}, .spawn (.createLink "u" sampleInput),
    .run 1 { draw := "abcdefg" }, .run 1 { draw := firstId }, .spawn (.processClickJob sampleJob),
    .run 2 {}, .run 2 {}, .run 2 { draw := "k" }, .run 2 {}, .run 2 {}, .env (.tick 5),
    .spawn (.updateLink "u" firstId
      { destinationUrl := none, expiresAt := none, maxClicks := none, isActive := some false,
        password := none }),
    .run 3 {}]

theorem sampleHistory_run : ∃ c : Site, Run (clickScope samplePlatform) Policy.free emptyWorld c ∧
    c.state.world.db.links.map
      (fun r => (r.clickCount, r.createdAt, r.updatedAt)) = [(1, 0, 5)] := by
  have hrun := exists_run (clickScope samplePlatform) emptyWorld sampleHistory
    (fun c => decide (c.state.world.db.links.map
      (fun r => (r.clickCount, r.createdAt, r.updatedAt)) = [(1, 0, 5)])) (by decide)
  rcases hrun with ⟨c, hc, htest⟩
  exact ⟨c, hc, of_decide_eq_true htest⟩

theorem constraints_hold_updated : ∃ c : Site,
    Run (clickScope samplePlatform) Policy.free emptyWorld c ∧
    c.state.world.db.links.map (fun r => (r.clickCount, r.createdAt, r.updatedAt)) = [(1, 0, 5)] ∧
    Constraints samplePlatform.pg c.state.world := by
  rcases sampleHistory_run with ⟨c, hc, htest⟩
  exact ⟨c, hc, htest, constraints_hold samplePlatform emptyWorld rfl c hc⟩

end ClickScope
