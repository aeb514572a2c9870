import Mathlib.Data.List.Pairwise
import ClickScope.Theory.Statements

/-!
# Clicks, Counters and Open Transactions

The invariant of the two tables a click touches, and every statement's proof
that it keeps it.

Committed, each link's counter is the number of its click rows. A click
transaction breaks this in the open only for itself: the click it inserted and
the row version it computed are pending until the commit, and the locks keep
both valid until then. The link of a pending click cannot be deleted, its job
id cannot be inserted by anyone else, and a row whose new version is pending
cannot be written. That is what `TxOk` says of the open transactions, and why
the commit of a complete one restores the counter.

A job is settled once its click is in the table or can no longer get there,
its link being gone for good.

## Main definitions

* `TxOk`: The invariant.
* `Settled`: A job whose click is there, if its link is.
* `Complete`: A transaction that may commit.

## Theorems

* `txOk_insertLink`, `txOk_mapLinks`, `txOk_deleteLink`: The owner and the sweep.
* `txOk_begin`, `txOk_inserted`, `txOk_bumped`, `txOk_aborted`, `txOk_close`,
  `txOk_apply`: The worker.
-/

namespace ClickScope

namespace Db

/-- A link with this id exists. -/
def HasLink (db : Db) (id : String) : Prop := ∃ r ∈ db.links, r.id = id

/-- The number of click rows of a link. -/
def clicksOf (db : Db) (id : String) : Nat :=
  (db.clicks.filter (fun c => c.linkId == id)).length

/-- The version of a row the counter update computes. -/
def bump (r : LinkRow) : LinkRow := { r with clickCount := r.clickCount + 1 }

/-- The invariant of the links, the clicks and the open transactions. -/
structure TxOk (db : Db) : Prop where
  drawn : ∀ r ∈ db.links, r.id ∈ db.ids
  linkKey : db.links.Pairwise (fun a b => a.id ≠ b.id)
  jobKey : db.clicks.Pairwise (fun a b => a.jobId ≠ b.jobId)
  clickLink : ∀ c ∈ db.clicks, db.HasLink c.linkId
  counted : ∀ r ∈ db.links, r.clickCount = db.clicksOf r.id
  txKey : db.txs.Pairwise (fun t u => t.tid ≠ u.tid)
  pending : ∀ t ∈ db.txs, ∀ c, t.inserted = some c →
    db.HasLink c.linkId ∧ ∀ k ∈ db.clicks, k.jobId ≠ c.jobId
  pendingKey : db.txs.Pairwise (fun t u => ∀ c k, t.inserted = some c → u.inserted = some k →
    c.jobId ≠ k.jobId)
  bumped : ∀ t ∈ db.txs, ∀ b, t.bumped = some b →
    (∃ r ∈ db.links, b = bump r) ∧ ∃ c, t.inserted = some c ∧ c.linkId = b.id
  bumpKey : db.txs.Pairwise (fun t u => ∀ a b, t.bumped = some a → u.bumped = some b →
    a.id ≠ b.id)

/-- The click of a job is there, or its link is gone for good. -/
def Settled (db : Db) (data : ClickJobData) : Prop :=
  data.linkId ∈ db.ids ∧
    (db.HasLink data.linkId → ∃ k ∈ db.clicks, k.jobId = data.clickId ∧ k.linkId = data.linkId)

/-- A transaction that inserted a click has also counted it. -/
def Complete (t : ClickTx) : Prop :=
  t.aborted = false ∧ (t.inserted.isSome → t.bumped.isSome)

theorem txOk_empty (db : Db) (hl : db.links = []) (hc : db.clicks = []) (ht : db.txs = []) :
    TxOk db := by
  constructor <;> simp only [hl, hc, ht, List.not_mem_nil, List.Pairwise.nil, false_implies,
    implies_true]

section Keys

variable {db : Db}

/-- Links with one id are one link. -/
theorem link_unique (h : TxOk db) {a b : LinkRow} (ha : a ∈ db.links) (hb : b ∈ db.links)
    (hid : a.id = b.id) : a = b :=
  key_unique h.linkKey ha hb hid

theorem tx_unique (h : TxOk db) {t u : ClickTx} (ht : t ∈ db.txs) (hu : u ∈ db.txs)
    (hid : t.tid = u.tid) : t = u :=
  key_unique h.txKey ht hu hid

theorem txOf_mem {tid : Nat} {t : ClickTx} (h : db.txOf tid = some t) :
    t ∈ db.txs ∧ t.tid = tid := by
  unfold txOf at h
  exact ⟨List.mem_of_find?_eq_some h, by simpa using List.find?_some h⟩

/-- Pairs of different transactions, in either order. -/
theorem txs_forall {R : ClickTx → ClickTx → Prop} (hsymm : ∀ t u, R t u → R u t)
    (h : db.txs.Pairwise R) {t u : ClickTx} (ht : t ∈ db.txs) (hu : u ∈ db.txs) (hne : t ≠ u) :
    R t u := by
  have : Std.Symm R := ⟨hsymm⟩
  exact h.forall ht hu hne

theorem rowLocked_false {id : String} (h : db.rowLocked id = false) {t : ClickTx} {b : LinkRow}
    (ht : t ∈ db.txs) (hb : t.bumped = some b) : b.id ≠ id := by
  unfold rowLocked at h
  rw [List.any_eq_false] at h
  intro hid
  have := h t ht
  rw [hb] at this
  simp only [Option.any_some, beq_iff_eq, hid, not_true_eq_false] at this

theorem keyShared_false {id : String} (h : db.keyShared id = false) {t : ClickTx} {c : ClickRow}
    (ht : t ∈ db.txs) (hc : t.inserted = some c) : c.linkId ≠ id := by
  unfold keyShared at h
  rw [List.any_eq_false] at h
  intro hid
  have := h t ht
  rw [hc] at this
  simp only [Option.any_some, beq_iff_eq, hid, not_true_eq_false] at this

theorem jobPending_false {tid : Nat} {jobId : String} (h : db.jobPending tid jobId = false)
    {t : ClickTx} {c : ClickRow} (ht : t ∈ db.txs) (hne : t.tid ≠ tid)
    (hc : t.inserted = some c) : c.jobId ≠ jobId := by
  unfold jobPending at h
  rw [List.any_eq_false] at h
  intro hid
  have := h t ht
  rw [hc] at this
  simp only [Option.any_some, hid, beq_self_eq_true, Bool.and_true, bne_iff_ne, ne_eq,
    not_not] at this
  exact hne this

/-- A link outside the ids drawn has no clicks. -/
theorem clicksOf_fresh (h : TxOk db) {id : String} (hid : id ∉ db.ids) : db.clicksOf id = 0 := by
  unfold clicksOf
  rw [List.length_eq_zero_iff, List.filter_eq_nil_iff]
  intro c hc hlink
  rw [beq_iff_eq] at hlink
  rcases h.clickLink c hc with ⟨r, hr, hrid⟩
  have hdrawn := h.drawn r hr
  rw [hrid, hlink] at hdrawn
  exact hid hdrawn

end Keys

section Owner

variable {db : Db}

/-- More ids drawn and other accounts change nothing. -/
theorem txOk_congr {db' : Db} (h : TxOk db) (hl : db'.links = db.links)
    (hc : db'.clicks = db.clicks) (ht : db'.txs = db.txs) (hids : ∀ x ∈ db.ids, x ∈ db'.ids) :
    TxOk db' := by
  have hlink : ∀ id, db.HasLink id → db'.HasLink id := by
    intro id hid
    unfold HasLink
    rw [hl]
    exact hid
  constructor <;> (try unfold clicksOf) <;> simp only [hl, hc, ht]
  · exact fun r hr => hids _ (h.drawn r hr)
  · exact h.linkKey
  · exact h.jobKey
  · exact fun c hmem => hlink _ (h.clickLink c hmem)
  · exact h.counted
  · exact h.txKey
  · exact fun t hmem c hins => ⟨hlink _ (h.pending t hmem c hins).1, (h.pending t hmem c hins).2⟩
  · exact h.pendingKey
  · exact h.bumped
  · exact h.bumpKey

theorem settled_congr {db' : Db} {data : ClickJobData} (h : Settled db data)
    (hl : db'.links = db.links) (hc : db'.clicks = db.clicks)
    (hids : ∀ x ∈ db.ids, x ∈ db'.ids) : Settled db' data := by
  refine ⟨hids _ h.1, ?_⟩
  unfold HasLink
  rw [hl, hc]
  exact h.2

/-- A new link starts with no clicks. -/
theorem txOk_insertLink (h : TxOk db) {row : LinkRow} (hfresh : row.id ∉ db.ids)
    (hzero : row.clickCount = 0) :
    TxOk { db with ids := row.id :: db.ids, links := db.links ++ [row] } where
  drawn := by
    intro r hr
    rcases List.mem_append.mp hr with hr | hr
    · exact List.mem_cons_of_mem _ (h.drawn r hr)
    · rw [List.mem_singleton.mp hr]
      exact List.mem_cons_self
  linkKey := by
    rw [List.pairwise_append]
    refine ⟨h.linkKey, List.pairwise_singleton _ _, fun a ha b hb heq => ?_⟩
    rw [List.mem_singleton.mp hb] at heq
    -- The id was drawn now, and every row's id was drawn before.
    exact hfresh (heq ▸ h.drawn a ha)
  jobKey := h.jobKey
  clickLink := by
    intro c hc
    rcases h.clickLink c hc with ⟨r, hr, hid⟩
    exact ⟨r, List.mem_append_left _ hr, hid⟩
  counted := by
    intro r hr
    rcases List.mem_append.mp hr with hr | hr
    · exact h.counted r hr
    · rw [List.mem_singleton.mp hr, hzero]
      exact (clicksOf_fresh h hfresh).symm
  txKey := h.txKey
  pending := by
    intro t ht c hc
    rcases h.pending t ht c hc with ⟨⟨r, hr, hid⟩, hjob⟩
    exact ⟨⟨r, List.mem_append_left _ hr, hid⟩, hjob⟩
  pendingKey := h.pendingKey
  bumped := by
    intro t ht b hb
    rcases h.bumped t ht b hb with ⟨⟨r, hr, hbr⟩, hc⟩
    exact ⟨⟨r, List.mem_append_left _ hr, hbr⟩, hc⟩
  bumpKey := h.bumpKey

/-- A new link's id is none a settled job could name. -/
theorem settled_insertLink {data : ClickJobData} (h : Settled db data) {row : LinkRow}
    (hfresh : row.id ∉ db.ids) :
    Settled { db with ids := row.id :: db.ids, links := db.links ++ [row] } data := by
  refine ⟨List.mem_cons_of_mem _ h.1, ?_⟩
  rintro ⟨r, hr, hid⟩
  rcases List.mem_append.mp hr with hr | hr
  · exact h.2 ⟨r, hr, hid⟩
  · rw [List.mem_singleton.mp hr] at hid
    exact absurd (hid ▸ h.1) hfresh

/-- Rewriting rows in place keeps the invariant when identity and counter stay
    and no row with a pending version is touched. -/
theorem txOk_mapLinks (h : TxOk db) {f : LinkRow → LinkRow}
    (hid : ∀ r ∈ db.links, (f r).id = r.id)
    (hcount : ∀ r ∈ db.links, (f r).clickCount = r.clickCount)
    (hlock : ∀ r ∈ db.links, db.rowLocked r.id = true → f r = r) :
    TxOk { db with links := db.links.map f } where
  drawn := by
    intro r hr
    rcases List.mem_map.mp hr with ⟨a, ha, rfl⟩
    rw [hid a ha]
    exact h.drawn a ha
  linkKey := by
    rw [List.pairwise_map]
    refine h.linkKey.imp_of_mem fun {a b} ha hb hne => ?_
    rw [hid a ha, hid b hb]
    exact hne
  jobKey := h.jobKey
  clickLink := by
    intro c hc
    rcases h.clickLink c hc with ⟨r, hr, hrid⟩
    exact ⟨f r, List.mem_map_of_mem hr, (hid r hr).trans hrid⟩
  counted := by
    intro r hr
    rcases List.mem_map.mp hr with ⟨a, ha, rfl⟩
    rw [hid a ha, hcount a ha]
    exact h.counted a ha
  txKey := h.txKey
  pending := by
    intro t ht c hc
    rcases h.pending t ht c hc with ⟨⟨r, hr, hrid⟩, hjob⟩
    exact ⟨⟨f r, List.mem_map_of_mem hr, (hid r hr).trans hrid⟩, hjob⟩
  pendingKey := h.pendingKey
  bumped := by
    intro t ht b hb
    rcases h.bumped t ht b hb with ⟨⟨r, hr, hbr⟩, hc⟩
    -- A bumped row is locked, so it is not rewritten.
    have hlocked : db.rowLocked r.id = true := by
      unfold rowLocked
      rw [List.any_eq_true]
      refine ⟨t, ht, ?_⟩
      rw [hb, hbr]
      simp only [Option.any_some, bump, beq_self_eq_true]
    refine ⟨⟨r, ?_, hbr⟩, hc⟩
    rw [← hlock r hr hlocked]
    exact List.mem_map_of_mem hr
  bumpKey := h.bumpKey

theorem settled_mapLinks {data : ClickJobData} (h : Settled db data) {f : LinkRow → LinkRow}
    (hid : ∀ r ∈ db.links, (f r).id = r.id) :
    Settled { db with links := db.links.map f } data := by
  refine ⟨h.1, ?_⟩
  rintro ⟨r, hr, hrid⟩
  rcases List.mem_map.mp hr with ⟨a, ha, rfl⟩
  exact h.2 ⟨a, ha, (hid a ha).symm.trans hrid⟩

/-- Deleting a link with its clicks, while no transaction holds either. -/
theorem txOk_deleteLink (h : TxOk db) {id userId : String} {row : LinkRow}
    (hrow : db.links.find? (ownedBy id userId) = some row) (hlock : db.rowLocked row.id = false)
    (hshare : db.keyShared row.id = false) :
    TxOk { db with links := db.links.filter (fun r => !ownedBy id userId r),
                   clicks := db.clicks.filter (fun c => c.linkId != row.id) } := by
  have hmem := List.mem_of_find?_eq_some hrow
  -- The condition of the delete picks out exactly the row with that id.
  have hkeep : ∀ r ∈ db.links, r.id ≠ row.id →
      r ∈ db.links.filter (fun r => !ownedBy id userId r) := by
    intro r hr hne
    rw [List.mem_filter, Bool.not_eq_true', Bool.eq_false_iff]
    refine ⟨hr, fun how => hne ?_⟩
    rw [(ownedBy_found h.linkKey hrow hr).mp how]
  have hgone : ∀ r ∈ db.links.filter (fun r => !ownedBy id userId r),
      r ∈ db.links ∧ r.id ≠ row.id := by
    intro r hr
    rw [List.mem_filter, Bool.not_eq_true', Bool.eq_false_iff] at hr
    refine ⟨hr.1, fun hid => hr.2 ?_⟩
    exact (ownedBy_found h.linkKey hrow hr.1).mpr (link_unique h hr.1 hmem hid)
  refine ⟨?_, h.linkKey.filter _, h.jobKey.filter _, ?_, ?_, h.txKey, ?_, h.pendingKey, ?_,
    h.bumpKey⟩
  · exact fun r hr => h.drawn r (hgone r hr).1
  · intro c hc
    rw [List.mem_filter, bne_iff_ne] at hc
    rcases h.clickLink c hc.1 with ⟨r, hr, hid⟩
    exact ⟨r, hkeep r hr (by rw [hid]; exact hc.2), hid⟩
  · intro r hr
    rw [h.counted r (hgone r hr).1]
    unfold clicksOf
    rw [List.filter_filter]
    congr 1
    refine List.filter_congr fun c _ => ?_
    by_cases hc : c.linkId = r.id
    · simp only [hc, beq_self_eq_true, Bool.true_and, Bool.true_eq, bne_iff_ne]
      exact (hgone r hr).2
    · simp only [beq_eq_false_iff_ne.mpr hc, Bool.false_and]
  · intro t ht c hc
    rcases h.pending t ht c hc with ⟨⟨r, hr, hid⟩, hjob⟩
    refine ⟨⟨r, hkeep r hr ?_, hid⟩, fun k hk => hjob k (List.mem_filter.mp hk).1⟩
    rw [hid]
    exact keyShared_false hshare ht hc
  · intro t ht b hb
    rcases h.bumped t ht b hb with ⟨⟨r, hr, hbr⟩, hc⟩
    refine ⟨⟨r, hkeep r hr ?_, hbr⟩, hc⟩
    have hne := rowLocked_false hlock ht hb
    rw [hbr] at hne
    exact hne

/-- A click that is deleted takes its link with it. -/
theorem settled_deleteLink (h : TxOk db) {data : ClickJobData} (hs : Settled db data)
    {id userId : String} {row : LinkRow} (hrow : db.links.find? (ownedBy id userId) = some row) :
    Settled { db with links := db.links.filter (fun r => !ownedBy id userId r),
                      clicks := db.clicks.filter (fun c => c.linkId != row.id) } data := by
  refine ⟨hs.1, ?_⟩
  rintro ⟨r, hr, hid⟩
  rw [List.mem_filter, Bool.not_eq_true', Bool.eq_false_iff] at hr
  rcases hs.2 ⟨r, hr.1, hid⟩ with ⟨k, hk, hjob, hlink⟩
  refine ⟨k, ?_, hjob, hlink⟩
  rw [List.mem_filter, bne_iff_ne]
  refine ⟨hk, fun heq => hr.2 ?_⟩
  have hmem := List.mem_of_find?_eq_some hrow
  rw [link_unique h hr.1 hmem (by rw [hid, ← hlink, heq])]
  exact List.find?_some hrow

end Owner

section Worker

variable {db : Db} {tid : Nat}

/-- Fewer transactions are fewer obligations. -/
theorem txOk_sublist (h : TxOk db) {txs : List ClickTx} (hsub : txs.Sublist db.txs) :
    TxOk { db with txs := txs } :=
  { h with
    txKey := h.txKey.sublist hsub
    pending := fun t ht => h.pending t (hsub.subset ht)
    pendingKey := h.pendingKey.sublist hsub
    bumped := fun t ht => h.bumped t (hsub.subset ht)
    bumpKey := h.bumpKey.sublist hsub }

theorem txOk_close (h : TxOk db) : TxOk (db.closeTx tid) :=
  txOk_sublist h List.filter_sublist

theorem txOk_begin (h : TxOk db) (hnone : db.txOf tid = none) :
    TxOk { db with
      txs := { tid := tid, aborted := false, inserted := none, bumped := none } :: db.txs } where
  drawn := h.drawn
  linkKey := h.linkKey
  jobKey := h.jobKey
  clickLink := h.clickLink
  counted := h.counted
  txKey := by
    rw [List.pairwise_cons]
    refine ⟨fun u hu heq => ?_, h.txKey⟩
    unfold txOf at hnone
    rw [List.find?_eq_none] at hnone
    exact hnone u hu (beq_iff_eq.mpr heq.symm)
  -- A transaction that begins has inserted nothing and bumped nothing.
  pending := by
    intro t ht c hc
    rcases List.mem_cons.mp ht with rfl | ht
    · cases hc
    · exact h.pending t ht c hc
  pendingKey := by
    rw [List.pairwise_cons]
    exact ⟨fun u _ c k hc _ => (by cases hc), h.pendingKey⟩
  bumped := by
    intro t ht b hb
    rcases List.mem_cons.mp ht with rfl | ht
    · cases hb
    · exact h.bumped t ht b hb
  bumpKey := by
    rw [List.pairwise_cons]
    exact ⟨fun u _ a b ha _ => (by cases ha), h.bumpKey⟩

/-- A symmetric relation between any two transactions survives replacing one of
    them, if the new one stands in it with all the others. -/
theorem pairwise_setTx {R : ClickTx → ClickTx → Prop} {f : ClickTx → ClickTx} (h : TxOk db)
    (hR : db.txs.Pairwise R) (hsymm : ∀ t u, R t u → R u t)
    (hnew : ∀ t ∈ db.txs, t.tid = tid → ∀ u ∈ db.txs, u.tid ≠ tid → R (f t) u) :
    (db.setTx tid f).txs.Pairwise R := by
  unfold setTx
  rw [List.pairwise_map]
  refine (h.txKey.and hR).imp_of_mem fun {t u} ht hu hboth => ?_
  by_cases htid : t.tid = tid
  · have hutid : u.tid ≠ tid := fun hu' => hboth.1 (htid.trans hu'.symm)
    rw [if_pos (beq_iff_eq.mpr htid), if_neg (by rw [beq_iff_eq]; exact hutid)]
    exact hnew t ht htid u hu hutid
  · rw [if_neg (by rw [beq_iff_eq]; exact htid)]
    by_cases hutid : u.tid = tid
    · rw [if_pos (beq_iff_eq.mpr hutid)]
      exact hsymm _ _ (hnew u hu hutid t ht htid)
    · rw [if_neg (by rw [beq_iff_eq]; exact hutid)]
      exact hboth.2

theorem txKey_setTx {f : ClickTx → ClickTx} (h : TxOk db) (hf : ∀ t, (f t).tid = t.tid) :
    (db.setTx tid f).txs.Pairwise (fun t u => t.tid ≠ u.tid) :=
  pairwise_setTx h h.txKey (fun _ _ hne => hne.symm)
    (fun t _ htid _ _ hu heq => hu (heq.symm.trans ((hf t).trans htid)))

/-- No two transactions have clicks of one job. -/
theorem pendingKey_setTx {f : ClickTx → ClickTx} (h : TxOk db)
    (hnew : ∀ t ∈ db.txs, t.tid = tid → ∀ u ∈ db.txs, u.tid ≠ tid → ∀ c k,
      (f t).inserted = some c → u.inserted = some k → c.jobId ≠ k.jobId) :
    (db.setTx tid f).txs.Pairwise (fun t u => ∀ c k, t.inserted = some c → u.inserted = some k →
      c.jobId ≠ k.jobId) :=
  pairwise_setTx h h.pendingKey (fun _ _ hne c k hc hk => (hne k c hk hc).symm) hnew

/-- No two transactions have bumped one row. -/
theorem bumpKey_setTx {f : ClickTx → ClickTx} (h : TxOk db)
    (hnew : ∀ t ∈ db.txs, t.tid = tid → ∀ u ∈ db.txs, u.tid ≠ tid → ∀ a b,
      (f t).bumped = some a → u.bumped = some b → a.id ≠ b.id) :
    (db.setTx tid f).txs.Pairwise (fun t u => ∀ a b, t.bumped = some a → u.bumped = some b →
      a.id ≠ b.id) :=
  pairwise_setTx h h.bumpKey (fun _ _ hne a b ha hb => (hne b a hb ha).symm) hnew

/-- A failed transaction gives its work up. -/
theorem txOk_aborted (h : TxOk db) : TxOk (db.aborted tid) where
  drawn := h.drawn
  linkKey := h.linkKey
  jobKey := h.jobKey
  clickLink := h.clickLink
  counted := h.counted
  -- The failed transaction stays open, with nothing pending.
  txKey := txKey_setTx h (fun _ => rfl)
  pending := by
    intro t ht c hc
    rcases mem_setTx ht with ⟨ht, _⟩ | ⟨u, _, _, rfl⟩
    · exact h.pending t ht c hc
    · cases hc
  pendingKey := pendingKey_setTx h (fun _ _ _ _ _ _ _ _ hc _ => (by cases hc))
  bumped := by
    intro t ht b hb
    rcases mem_setTx ht with ⟨ht, _⟩ | ⟨u, _, _, rfl⟩
    · exact h.bumped t ht b hb
    · cases hb
  bumpKey := bumpKey_setTx h (fun _ _ _ _ _ _ _ _ ha _ => (by cases ha))

/-- A click insert that went through: the job id is nobody else's, and the
    link is there. -/
theorem txOk_inserted (h : TxOk db) {t : ClickTx} {c : ClickRow} (ht : db.txOf tid = some t)
    (hbump : t.bumped = none) (hpend : db.jobPending tid c.jobId = false)
    (hjob : ∀ k ∈ db.clicks, k.jobId ≠ c.jobId) (hlink : db.HasLink c.linkId) :
    TxOk (db.withInserted tid c) where
  drawn := fun r hr => List.mem_cons_of_mem _ (h.drawn r hr)
  linkKey := h.linkKey
  jobKey := h.jobKey
  clickLink := h.clickLink
  counted := h.counted
  txKey := txKey_setTx h (fun _ => rfl)
  pending := by
    intro u hu k hk
    rcases mem_setTx hu with ⟨hu, _⟩ | ⟨v, _, _, rfl⟩
    · exact h.pending u hu k hk
    · rw [Option.some.injEq] at hk
      rw [← hk]
      exact ⟨hlink, hjob⟩
  pendingKey := by
    -- No other transaction has a click of this job: the insert would have waited for it.
    refine pendingKey_setTx h (fun v _ _ u hu hne a k ha hk => ?_)
    rw [Option.some.injEq] at ha
    rw [← ha]
    exact (jobPending_false hpend hu hne hk).symm
  bumped := by
    intro u hu b hb
    rcases mem_setTx hu with ⟨hu, _⟩ | ⟨v, hv, hvid, rfl⟩
    · exact h.bumped u hu b hb
    · rw [tx_unique h hv (txOf_mem ht).1 (hvid.trans (txOf_mem ht).2.symm)] at hb
      have hb' : t.bumped = some b := hb
      rw [hbump] at hb'
      cases hb'
  bumpKey := by
    -- The transaction has bumped no row yet.
    have hv : ∀ v ∈ db.txs, v.tid = tid → v.bumped = none := by
      intro v hv hvid
      rw [tx_unique h hv (txOf_mem ht).1 (hvid.trans (txOf_mem ht).2.symm)]
      exact hbump
    refine bumpKey_setTx h (fun v hmem hvid u _ _ a b ha _ => ?_)
    have ha' : v.bumped = some a := ha
    rw [hv v hmem hvid] at ha'
    cases ha'

/-- A counter update that went through: the row is nobody else's, and belongs
    to the click the transaction inserted. -/
theorem txOk_bumped (h : TxOk db) {t : ClickTx} {c : ClickRow} {row : LinkRow}
    (ht : db.txOf tid = some t) (hins : t.inserted = some c) (hlink : c.linkId = row.id)
    (hrow : row ∈ db.links) (hlock : db.rowLocked row.id = false) :
    TxOk (db.withBumped tid (bump row)) where
  drawn := h.drawn
  linkKey := h.linkKey
  jobKey := h.jobKey
  clickLink := h.clickLink
  counted := h.counted
  txKey := txKey_setTx h (fun _ => rfl)
  pending := by
    intro u hu k hk
    rcases mem_setTx hu with ⟨hu, _⟩ | ⟨v, hv, _, rfl⟩
    · exact h.pending u hu k hk
    · exact h.pending v hv k hk
  pendingKey := by
    refine pendingKey_setTx h (fun v hv hvid u hu hne a k ha hk => ?_)
    -- The pending clicks are what they were.
    have hne' : v ≠ u := fun heq => hne (heq ▸ hvid)
    exact txs_forall (fun _ _ hR c k hc hk heq => hR k c hk hc heq.symm) h.pendingKey hv hu hne'
      a k ha hk
  bumped := by
    intro u hu b hb
    rcases mem_setTx hu with ⟨hu, _⟩ | ⟨v, hv, hvid, rfl⟩
    · exact h.bumped u hu b hb
    · rw [Option.some.injEq] at hb
      rw [← hb]
      -- The row bumped is the one the transaction's own click counts for.
      refine ⟨⟨row, hrow, rfl⟩, c, ?_, hlink⟩
      rw [tx_unique h hv (txOf_mem ht).1 (hvid.trans (txOf_mem ht).2.symm)]
      exact hins
  bumpKey := by
    -- No other transaction has bumped the row: the update would have waited for it.
    refine bumpKey_setTx h (fun v _ _ u hu _ a b ha hb => ?_)
    rw [Option.some.injEq] at ha
    rw [← ha]
    exact (rowLocked_false hlock hu hb).symm

/-- One more click of a link. -/
theorem clicksOf_append (clicks : List ClickRow) (c : ClickRow) (id : String) :
    ((clicks ++ [c]).filter (fun k => k.linkId == id)).length
      = (clicks.filter (fun k => k.linkId == id)).length + if c.linkId = id then 1 else 0 := by
  rw [List.filter_append, List.length_append]
  by_cases hc : c.linkId = id
  · simp only [hc, if_true, List.filter_cons, beq_self_eq_true, List.filter_nil,
      List.length_singleton]
  · simp only [hc, if_false, List.filter_cons, beq_eq_false_iff_ne.mpr hc, List.filter_nil,
      List.length_nil, Bool.false_eq_true]

/-- Committing a complete transaction: its click and its row version go in
    together, and the counter is right again. -/
theorem txOk_apply (h : TxOk db) {t : ClickTx} (ht : db.txOf tid = some t) (hc : Complete t) :
    TxOk ((db.applyTx t).closeTx tid) := by
  rcases txOf_mem ht with ⟨hmem, htid⟩
  rcases hins : t.inserted with _ | c
  · -- Nothing was inserted, so nothing was bumped either.
    have hbump : t.bumped = none := by
      rcases hb : t.bumped with _ | b
      · rfl
      · rcases (h.bumped t hmem b hb).2 with ⟨c, hc', _⟩
        rw [hins] at hc'
        cases hc'
    have hsame : db.applyTx t = db := by
      unfold applyTx
      rw [hins, hbump]
      simp only [Option.toList_none, List.append_nil, List.map_id']
    rw [hsame]
    exact txOk_close h
  · have hsome := hc.2 (by rw [hins]; rfl)
    rcases Option.isSome_iff_exists.mp hsome with ⟨b, hb⟩
    rcases h.bumped t hmem b hb with ⟨⟨row, hrow, hbr⟩, c', hc', hcb⟩
    rw [hins, Option.some.injEq] at hc'
    subst hc'
    have hbid : b.id = row.id := by rw [hbr]; rfl
    have happ : (db.applyTx t).closeTx tid = { db with
        clicks := db.clicks ++ [c]
        links := db.links.map (fun r => if r.id == b.id then b else r)
        txs := db.txs.filter (fun u => u.tid != tid) } := by
      simp only [applyTx, closeTx, hins, hb, Option.toList_some]
    have hfid : ∀ r, (if r.id == b.id then b else r).id = r.id := by
      intro r
      by_cases hr : r.id = b.id
      · rw [if_pos (beq_iff_eq.mpr hr), hr]
      · rw [if_neg (by rw [beq_iff_eq]; exact hr)]
    have hother : ∀ u ∈ db.txs.filter (fun u => u.tid != tid), u ∈ db.txs ∧ u ≠ t := by
      intro u hu
      rw [List.mem_filter, bne_iff_ne] at hu
      exact ⟨hu.1, fun heq => hu.2 (heq ▸ htid)⟩
    have hhas : ∀ id, db.HasLink id →
        ∃ r ∈ db.links.map (fun r => if r.id == b.id then b else r), r.id = id := by
      rintro id ⟨r, hr, hid⟩
      exact ⟨_, List.mem_map_of_mem hr, (hfid r).trans hid⟩
    rw [happ]
    constructor
    · intro r hr
      rcases List.mem_map.mp hr with ⟨a, ha, rfl⟩
      rw [hfid]
      exact h.drawn a ha
    · rw [List.pairwise_map]
      refine h.linkKey.imp fun {x y} hne => ?_
      rw [hfid, hfid]
      exact hne
    · rw [List.pairwise_append]
      refine ⟨h.jobKey, List.pairwise_singleton _ _, fun k hk k' hk' => ?_⟩
      rw [List.mem_singleton.mp hk']
      exact (h.pending t hmem c hins).2 k hk
    · intro k hk
      rcases List.mem_append.mp hk with hk | hk
      · exact hhas _ (h.clickLink k hk)
      · rw [List.mem_singleton.mp hk]
        exact hhas _ (h.pending t hmem c hins).1
    · intro r hr
      rcases List.mem_map.mp hr with ⟨a, ha, rfl⟩
      rw [hfid]
      unfold clicksOf
      simp only
      rw [clicksOf_append]
      by_cases hid : a.id = b.id
      · have harow : a = row := link_unique h ha hrow (hid.trans hbid)
        rw [if_pos (beq_iff_eq.mpr hid), if_pos (hcb.trans hid.symm), hbr, harow]
        exact congrArg (· + 1) (h.counted row hrow)
      · rw [if_neg (by rw [beq_iff_eq]; exact hid), if_neg (fun heq => hid (heq.symm.trans hcb))]
        exact h.counted a ha
    · exact h.txKey.filter _
    · intro u hu k hk
      rcases hother u hu with ⟨hu, hne⟩
      refine ⟨hhas _ (h.pending u hu k hk).1, fun k' hk' => ?_⟩
      rcases List.mem_append.mp hk' with hk' | hk'
      · exact (h.pending u hu k hk).2 k' hk'
      · rw [List.mem_singleton.mp hk']
        exact txs_forall (fun _ _ hR c k hc hk heq => hR k c hk hc heq.symm) h.pendingKey hmem hu
          (Ne.symm hne) c k hins hk
    · exact h.pendingKey.filter _
    · intro u hu b' hb'
      rcases hother u hu with ⟨hu, hne⟩
      rcases h.bumped u hu b' hb' with ⟨⟨r, hr, hbr'⟩, hc''⟩
      have hneid : b.id ≠ b'.id :=
        txs_forall (fun _ _ hR a b ha hb heq => hR b a hb ha heq.symm) h.bumpKey hmem hu
          (Ne.symm hne) b b' hb hb'
      refine ⟨⟨r, List.mem_map.mpr ⟨r, hr, ?_⟩, hbr'⟩, hc''⟩
      rw [if_neg]
      rw [beq_iff_eq]
      intro heq
      exact hneid (heq.symm.trans (by rw [hbr']; rfl))
    · exact h.bumpKey.filter _

end Worker

end Db

end ClickScope
