import ClickScope.Theory.Creation

/-!
# Writes the Cache is not Told of

What the worker and the sweep do to a row behind the back of the cache.

Owners' writes invalidate the cache; the click counter and the expiry sweep do
not. `KeptRow` says how little a row changes by these two, and `CachedRow` what
a cached copy of a row therefore keeps in common with it: everything but the
click count, and the active flag unless the row has expired. `exec_kept` proves
it of every statement other than the three that write links for their owner.

The sweep may not touch a row with an uncommitted click, so the new version a
click transaction installs later still differs from its row by the count alone.
That, and the two unique keys of the table, is `TableOk`.

## Main definitions

* `KeptRow`: How a row changes behind the cache's back.
* `CachedRow`: A cached copy of a row.
* `TableOk`: The keys of the links and the uncommitted versions.

## Theorems

* `cachedRow_kept`: A copy stays one.
* `exec_kept`: The statements that are no owner's writes.
* `insertLink_tableOk`, `updateLink_tableOk`, `deleteLink_tableOk`: The others
  keep the keys.
-/

namespace ClickScope

open Async

/-- The row's expiry has passed. -/
def expired (now : Nat) (row : LinkRow) : Bool :=
  row.expiresAt.any (fun t => decide (t ≤ (now : Int)))

/-- A row before and after a write the cache is not told of. -/
structure KeptRow (now : Nat) (r r' : LinkRow) : Prop where
  same : r' = { r with clickCount := r'.clickCount, isActive := r'.isActive,
                       updatedAt := r'.updatedAt }
  active : r'.isActive = r.isActive ∨ (r'.isActive = false ∧ expired now r = true)

/-- A copy of a row, up to the click count, and the active flag of a row that
    has expired. -/
structure CachedRow (now : Nat) (link : RedirectLink) (row : LinkRow) : Prop where
  same : link = { toRedirectLink row with clickCount := link.clickCount,
                                          isActive := link.isActive }
  active : link.isActive = row.isActive ∨ (row.isActive = false ∧ expired now row = true)

section Rows

variable {now now' : Nat} {r r' : LinkRow} {link : RedirectLink}

theorem KeptRow.id (h : KeptRow now r r') : r'.id = r.id := by rw [h.same]
theorem KeptRow.shortCode (h : KeptRow now r r') : r'.shortCode = r.shortCode := by rw [h.same]
theorem KeptRow.expired (h : KeptRow now r r') (t : Nat) : expired t r' = expired t r := by
  unfold ClickScope.expired
  rw [h.same]

theorem keptRow_refl (now : Nat) (r : LinkRow) : KeptRow now r r := ⟨rfl, Or.inl rfl⟩

/-- A new count alone. -/
theorem keptRow_count (now n : Nat) (r : LinkRow) : KeptRow now r { r with clickCount := n } :=
  ⟨rfl, Or.inl rfl⟩

theorem expired_later (hle : now ≤ now') (h : expired now r = true) : expired now' r = true := by
  unfold expired at h ⊢
  rcases hexp : r.expiresAt with _ | t
  · rw [hexp] at h
    cases h
  · rw [hexp] at h
    simp only [Option.any_some, decide_eq_true_eq] at h ⊢
    omega

/-- What had expired when the sweep began has expired. -/
theorem keptRow_deactivate {start : Nat} (hle : start ≤ now)
    (h : Db.sweepMatches now start r = true) : KeptRow now r (Db.deactivate start r) := by
  simp only [Db.sweepMatches, Bool.and_eq_true] at h
  exact ⟨rfl, Or.inr ⟨rfl, expired_later hle h.1.2⟩⟩

/-- A row's own copy. -/
theorem cachedRow_self (now : Nat) (r : LinkRow) : CachedRow now (toRedirectLink r) r :=
  ⟨rfl, Or.inl rfl⟩

theorem cachedRow_later (hle : now ≤ now') (h : CachedRow now link r) : CachedRow now' link r :=
  ⟨h.same, h.active.imp_right (fun ha => ⟨ha.1, expired_later hle ha.2⟩)⟩

/-- What the cache is not told of, its copies need not know. -/
theorem cachedRow_kept (h : CachedRow now link r) (hk : KeptRow now r r') :
    CachedRow now link r' := by
  refine ⟨?_, ?_⟩
  · have hsame := h.same
    have hrow := hk.same
    rw [hsame, hrow]
    rfl
  · rw [hk.expired now]
    rcases hk.active with hactive | ⟨hoff, hexp⟩
    · rw [hactive]
      exact h.active
    · exact Or.inr ⟨hoff, hexp⟩

end Rows

/-- The keys of the links hold, and an uncommitted version of a row differs from
    it by its click count. -/
structure TableOk (db : Db) : Prop where
  ids : db.links.Pairwise (fun a b => a.id ≠ b.id)
  codes : UniqueCodes db
  drawn : ∀ r ∈ db.links, r.id ∈ db.ids
  bumped : ∀ t ∈ db.txs, ∀ b, t.bumped = some b →
    ∃ r ∈ db.links, b = { r with clickCount := b.clickCount }

/-- A statement by which an owner writes links. -/
def Stmt.ownerWrites : Stmt → Bool
  | .insertLink _ | .updateLink _ _ _ _ | .deleteLink _ _ => true
  | _ => false

section Statements

variable {pg : Postgres} {now tid : Nat} {ch : Choice} {db db' : Db}

/-- Rows that are rewritten one by one, keeping their ids and codes. -/
theorem pairwise_map_key {α : Type} {l : List LinkRow} {f : LinkRow → LinkRow} {key : LinkRow → α}
    (hf : ∀ r ∈ l, key (f r) = key r) (h : l.Pairwise (fun a b => key a ≠ key b)) :
    (l.map f).Pairwise (fun a b => key a ≠ key b) := by
  rw [List.pairwise_map]
  refine h.imp_of_mem (fun ha hb hne => ?_)
  rw [hf _ ha, hf _ hb]
  exact hne

/-- The table after its rows were rewritten one by one. -/
theorem tableOk_map {f : LinkRow → LinkRow} (h : TableOk db)
    (hkey : ∀ r ∈ db.links, (f r).id = r.id ∧ (f r).shortCode = r.shortCode)
    (hlinks : db'.links = db.links.map f) (hids : ∀ x ∈ db.ids, x ∈ db'.ids)
    (hbumped : ∀ t ∈ db'.txs, ∀ b, t.bumped = some b →
      ∃ r ∈ db.links, b = { f r with clickCount := b.clickCount }) : TableOk db' where
  -- The keys are those of the old rows.
  ids := by
    rw [hlinks]
    exact pairwise_map_key (fun r hr => (hkey r hr).1) h.ids
  codes := by
    unfold UniqueCodes
    rw [hlinks]
    exact pairwise_map_key (fun r hr => (hkey r hr).2) h.codes
  drawn := by
    intro r hr
    rw [hlinks] at hr
    rcases List.mem_map.mp hr with ⟨a, ha, rfl⟩
    rw [(hkey a ha).1]
    exact hids _ (h.drawn a ha)
  bumped := by
    intro t ht b hb
    rcases hbumped t ht b hb with ⟨r, hr, heq⟩
    rw [hlinks]
    exact ⟨f r, List.mem_map_of_mem hr, heq⟩

/-- What the rows of a table have become. -/
def KeptDb (now : Nat) (db db' : Db) : Prop :=
  ∃ f : LinkRow → LinkRow, db'.links = db.links.map f ∧ ∀ r ∈ db.links, KeptRow now r (f r)

theorem keptDb_same (hlinks : db'.links = db.links) : KeptDb now db db' :=
  ⟨id, by rw [hlinks, List.map_id], fun r _ => keptRow_refl now r⟩

/-- The uncommitted versions after a statement. -/
theorem bumped_after {s : Stmt} {r : Except DbError s.Rows} (h : TableOk db)
    (hx : Db.exec pg now tid s ch db = some (r, db')) {t : ClickTx} (ht : t ∈ db'.txs)
    {b : LinkRow} (hb : t.bumped = some b) :
    ∃ row ∈ db.links, b = { row with clickCount := b.clickCount } := by
  rcases Db.exec_bumped_mem hx ht hb with ⟨t', ht', hb'⟩ | ⟨row, hrow, heq⟩
  · exact h.bumped t' ht' b hb'
  · exact ⟨row, hrow, by rw [heq]⟩

/-- An uncommitted version locks its row. -/
theorem bumped_id_ne {t : ClickTx} (ht : t ∈ db.txs) {b : LinkRow} (hb : t.bumped = some b)
    {id : String} (hfree : db.rowLocked id = false) : b.id ≠ id := by
  intro hid
  have hlocked : db.rowLocked id = true := by
    simp only [Db.rowLocked, List.any_eq_true, Option.any_eq_true, beq_iff_eq]
    exact ⟨t, ht, b, hb, hid⟩
  rw [hfree] at hlocked
  cases hlocked

theorem sweepExpired_kept {r : Except DbError Nat} (h : TableOk db)
    (hx : Db.exec pg now tid .sweepExpired ch db = some (r, db')) :
    KeptDb now db db' ∧ TableOk db' := by
  rcases Db.sweepExpired_inv hx with ⟨hunlocked, _, rfl⟩
  -- A row is deactivated or left as it is.
  have hf : ∀ x ∈ db.links, KeptRow now x
      (if Db.sweepMatches now (now - ch.waited) x then Db.deactivate (now - ch.waited) x
        else x) := by
    intro x _
    by_cases hm : Db.sweepMatches now (now - ch.waited) x = true
    · rw [if_pos hm]
      exact keptRow_deactivate (Nat.sub_le _ _) hm
    · rw [if_neg hm]
      exact keptRow_refl now x
  refine ⟨⟨_, rfl, hf⟩, tableOk_map h (fun x hx => ⟨(hf x hx).id, (hf x hx).shortCode⟩) rfl
    (fun _ hid => hid) (fun t ht b hb => ?_)⟩
  -- The row of an uncommitted version is locked, so it was not swept.
  rcases h.bumped t ht b hb with ⟨row, hrow, heq⟩
  refine ⟨row, hrow, ?_⟩
  by_cases hm : Db.sweepMatches now (now - ch.waited) row = true
  · exact absurd (by rw [heq]) (bumped_id_ne ht hb (hunlocked row hrow hm))
  · rw [if_neg hm]
    exact heq

theorem commit_kept {r : Except DbError Unit} (h : TableOk db)
    (hx : Db.exec pg now tid .commit ch db = some (r, db')) :
    KeptDb now db db' ∧ TableOk db' := by
  -- A commit that installs no version leaves the rows alone.
  have hquiet : db'.links = db.links → db'.ids = db.ids → KeptDb now db db' ∧ TableOk db' := by
    intro hlinks hids
    refine ⟨keptDb_same hlinks, tableOk_map h (f := id) (fun _ _ => ⟨rfl, rfl⟩)
      (by rw [hlinks, List.map_id]) (by rw [hids]; exact fun _ hid => hid)
      (fun t ht b hb => bumped_after h hx ht hb)⟩
  rcases Db.commit_inv hx with ⟨_, _, rfl⟩ | ⟨t, ht, ⟨_, _, rfl⟩ | ⟨_, hdb⟩⟩
  · exact hquiet rfl rfl
  · exact hquiet rfl rfl
  · cases hab : t.aborted with
    | true =>
        rw [hab] at hdb
        exact hquiet (by rw [hdb]; rfl) (by rw [hdb]; rfl)
    | false =>
        rcases hbump : t.bumped with _ | b
        · refine hquiet ?_ (by rw [hdb, hab]; rfl)
          rw [hdb, hab]
          simp only [Bool.false_eq_true, if_false, Db.applyTx, hbump, Db.closeTx, List.map_id']
        · -- The new version is installed in place of the row with its id.
          have hmem : t ∈ db.txs := List.mem_of_find?_eq_some ht
          rcases h.bumped t hmem b hbump with ⟨row, hrow, heq⟩
          have hlinks : db'.links = db.links.map (fun r => if r.id == b.id then b else r) := by
            rw [hdb, hab]
            simp only [Bool.false_eq_true, if_false, Db.applyTx, hbump, Db.closeTx]
          -- The row with that id is the one the version was made from, so only its count differs.
          have hf : ∀ x ∈ db.links, (if x.id == b.id then b else x)
              = { x with clickCount := (if x.id == b.id then b else x).clickCount } := by
            intro x hx'
            by_cases hid : x.id = b.id
            · have hxrow : x = row := key_unique h.ids hx' hrow (by rw [hid, heq])
              rw [if_pos (beq_iff_eq.mpr hid), hxrow]
              exact heq
            · rw [if_neg (by rw [beq_iff_eq]; exact hid)]
          refine ⟨⟨_, hlinks, fun x hx' => ?_⟩, tableOk_map h (fun x hx' => ?_) hlinks ?_
            (fun t' ht' b' hb' => ?_)⟩
          · rw [hf x hx']
            exact keptRow_count now _ x
          · rw [hf x hx']
            exact ⟨rfl, rfl⟩
          · rw [hdb, hab]
            exact fun _ hid => hid
          · rcases bumped_after h hx ht' hb' with ⟨row', hrow', heq'⟩
            refine ⟨row', hrow', ?_⟩
            rw [hf row' hrow']
            exact heq'

/-- Every statement by which no owner writes links. -/
theorem exec_kept {s : Stmt} {r : Except DbError s.Rows} (hs : s.ownerWrites = false)
    (h : TableOk db) (hx : Db.exec pg now tid s ch db = some (r, db')) :
    KeptDb now db db' ∧ TableOk db' := by
  by_cases hw : s.writesLinks = false
  · have hlinks := Db.exec_links_eq hw hx
    exact ⟨keptDb_same hlinks, tableOk_map h (f := id) (fun _ _ => ⟨rfl, rfl⟩)
      (by rw [hlinks, List.map_id]) (Db.exec_ids_subset hx)
      (fun t ht b hb => bumped_after h hx ht hb)⟩
  · cases s with
    | insertLink | updateLink | deleteLink => cases hs
    | sweepExpired => exact sweepExpired_kept h hx
    | commit => exact commit_kept h hx
    | _ => exact absurd rfl hw

/-- Outside one code the table is as it was. -/
def OthersSame (code : String) (db db' : Db) : Prop :=
  ∀ x : LinkRow, x.shortCode ≠ code → (x ∈ db'.links ↔ x ∈ db.links)

theorem insertLink_tableOk {l : NewLink} {r : Except DbError (List LinkRow)} (h : TableOk db)
    (hx : Db.exec pg now tid (.insertLink l) ch db = some (r, db')) :
    TableOk db' ∧
    ((∃ row, r = .ok [row] ∧ row.shortCode = l.shortCode ∧ row ∈ db'.links ∧
        (∀ x ∈ db.links, x.shortCode ≠ l.shortCode) ∧ OthersSame l.shortCode db db') ∨
      (∃ e, r = .error e ∧ db'.links = db.links)) := by
  rcases Db.insertLink_inv hx with ⟨hfresh, ⟨rfl, hnew, rfl⟩ | ⟨e, rfl, ⟨ids, hids, rfl⟩, _⟩⟩
  · refine ⟨⟨?_, uniqueCodes_append h.codes hnew, fun x hmem => ?_, fun t ht b hb => ?_⟩,
      Or.inl ⟨_, rfl, rfl, List.mem_append_right _ (List.mem_singleton_self _), hnew,
        fun x hcode => ?_⟩⟩
    · refine List.pairwise_append.mpr ⟨h.ids, List.pairwise_singleton _ _, fun a ha b hb => ?_⟩
      rw [List.mem_singleton.mp hb]
      -- The new id was never drawn before.
      intro heq
      have hid : a.id = ch.draw := heq
      exact hfresh (hid ▸ h.drawn a ha)
    · rcases List.mem_append.mp hmem with hold | hlast
      · exact List.mem_cons_of_mem _ (h.drawn x hold)
      · rw [List.mem_singleton.mp hlast]
        exact List.mem_cons_self
    · -- The uncommitted versions are of rows that are still there.
      rcases h.bumped t ht b hb with ⟨row, hrow, heq⟩
      exact ⟨row, List.mem_append_left _ hrow, heq⟩
    · rw [List.mem_append, List.mem_singleton]
      refine ⟨fun hmem => hmem.resolve_right (fun heq => hcode ?_), Or.inl⟩
      rw [heq]
      rfl
  · exact ⟨⟨h.ids, h.codes, fun x hmem => hids _ (h.drawn x hmem), h.bumped⟩,
      Or.inr ⟨e, rfl, rfl⟩⟩

theorem updateLink_tableOk {set : List SetClause} {i u : Nat} {values : List SqlValue}
    {r : Except DbError (List LinkRow)} (h : TableOk db)
    (hx : Db.exec pg now tid (.updateLink set i u values) ch db = some (r, db')) :
    TableOk db' ∧
    ((db' = db ∧ ∀ row, r ≠ .ok [row]) ∨
      ∃ row, r = .ok [row] ∧ OthersSame row.shortCode db db') := by
  rcases Db.updateLink_inv hx with ⟨e, rfl, rfl⟩ | ⟨rfl, rfl⟩ |
    ⟨id, userId, row, row', _, _, _, hfind, hfree, _, hset, _, rfl, rfl⟩
  · exact ⟨h, Or.inl ⟨rfl, fun _ heq => by cases heq⟩⟩
  · exact ⟨h, Or.inl ⟨rfl, fun _ heq => by cases heq⟩⟩
  · rcases applySet_keeps hset with ⟨hid, _, _, hcode⟩
    have hrow := List.mem_of_find?_eq_some hfind
    -- The condition selects the one row that was found.
    have hmap : ∀ x ∈ db.links,
        (if Db.ownedBy id userId x then row' else x) = if x = row then row' else x := by
      intro x hx'
      by_cases heq : x = row
      · rw [if_pos heq, if_pos ((Db.ownedBy_found h.ids hfind hx').mpr heq)]
      · rw [if_neg heq, if_neg (fun ho => heq ((Db.ownedBy_found h.ids hfind hx').mp ho))]
    refine ⟨tableOk_map (f := fun x => if Db.ownedBy id userId x then row' else x) h
      (fun x hx' => ?_) rfl (fun _ hid' => hid') (fun t ht b hb => ?_),
      Or.inr ⟨row', rfl, fun x hne => ?_⟩⟩
    · rw [hmap x hx']
      by_cases heq : x = row
      · rw [if_pos heq, heq]
        exact ⟨hid, hcode⟩
      · rw [if_neg heq]
        exact ⟨rfl, rfl⟩
    · rcases h.bumped t ht b hb with ⟨y, hy, heq⟩
      -- The row of an uncommitted version is locked, so it was not the one updated.
      have hne : y.id ≠ row.id := by
        have hb' := bumped_id_ne ht hb hfree
        rw [heq] at hb'
        exact hb'
      refine ⟨y, hy, ?_⟩
      rw [hmap y hy, if_neg (fun hyrow => hne (by rw [hyrow]))]
      exact heq
    · rw [hcode] at hne
      refine ⟨fun hmem => ?_, fun hmem => List.mem_map.mpr ⟨x, hmem, ?_⟩⟩
      · -- A row with another code is none of the new version.
        rcases List.mem_map.mp hmem with ⟨y, hy, hyx⟩
        rw [hmap y hy] at hyx
        by_cases heq : y = row
        · rw [if_pos heq] at hyx
          rw [← hyx] at hne
          exact absurd hcode hne
        · rw [if_neg heq] at hyx
          exact hyx ▸ hy
      · rw [hmap x hmem, if_neg (fun hxrow => hne (by rw [hxrow]))]

theorem deleteLink_tableOk {id userId : String} {r : Except DbError (List (String × String))}
    (h : TableOk db) (hx : Db.exec pg now tid (.deleteLink id userId) ch db = some (r, db')) :
    TableOk db' ∧
    ((db' = db ∧ (r = .ok [] ∨ ∃ e, r = .error e)) ∨
      ∃ i code, r = .ok [(i, code)] ∧ OthersSame code db db') := by
  rcases Db.deleteLink_inv hx with ⟨e, _, rfl, rfl⟩ | ⟨_, rfl, rfl⟩ |
    ⟨row, hfind, hfree, _, rfl, rfl⟩
  · exact ⟨h, Or.inl ⟨rfl, Or.inr ⟨e, rfl⟩⟩⟩
  · exact ⟨h, Or.inl ⟨rfl, Or.inl rfl⟩⟩
  · refine ⟨⟨List.Pairwise.filter _ h.ids, List.Pairwise.filter _ h.codes,
      fun x hmem => h.drawn x (List.mem_filter.mp hmem).1, fun t ht b hb => ?_⟩,
      Or.inr ⟨row.id, row.shortCode, rfl, fun x hne => ?_⟩⟩
    · rcases h.bumped t ht b hb with ⟨y, hy, heq⟩
      -- A locked row is not deleted.
      have hyne : y.id ≠ row.id := by
        have hb' := bumped_id_ne ht hb hfree
        rw [heq] at hb'
        exact hb'
      refine ⟨y, List.mem_filter.mpr ⟨hy, ?_⟩, heq⟩
      rw [Bool.not_eq_true', Bool.eq_false_iff]
      exact fun ho => hyne (by rw [(Db.ownedBy_found h.ids hfind hy).mp ho])
    · rw [List.mem_filter]
      refine ⟨fun hmem => hmem.1, fun hmem => ⟨hmem, ?_⟩⟩
      rw [Bool.not_eq_true', Bool.eq_false_iff]
      exact fun ho => hne (by rw [(Db.ownedBy_found h.ids hfind hmem).mp ho])

end Statements

end ClickScope
