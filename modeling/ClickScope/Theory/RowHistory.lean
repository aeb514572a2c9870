import ClickScope.Theory.Integrity

/-!
# The History of a Row

What can become of a link and of a click between any two moments of a run.

A link keeps its id, its owner, its short code and the time of its creation.
Its counter only grows, although it is computed in one statement and installed
in a later one, with the owner's updates and the sweep in between. A link that
is gone never comes back, and a click that was counted is there for as long as
its link.

The time of the last update can go back: it is the moment a statement began at,
and a statement that had to wait began before those that went on meanwhile.

What one step does is `RowStep`. It is reflexive and transitive, so it holds
between any two moments of a run.

## Main definitions

* `Evolved`: A row and a later version of it.
* `RowStep`: What one step does to the rows.

## Theorems

* `exec_rowStep_db`: Every statement makes such a step.
* `moves_rowStep`: Every step of a run makes such a step.
* `rows_evolve`: Any two moments of a run.
-/

namespace ClickScope

open Async

/-- A link row, and what has become of it later. -/
structure Evolved (r r' : LinkRow) : Prop where
  id : r'.id = r.id
  userId : r'.userId = r.userId
  shortCode : r'.shortCode = r.shortCode
  createdAt : r'.createdAt = r.createdAt
  clickCount : r.clickCount ≤ r'.clickCount

theorem evolved_refl (r : LinkRow) : Evolved r r :=
  ⟨rfl, rfl, rfl, rfl, Nat.le_refl _⟩

theorem evolved_trans {a b c : LinkRow} (h : Evolved a b) (h' : Evolved b c) : Evolved a c :=
  ⟨h'.id.trans h.id, h'.userId.trans h.userId, h'.shortCode.trans h.shortCode,
    h'.createdAt.trans h.createdAt, h.clickCount.trans h'.clickCount⟩

/-- What a step does to the rows: a link afterwards is a version of one before,
    or new under an id of its own, and a click leaves with its link only. -/
structure RowStep (w w' : World) : Prop where
  ids : ∀ x ∈ w.db.ids, x ∈ w'.db.ids
  links : ∀ r' ∈ w'.db.links, (∃ r ∈ w.db.links, Evolved r r') ∨ r'.id ∉ w.db.ids
  clicks : ∀ k ∈ w.db.clicks, k.linkId ∈ w.db.ids →
    k ∈ w'.db.clicks ∨ ∀ r' ∈ w'.db.links, r'.id ≠ k.linkId

section Relation

variable {u v w : World}

/-- Two worlds with the same rows. -/
theorem rowStep_same (hlinks : w.db.links = v.db.links) (hclicks : w.db.clicks = v.db.clicks)
    (hids : ∀ x ∈ v.db.ids, x ∈ w.db.ids) : RowStep v w := by
  refine ⟨hids, ?_, ?_⟩
  · rw [hlinks]
    exact fun r hr => Or.inl ⟨r, hr, evolved_refl r⟩
  · rw [hclicks]
    exact fun k hk _ => Or.inl hk

theorem rowStep_trans (h : RowStep u v) (h' : RowStep v w) : RowStep u w where
  ids := fun x hx => h'.ids x (h.ids x hx)
  links := by
    intro r hr
    rcases h'.links r hr with ⟨m, hm, hev⟩ | hnew
    · rcases h.links m hm with ⟨r₀, hr₀, hev₀⟩ | hnew
      · exact Or.inl ⟨r₀, hr₀, evolved_trans hev₀ hev⟩
      · exact Or.inr (by rw [hev.id]; exact hnew)
    · exact Or.inr (fun hmem => hnew (h.ids _ hmem))
  clicks := by
    intro k hk hid
    rcases h.clicks k hk hid with hk' | hgone
    · exact h'.clicks k hk' (h.ids _ hid)
    · -- Without its link in between there is no such link afterwards either.
      refine Or.inr (fun r hr heq => ?_)
      rcases h'.links r hr with ⟨m, hm, hev⟩ | hnew
      · exact hgone m hm (hev.id.symm.trans heq)
      · exact hnew (heq ▸ h.ids _ hid)

/-- Rows that are rewritten in place. -/
theorem rowStep_map {f : LinkRow → LinkRow} (hlinks : w.db.links = v.db.links.map f)
    (hf : ∀ r ∈ v.db.links, Evolved r (f r)) (hclicks : ∀ k ∈ v.db.clicks, k ∈ w.db.clicks)
    (hids : ∀ x ∈ v.db.ids, x ∈ w.db.ids) : RowStep v w := by
  refine ⟨hids, fun r' hr' => ?_, fun k hk _ => Or.inl (hclicks k hk)⟩
  rw [hlinks] at hr'
  rcases List.mem_map.mp hr' with ⟨r, hr, rfl⟩
  exact Or.inl ⟨r, hr, hf r hr⟩

end Relation

section Steps

variable {pg : Postgres} {tid : Nat} {ch : Choice} {w : World} {db : Db}

/-- An update goes on from the row it found. -/
theorem updateLink_evolved {start : Nat} {set : List SetClause} {values : List SqlValue}
    {row row' : LinkRow} (hbind : values.findSome? SqlValue.bindError = none)
    (hset : applySet start values set row = .ok row') (h : ColumnsOk row) : Evolved row row' := by
  have hv : ∀ v ∈ values, v.bindError = none := List.findSome?_eq_none_iff.mp hbind
  rcases applySet_keeps hset with ⟨hid, hcount, huser, hcode⟩
  rcases applySet_columnsOk hv h hset with ⟨_, hcreated, _⟩
  exact ⟨hid, huser, hcode, hcreated, Nat.le_of_eq hcount.symm⟩

theorem exec_rowStep_db {s : Stmt} {r : Except DbError s.Rows} (hok : Db.TxOk w.db)
    (h : RowsOk pg w) (hx : w.db.exec pg w.now tid s ch = some (r, db)) :
    RowStep w { w with db := db } := by
  cases s with
  | insertLink l =>
      rcases Db.insertLink_inv hx with ⟨hfresh, ⟨_, _, rfl⟩ | ⟨_, _, ⟨ids, hids, rfl⟩, _⟩⟩
      · refine ⟨fun _ hid => List.mem_cons_of_mem _ hid, fun r' hr' => ?_, fun k hk _ => Or.inl hk⟩
        rcases List.mem_append.mp hr' with hold | hnew
        · exact Or.inl ⟨r', hold, evolved_refl r'⟩
        · rw [List.mem_singleton.mp hnew]
          exact Or.inr hfresh
      · exact rowStep_same rfl rfl hids
  | updateLink set a u values =>
      rcases Db.updateLink_inv hx with ⟨_, _, rfl⟩ | ⟨_, rfl⟩ |
        ⟨id, userId, row, row', _, _, hbind, hfind, _, _, hset, _, _, rfl⟩
      · exact rowStep_same rfl rfl (fun _ hid => hid)
      · exact rowStep_same rfl rfl (fun _ hid => hid)
      · refine rowStep_map rfl (fun r hr => ?_) (fun _ hk => hk) (fun _ hid => hid)
        by_cases ho : Db.ownedBy id userId r = true
        · rw [if_pos ho, (Db.ownedBy_found hok.linkKey hfind hr).mp ho]
          exact updateLink_evolved hbind hset
            (h.links row (List.mem_of_find?_eq_some hfind)).toColumnsOk
        · rw [if_neg ho]
          exact evolved_refl r
  | deleteLink id userId =>
      rcases Db.deleteLink_inv hx with ⟨_, _, _, rfl⟩ | ⟨_, _, rfl⟩ | ⟨row, hfind, _, _, _, rfl⟩
      · exact rowStep_same rfl rfl (fun _ hid => hid)
      · exact rowStep_same rfl rfl (fun _ hid => hid)
      · refine ⟨fun _ hid => hid,
          fun r hr => Or.inl ⟨r, (List.mem_filter.mp hr).1, evolved_refl r⟩, fun k hk _ => ?_⟩
        by_cases hlink : k.linkId = row.id
        · -- The click goes, and so does the one link with that id.
          refine Or.inr (fun r hr heq => ?_)
          rcases List.mem_filter.mp hr with ⟨hmem, hkept⟩
          rw [Bool.not_eq_true', Bool.eq_false_iff] at hkept
          refine hkept ((Db.ownedBy_found hok.linkKey hfind hmem).mpr ?_)
          exact Db.link_unique hok hmem (List.mem_of_find?_eq_some hfind) (heq.trans hlink)
        · exact Or.inl (List.mem_filter.mpr ⟨hk, bne_iff_ne.mpr hlink⟩)
  | sweepExpired =>
      rw [(Db.sweepExpired_inv hx).2.2]
      refine rowStep_map rfl (fun r hr => ?_) (fun _ hk => hk) (fun _ hid => hid)
      by_cases hm : Db.sweepMatches w.now (w.now - ch.waited) r = true
      · rw [if_pos hm]
        exact ⟨rfl, rfl, rfl, rfl, Nat.le_refl _⟩
      · rw [if_neg hm]
        exact evolved_refl r
  | commit =>
      rcases Db.commit_inv hx with ⟨_, _, rfl⟩ | ⟨t, ht, ⟨_, _, rfl⟩ | ⟨_, rfl⟩⟩
      · exact rowStep_same rfl rfl (fun _ hid => hid)
      · exact rowStep_same rfl rfl (fun _ hid => hid)
      · cases t.aborted with
        | true => exact rowStep_same rfl rfl (fun _ hid => hid)
        | false =>
            refine rowStep_map rfl (fun r hr => ?_) (fun k hk => List.mem_append_left _ hk)
              (fun _ hid => hid)
            rcases hb : t.bumped with _ | b
            · exact evolved_refl r
            · by_cases hid : r.id = b.id
              · -- The version that is installed was made from this very row.
                rcases (hok.bumped t (Db.txOf_mem ht).1 b hb).1 with ⟨r₀, hr₀, heq⟩
                have hrow : r = r₀ := Db.link_unique hok hr hr₀ (by rw [hid, heq]; rfl)
                simp only [hid, beq_self_eq_true, if_true]
                rw [heq, hrow]
                exact ⟨rfl, rfl, rfl, rfl, Nat.le_succ _⟩
              · simp only [beq_eq_false_iff_ne.mpr hid, Bool.false_eq_true, if_false]
                exact evolved_refl r
  | _ =>
      refine rowStep_same (Db.exec_links_eq rfl hx) ?_ (Db.exec_ids_subset hx)
      cases Db.exec_change hx <;> rfl

end Steps

section Runs

variable {P : Platform} {w₀ : World} {c : Site}

theorem moves_rowStep
    (hw : w₀.db = { users := [], links := [], clicks := [], txs := [], ids := [] }) :
    Moves (clickScope P) Policy.free w₀ RowStep where
  refl := fun w => rowStep_same rfl rfl (fun _ hid => hid)
  trans := fun u v w h h' => rowStep_trans h h'
  exec := by
    intro d i t op k ch r w hd _ _ _ hx
    have hx' : exec P i op ch d.state.world = some (r, w) := hx
    by_cases hs : ∀ s, op ≠ .db s
    · have hdb := exec_db_eq hs hx'
      exact rowStep_same (by rw [hdb]) (by rw [hdb]) (by rw [hdb]; exact fun _ hid => hid)
    · push Not at hs
      rcases hs with ⟨s, rfl⟩
      rcases exec_db_inv hx' with ⟨db, hdb, rfl⟩
      exact exec_rowStep_db (run_locksInv (by rw [hw]) (by rw [hw]) (by rw [hw]) hd).ok
        (run_rowsOk hw hd) hdb
  env := by
    intro d e w _ h
    rcases env_inv h with ⟨ms, rfl⟩
    exact rowStep_same rfl rfl (fun _ hid => hid)
  reap := fun d i _ => rowStep_same rfl rfl (fun _ hid => hid)

/-- Ids are unique, drawn, and the links of clicks are there, at every moment of
    a run. -/
theorem run_after_txOk
    (hw : w₀.db = { users := [], links := [], clicks := [], txs := [], ids := [] })
    (hc : Run (clickScope P) Policy.free w₀ c) : ∀ e ∈ c.state.log, Db.TxOk e.after.db :=
  run_after (I := fun w => Db.TxOk w.db)
    (fun d hd => (run_locksInv (by rw [hw]) (by rw [hw]) (by rw [hw]) hd).ok) hc

end Runs

/-- Between any two moments of a run, a link that is there at both has kept its
    identity and its counter has not gone back, a click that was there still is
    unless its link is gone, and a link that is gone stays away. -/
theorem rows_evolve (P : Platform) (w₀ : World)
    (hw : w₀.db = { users := [], links := [], clicks := [], txs := [], ids := [] }) (c : Site)
    (hc : Run (clickScope P) Policy.free w₀ c) :
    ∀ e ∈ c.state.log, ∀ e' ∈ c.state.log, e.seq ≤ e'.seq →
      (∀ r ∈ e.after.db.links, ∀ r' ∈ e'.after.db.links, r'.id = r.id → Evolved r r') ∧
      (∀ k ∈ e.after.db.clicks,
        k ∈ e'.after.db.clicks ∨ ∀ r' ∈ e'.after.db.links, r'.id ≠ k.linkId) ∧
      (∀ r ∈ e.after.db.links, (∀ r' ∈ e'.after.db.links, r'.id ≠ r.id) →
        ∀ e'' ∈ c.state.log, e'.seq ≤ e''.seq → ∀ r'' ∈ e''.after.db.links, r''.id ≠ r.id) := by
  have hchain := run_chained (moves_rowStep hw) hc
  have hok := run_after_txOk hw hc
  intro e he e' he' hle
  have hstep := hchain.between e he e' he' hle
  refine ⟨fun r hr r' hr' hid => ?_, fun k hk => ?_,
    fun r hr hgone e'' he'' hle' r'' hr'' hid => ?_⟩
  · rcases hstep.links r' hr' with ⟨r₀, hr₀, hev⟩ | hnew
    · rw [Db.link_unique (hok e he) hr hr₀ (hid.symm.trans hev.id)]
      exact hev
    · exact absurd ((hok e he).drawn r hr) (hid ▸ hnew)
  · rcases (hok e he).clickLink k hk with ⟨r, hr, hid⟩
    exact hstep.clicks k hk (hid ▸ (hok e he).drawn r hr)
  · rcases (hchain.between e' he' e'' he'' hle').links r'' hr'' with ⟨r', hr', hev⟩ | hnew
    · exact hgone r' hr' (hev.id.symm.trans hid)
    · -- The id was drawn long before.
      exact hnew (hid ▸ hstep.ids _ ((hok e he).drawn r hr))

/-- A link that expires at the millisecond 3. -/
def expiringInput : CreateLinkInput := { sampleInput with expiresAt := some 3 }

/-- An account with two links, of which a click job locks the first. A sweep waits
    for it, the second link is updated meanwhile, and then the sweep gets both. -/
def overtaken : List (Action Call EnvStep Choice) :=
  [.spawn (.findOrCreateOAuthUser "google" "g" "a@b.c" true), .run 0 {}, .run 0 {},
    .run 0 { draw := "u" }, .run 0 {},
    .spawn (.createLink "u" expiringInput), .run 1 { draw := "abcdefg" },
    .run 1 { draw := firstId },
    .spawn (.createLink "u" expiringInput), .run 2 { draw := "bcdefgh" },
    .run 2 { draw := secondId }, .env (.tick 4),
    .spawn (.processClickJob sampleJob), .run 3 {}, .run 3 {}, .run 3 { draw := "k" }, .run 3 {},
    .spawn .sweepExpiredLinks, .env (.tick 1),
    .spawn (.updateLink "u" secondId
      { destinationUrl := some "https://b.example/", expiresAt := none, maxClicks := none,
        isActive := none, password := none }),
    .run 5 {}, .run 5 {}, .run 3 {}, .run 4 { waited := 1 }]

/-- The sweep sets the time of the second link's last update back. -/
theorem rows_evolve_overtaken : ∃ c : Site,
    Run (clickScope samplePlatform) Policy.free emptyWorld c ∧
    (∃ e ∈ c.state.log, ∃ e' ∈ c.state.log, e.seq ≤ e'.seq ∧
      e.after.db.links.map (·.updatedAt) = [0, 5] ∧
      e'.after.db.links.map (·.updatedAt) = [4, 4]) ∧
    ∀ e ∈ c.state.log, ∀ e' ∈ c.state.log, e.seq ≤ e'.seq →
      (∀ r ∈ e.after.db.links, ∀ r' ∈ e'.after.db.links, r'.id = r.id → Evolved r r') ∧
      (∀ k ∈ e.after.db.clicks,
        k ∈ e'.after.db.clicks ∨ ∀ r' ∈ e'.after.db.links, r'.id ≠ k.linkId) ∧
      (∀ r ∈ e.after.db.links, (∀ r' ∈ e'.after.db.links, r'.id ≠ r.id) →
        ∀ e'' ∈ c.state.log, e'.seq ≤ e''.seq → ∀ r'' ∈ e''.after.db.links, r''.id ≠ r.id) := by
  rcases exists_run (clickScope samplePlatform) emptyWorld overtaken
    (fun c => c.state.log.any (fun e => c.state.log.any (fun e' => decide (e.seq ≤ e'.seq ∧
      e.after.db.links.map (·.updatedAt) = [0, 5] ∧
      e'.after.db.links.map (·.updatedAt) = [4, 4]))))
    (by decide +kernel) with ⟨c, hc, htest⟩
  simp only [List.any_eq_true, decide_eq_true_eq] at htest
  exact ⟨c, hc, htest, rows_evolve samplePlatform emptyWorld rfl c hc⟩

end ClickScope
