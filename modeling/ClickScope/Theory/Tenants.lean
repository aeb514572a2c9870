import Mathlib.Data.String.Basic
import ClickScope.Theory.Footprint
import ClickScope.Theory.Patch

/-!
# Tenant Isolation

What a user's calls can see and change of the links of others.

Two databases agree for a user when they hold the same links of that user, the
same clicks on them, and the same locks on them, in whatever order the rows are
stored. A call made as that user cannot tell two such databases apart: each of
its statements answers the same and leaves databases that agree again, and
`Async.Prog.seqRun_matches` carries that to whole calls. This covers the calls
that send two statements as well as the update assembled at run time.

A call made as somebody else leaves the user's part of the database as it is,
and an id that is not the caller's own is to the caller like an id that does
not exist.

## Main definitions

* `linksOf`, `clicksFor`: A user's part of the database.
* `Agree`: Two databases agree for a user.
* `OwnerCall`: The calls of the owner routes.
* `NamesLink`, `NamesNone`: What a text says of the ids of rows.

## Theorems

* `exec_agree`: A statement of the user on agreeing databases.
* `exec_frame`: A statement of another user.
* `tenant_isolation`: Both for whole calls, and the equality of foreign and
  missing ids.
-/

namespace ClickScope

open Async

namespace Db

def linksOf (db : Db) (userId : String) : List LinkRow :=
  db.links.filter (fun r => r.userId == userId)

/-- The clicks on the links of a user. -/
def clicksFor (db : Db) (userId : String) : List ClickRow :=
  db.clicks.filter (fun c => (db.linksOf userId).any (fun r => r.id == c.linkId))

/-- The primary key of `links`. -/
def LinkKey (db : Db) : Prop := db.links.Pairwise (fun a b => a.id ≠ b.id)

/-- Two databases hold the same links of a user, the same clicks on them and
    the same locks on them. -/
structure Agree (userId : String) (a b : Db) : Prop where
  keyLeft : LinkKey a
  keyRight : LinkKey b
  links : (a.linksOf userId).Perm (b.linksOf userId)
  clicks : (a.clicksFor userId).Perm (b.clicksFor userId)
  locks : ∀ r ∈ a.linksOf userId,
    a.rowLocked r.id = b.rowLocked r.id ∧ a.keyShared r.id = b.keyShared r.id

section Parts

variable {db : Db} {userId id : String}

theorem mem_linksOf {r : LinkRow} : r ∈ db.linksOf userId ↔ r ∈ db.links ∧ r.userId = userId := by
  rw [linksOf, List.mem_filter, beq_iff_eq]

/-- The row the condition of an owned statement selects. -/
theorem find_owned (hkey : LinkKey db) {row : LinkRow} :
    db.links.find? (ownedBy id userId) = some row ↔
      row ∈ db.linksOf userId ∧ Uuid.read id = some row.id := by
  constructor
  · intro h
    have hown := ownedBy_iff.mp (List.find?_some h)
    exact ⟨mem_linksOf.mpr ⟨List.mem_of_find?_eq_some h, hown.2⟩, hown.1⟩
  · rintro ⟨hmem, hid⟩
    rcases mem_linksOf.mp hmem with ⟨hrow, huser⟩
    have hsome : (db.links.find? (ownedBy id userId)).isSome = true := by
      rw [List.find?_isSome]
      exact ⟨row, hrow, ownedBy_iff.mpr ⟨hid, huser⟩⟩
    rcases Option.isSome_iff_exists.mp hsome with ⟨found, hfound⟩
    have hown := ownedBy_iff.mp (List.find?_some hfound)
    rw [hfound, key_unique hkey (List.mem_of_find?_eq_some hfound) hrow
      (Option.some.inj (hown.1.symm.trans hid))]

/-- At most one row is selected. -/
theorem filter_owned (hkey : LinkKey db) :
    db.links.filter (ownedBy id userId) = (db.links.find? (ownedBy id userId)).toList := by
  have hp : (db.links.filter (ownedBy id userId)).Pairwise (fun a b => a.id ≠ b.id) :=
    hkey.sublist List.filter_sublist
  have hall : ∀ r ∈ db.links.filter (ownedBy id userId), Uuid.read id = some r.id :=
    fun r hr => (ownedBy_iff.mp (List.mem_filter.mp hr).2).1
  rw [← List.head?_filter]
  rcases hl : db.links.filter (ownedBy id userId) with _ | ⟨r, _ | ⟨s, rest⟩⟩
  · rfl
  · rfl
  · rw [hl] at hp hall
    have hne := (List.pairwise_cons.mp hp).1 s List.mem_cons_self
    exact absurd (Option.some.inj ((hall r List.mem_cons_self).symm.trans
      (hall s (List.mem_cons_of_mem _ List.mem_cons_self)))) hne

/-- The links after rows were rewritten in place. -/
theorem linksOf_map {f : LinkRow → LinkRow} (hf : ∀ r ∈ db.links, (f r).userId = r.userId) :
    ({ db with links := db.links.map f } : Db).linksOf userId = (db.linksOf userId).map f := by
  simp only [linksOf, List.filter_map]
  refine congrArg (List.map f) (List.filter_congr fun r hr => ?_)
  simp only [Function.comp_apply, hf r hr]

theorem clicksFor_map {f : LinkRow → LinkRow} (hf : ∀ r ∈ db.links, (f r).userId = r.userId)
    (hid : ∀ r ∈ db.links, (f r).id = r.id) :
    ({ db with links := db.links.map f } : Db).clicksFor userId = db.clicksFor userId := by
  simp only [clicksFor, linksOf_map hf]
  refine List.filter_congr fun c _ => ?_
  rw [Bool.eq_iff_iff, List.any_map, List.any_eq_true, List.any_eq_true]
  have hsame : ∀ r ∈ db.linksOf userId, (f r).id = r.id := fun r hr => hid r (mem_linksOf.mp hr).1
  constructor
  · rintro ⟨r, hr, h⟩
    rw [Function.comp_apply, hsame r hr] at h
    exact ⟨r, hr, h⟩
  · rintro ⟨r, hr, h⟩
    refine ⟨r, hr, ?_⟩
    rw [Function.comp_apply, hsame r hr]
    exact h

theorem linkKey_map (hkey : LinkKey db) {f : LinkRow → LinkRow}
    (hid : ∀ r ∈ db.links, (f r).id = r.id) : LinkKey { db with links := db.links.map f } := by
  rw [LinkKey, List.pairwise_map]
  exact hkey.imp_of_mem fun ha hb hne => by rw [hid _ ha, hid _ hb]; exact hne

/-- Deleting one link takes its clicks, and no others. -/
theorem clicksFor_delete {owner : String} {row : LinkRow}
    (hrow : db.links.find? (ownedBy id owner) = some row) :
    ({ db with links := db.links.filter (fun r => !ownedBy id owner r),
               clicks := db.clicks.filter (fun c => c.linkId != row.id) } : Db).clicksFor userId
      = (db.clicksFor userId).filter (fun c => c.linkId != row.id) := by
  have hmem := List.mem_of_find?_eq_some hrow
  have hown := ownedBy_iff.mp (List.find?_some hrow)
  simp only [clicksFor, linksOf, List.filter_filter]
  refine List.filter_congr fun c _ => ?_
  by_cases hc : c.linkId = row.id
  · simp only [hc, bne_self_eq_false, Bool.and_false, Bool.false_and]
  · -- Another link with the click's id is not the deleted one.
    have hany : ((db.links.filter (fun r => (r.userId == userId) && !ownedBy id owner r)).any
        (fun r => r.id == c.linkId)) =
        ((db.links.filter (fun r => r.userId == userId)).any (fun r => r.id == c.linkId)) := by
      rw [Bool.eq_iff_iff, List.any_eq_true, List.any_eq_true]
      constructor
      · rintro ⟨r, hr, hid⟩
        rcases List.mem_filter.mp hr with ⟨hr, hand⟩
        exact ⟨r, List.mem_filter.mpr ⟨hr, (Bool.and_eq_true _ _ ▸ hand).1⟩, hid⟩
      · rintro ⟨r, hr, hid⟩
        rcases List.mem_filter.mp hr with ⟨hr, huser⟩
        refine ⟨r, List.mem_filter.mpr ⟨hr, ?_⟩, hid⟩
        rw [Bool.and_eq_true]
        refine ⟨huser, ?_⟩
        rw [Bool.not_eq_true', Bool.eq_false_iff]
        intro ho
        exact hc ((beq_iff_eq.mp hid).symm.trans
          (Option.some.inj ((ownedBy_iff.mp ho).1.symm.trans hown.1)))
    rw [hany, Bool.and_comm]

theorem linksOf_delete {owner : String} {clicks : List ClickRow} :
    ({ db with links := db.links.filter (fun r => !ownedBy id owner r),
               clicks := clicks } : Db).linksOf userId
      = (db.linksOf userId).filter (fun r => !ownedBy id owner r) := by
  simp only [linksOf, List.filter_filter, Bool.and_comm]

end Parts

section Statements

variable {pg : Postgres} {now tid : Nat} {ch : Choice} {a b : Db} {userId id : String}

theorem Agree.find (h : Agree userId a b) :
    a.links.find? (ownedBy id userId) = b.links.find? (ownedBy id userId) := by
  refine Option.ext fun row => ?_
  rw [find_owned h.keyLeft, find_owned h.keyRight, h.links.mem_iff]

theorem Agree.linkById (h : Agree userId a b) : a.linkById id userId = b.linkById id userId := by
  unfold Db.linkById
  rw [filter_owned h.keyLeft, filter_owned h.keyRight, h.find]

instance : Std.Total newerFirst := ⟨fun x y => by
  unfold newerFirst
  rcases Nat.lt_trichotomy x.createdAt y.createdAt with h | h | h
  · exact Or.inr (Or.inl h)
  · rcases le_total y.id x.id with hid | hid
    · exact Or.inl (Or.inr ⟨h, hid⟩)
    · exact Or.inr (Or.inr ⟨h.symm, hid⟩)
  · exact Or.inl (Or.inl h)⟩

instance : IsTrans LinkRow newerFirst := ⟨fun x y z hxy hyz => by
  unfold newerFirst at *
  rcases hxy with hxy | ⟨hxy, hid⟩ <;> rcases hyz with hyz | ⟨hyz, hid'⟩
  · exact Or.inl (by omega)
  · exact Or.inl (by omega)
  · exact Or.inl (by omega)
  · exact Or.inr ⟨hxy.trans hyz, hid'.trans hid⟩⟩

/-- Rows with different ids have one newest-first order. -/
theorem sorted_eq {l m : List LinkRow} (hp : l.Perm m)
    (hkey : l.Pairwise (fun a b => a.id ≠ b.id)) :
    l.insertionSort newerFirst = m.insertionSort newerFirst := by
  refine List.Perm.eq_of_pairwise ?_ (List.pairwise_insertionSort newerFirst l)
    (List.pairwise_insertionSort newerFirst m)
    (((List.perm_insertionSort _ l).trans hp).trans (List.perm_insertionSort _ m).symm)
  intro x y hx hy hxy hyx
  have hxl : x ∈ l := (List.mem_insertionSort _).mp hx
  have hyl : y ∈ l := hp.mem_iff.mpr ((List.mem_insertionSort _).mp hy)
  refine key_unique hkey hxl hyl ?_
  unfold newerFirst at hxy hyx
  rcases hxy with hxy | ⟨_, hid⟩
  · rcases hyx with hyx | ⟨hyx, _⟩ <;> omega
  · rcases hyx with hyx | ⟨_, hid'⟩
    · omega
    · exact le_antisymm hid' hid

theorem Agree.listLinks (h : Agree userId a b) (limit offset : Int) :
    a.listLinks userId limit offset = b.listLinks userId limit offset := by
  have hkey : (a.linksOf userId).Pairwise (fun a b => a.id ≠ b.id) :=
    List.Pairwise.sublist List.filter_sublist h.keyLeft
  have hsort := sorted_eq h.links hkey
  unfold linksOf at hsort
  unfold Db.listLinks
  rw [hsort]

theorem Agree.countLinks (h : Agree userId a b) : a.countLinks userId = b.countLinks userId :=
  h.links.length_eq

/-- The clicks joined to an owned link are among the user's. -/
theorem joined_eq {db : Db} (since : Int) :
    db.clicks.filter (fun c => Uuid.read id == some c.linkId &&
        decide (since ≤ (c.clickedAt : Int)) && db.links.any (ownedBy id userId))
      = if db.links.any (ownedBy id userId) then (db.clicksFor userId).filter
          (fun c => Uuid.read id == some c.linkId && decide (since ≤ (c.clickedAt : Int)))
        else [] := by
  by_cases ho : db.links.any (ownedBy id userId) = true
  · simp only [ho, Bool.and_true, if_true, clicksFor, List.filter_filter]
    refine List.filter_congr fun c _ => ?_
    by_cases hc : Uuid.read id = some c.linkId
    · have hany : (db.linksOf userId).any (fun r => r.id == c.linkId) = true := by
        rcases List.any_eq_true.mp ho with ⟨r, hr, hown⟩
        have hr' := ownedBy_iff.mp hown
        exact List.any_eq_true.mpr ⟨r, mem_linksOf.mpr ⟨hr, hr'.2⟩,
          beq_iff_eq.mpr (Option.some.inj (hr'.1.symm.trans hc))⟩
      rw [hany, Bool.and_true]
    · simp only [beq_eq_false_iff_ne.mpr hc, Bool.false_and]
  · simp only [Bool.eq_false_iff.mpr ho, Bool.and_false, Bool.false_eq_true, if_false,
      List.filter_false]

theorem Agree.any_owned (h : Agree userId a b) :
    a.links.any (ownedBy id userId) = b.links.any (ownedBy id userId) := by
  have hsome : ∀ l : List LinkRow,
      l.any (ownedBy id userId) = (l.find? (ownedBy id userId)).isSome := by
    intro l
    rw [Bool.eq_iff_iff, List.any_eq_true, List.find?_isSome]
  rw [hsome, hsome, h.find]

theorem Agree.dailyCounts (h : Agree userId a b) (since : Int) :
    a.dailyCounts pg id userId since = b.dailyCounts pg id userId since := by
  have hjoined : (a.clicks.filter (fun c => Uuid.read id == some c.linkId &&
      decide (since ≤ (c.clickedAt : Int)) && a.links.any (ownedBy id userId))).Perm
      (b.clicks.filter (fun c => Uuid.read id == some c.linkId &&
      decide (since ≤ (c.clickedAt : Int)) && b.links.any (ownedBy id userId))) := by
    rw [joined_eq, joined_eq, h.any_owned]
    by_cases ho : b.links.any (ownedBy id userId) = true
    · rw [if_pos ho, if_pos ho]
      exact h.clicks.filter _
    · rw [if_neg ho, if_neg ho]
  have hdays := hjoined.map (fun c => pg.dateTrunc c.clickedAt)
  unfold Db.dailyCounts
  -- The days are sorted, so the order of the clicks does not matter.
  have hsort : ∀ l m : List Int, l.Perm m →
      l.insertionSort (· ≤ ·) = m.insertionSort (· ≤ ·) := by
    intro l m hp
    refine List.Perm.eq_of_pairwise (fun x y _ _ => le_antisymm)
      (List.pairwise_insertionSort (· ≤ ·) l) (List.pairwise_insertionSort (· ≤ ·) m)
      (((List.perm_insertionSort _ l).trans hp).trans (List.perm_insertionSort _ m).symm)
  simp only
  rw [hsort _ _ hdays.dedup]
  exact List.map_congr_left fun d _ => by rw [hdays.count_eq]

theorem Agree.clickStats (h : Agree userId a b) (since : Int) :
    a.clickStats pg id userId since = b.clickStats pg id userId since := by
  unfold Db.clickStats
  rw [h.dailyCounts]

/-- Rows rewritten in the same way on both sides. -/
theorem Agree.map (h : Agree userId a b) {f : LinkRow → LinkRow} (hid : ∀ r, (f r).id = r.id)
    (huser : ∀ r, (f r).userId = r.userId) :
    Agree userId { a with links := a.links.map f } { b with links := b.links.map f } where
  keyLeft := linkKey_map h.keyLeft fun r _ => hid r
  keyRight := linkKey_map h.keyRight fun r _ => hid r
  links := by
    rw [linksOf_map fun r _ => huser r, linksOf_map fun r _ => huser r]
    exact h.links.map f
  clicks := by
    rw [clicksFor_map (fun r _ => huser r) (fun r _ => hid r),
      clicksFor_map (fun r _ => huser r) (fun r _ => hid r)]
    exact h.clicks
  locks := by
    intro r hr
    rw [linksOf_map fun r _ => huser r] at hr
    rcases List.mem_map.mp hr with ⟨old, hold, rfl⟩
    rw [hid]
    exact h.locks old hold

/-- The row found under an owned condition, on both sides. -/
theorem Agree.found (h : Agree userId a b) {row : LinkRow}
    (hrow : b.links.find? (ownedBy id userId) = some row) :
    row ∈ a.linksOf userId ∧ Uuid.read id = some row.id ∧ row.userId = userId := by
  have hown := ownedBy_iff.mp (List.find?_some hrow)
  exact ⟨((find_owned h.keyLeft).mp (h.find.trans hrow)).1, hown⟩

theorem Agree.updateLink (h : Agree userId a b) {start : Nat} {set : List SetClause} {i u : Nat}
    {values : List SqlValue} (hi : param values i = some (.uuid id))
    (hu : param values u = some (.account userId)) :
    Prog.Matches (Agree userId) (a.updateLink now start set i u values)
      (b.updateLink now start set i u values) := by
  unfold Db.updateLink
  rw [hi, hu]
  rcases values.findSome? SqlValue.bindError with _ | e
  · simp only [h.find]
    rcases hrow : b.links.find? (ownedBy id userId) with _ | row
    · exact Prog.matches_some rfl h
    · rcases h.found hrow with ⟨hmem, hid, huser⟩
      simp only [(h.locks row hmem).1]
      by_cases hlock : (b.rowLocked row.id || !sees now start row) = true
      · simp only [hlock, if_true]
        exact Prog.matches_none
      · simp only [hlock, if_false, Bool.false_eq_true]
        rcases hset : applySet start values set row with e | row'
        · exact Prog.matches_some rfl h
        · by_cases hcheck : maxClicksCheck row'.maxClicks = false
          · simp only [hcheck, if_true]
            exact Prog.matches_some rfl h
          · simp only [hcheck]
            -- The new version is still the same link of the same user.
            have hkeep := applySet_keeps hset
            refine Prog.matches_some rfl (h.map (fun r => ?_) (fun r => ?_)) <;>
              by_cases ho : ownedBy id userId r = true
            · rw [if_pos ho, hkeep.1, Option.some.inj (hid.symm.trans (ownedBy_iff.mp ho).1)]
            · rw [if_neg ho]
            · rw [if_pos ho, hkeep.2.2.1, huser, (ownedBy_iff.mp ho).2]
            · rw [if_neg ho]
  · exact Prog.matches_some rfl h

theorem Agree.deleteLink (h : Agree userId a b) :
    Prog.Matches (Agree userId) (a.deleteLink id userId) (b.deleteLink id userId) := by
  unfold Db.deleteLink
  rcases uuidError id with _ | e
  · rw [h.find]
    rcases hrow : b.links.find? (ownedBy id userId) with _ | row
    · exact Prog.matches_some rfl h
    · have hmem := (h.found hrow).1
      simp only [(h.locks row hmem).1, (h.locks row hmem).2]
      by_cases hlock : (b.rowLocked row.id || b.keyShared row.id) = true
      · simp only [hlock, if_true]
        exact Prog.matches_none
      · simp only [hlock, if_false, Bool.false_eq_true]
        -- Both lose the same row of the user, with the clicks of it.
        refine Prog.matches_some rfl ⟨?_, ?_, ?_, ?_, ?_⟩
        · exact h.keyLeft.sublist List.filter_sublist
        · exact h.keyRight.sublist List.filter_sublist
        · rw [linksOf_delete, linksOf_delete]
          exact h.links.filter _
        · rw [clicksFor_delete (h.find.trans hrow), clicksFor_delete hrow]
          exact h.clicks.filter _
        · intro r hr
          exact h.locks r (List.mem_filter.mp (linksOf_delete ▸ hr)).1
  · exact Prog.matches_some rfl h

end Statements

/-- The keys hold, and a user's part of the database is the given one. -/
structure Holds (userId : String) (links : List LinkRow) (clicks : List ClickRow) (db : Db) :
    Prop where
  key : LinkKey db
  links : db.linksOf userId = links
  clicks : db.clicksFor userId = clicks

section Frame

variable {pg : Postgres} {now tid : Nat} {ch : Choice} {db db' : Db} {userId other id : String}
  {links : List LinkRow} {clicks : List ClickRow}

theorem updateLink_frame (hne : other ≠ userId) {set : List SetClause} {i u : Nat}
    {values : List SqlValue} {r : Except DbError (List LinkRow)}
    (hu : param values u = some (.account other))
    (h : Db.exec pg now tid (.updateLink set i u values) ch db = some (r, db'))
    (hold : Holds userId links clicks db) : Holds userId links clicks db' := by
  rcases updateLink_inv h with ⟨_, _, rfl⟩ | ⟨_, rfl⟩ |
    ⟨id, owner, row, row', _, howner, _, hrow, _, _, hset, _, _, rfl⟩
  · exact hold
  · exact hold
  · rw [hu, Option.some.injEq, SqlValue.account.injEq] at howner
    subst howner
    have hown := ownedBy_iff.mp (List.find?_some hrow)
    have hkeep := applySet_keeps hset
    have hid : ∀ r : LinkRow, (if ownedBy id other r = true then row' else r).id = r.id := by
      intro r
      by_cases ho : ownedBy id other r = true
      · rw [if_pos ho, hkeep.1, Option.some.inj (hown.1.symm.trans (ownedBy_iff.mp ho).1)]
      · rw [if_neg ho]
    have huser : ∀ r : LinkRow,
        (if ownedBy id other r = true then row' else r).userId = r.userId := by
      intro r
      by_cases ho : ownedBy id other r = true
      · rw [if_pos ho, hkeep.2.2.1, hown.2, (ownedBy_iff.mp ho).2]
      · rw [if_neg ho]
    refine ⟨linkKey_map hold.key fun r _ => hid r, ?_, ?_⟩
    · rw [linksOf_map fun r _ => huser r, hold.links.symm]
      -- The rewritten row is not one of the user's.
      refine (List.map_congr_left fun r hr => ?_).trans (List.map_id _)
      have hfalse : ¬ ownedBy id other r = true := fun ho =>
        hne ((ownedBy_iff.mp ho).2.symm.trans (mem_linksOf.mp hr).2)
      rw [if_neg hfalse, id_eq]
    · rw [clicksFor_map (fun r _ => huser r) (fun r _ => hid r)]
      exact hold.clicks

theorem deleteLink_frame (hne : other ≠ userId) {r : Except DbError (List (String × String))}
    (h : Db.exec pg now tid (.deleteLink id other) ch db = some (r, db'))
    (hold : Holds userId links clicks db) : Holds userId links clicks db' := by
  rcases deleteLink_inv h with ⟨_, _, _, rfl⟩ | ⟨_, _, rfl⟩ | ⟨row, hrow, _, _, _, rfl⟩
  · exact hold
  · exact hold
  · have hown := ownedBy_iff.mp (List.find?_some hrow)
    refine ⟨hold.key.sublist List.filter_sublist, ?_, ?_⟩
    · rw [linksOf_delete, ← hold.links, List.filter_eq_self]
      intro r hr
      rw [Bool.not_eq_true', Bool.eq_false_iff]
      exact fun ho => hne ((ownedBy_iff.mp ho).2.symm.trans (mem_linksOf.mp hr).2)
    · rw [clicksFor_delete hrow, ← hold.clicks, List.filter_eq_self]
      -- A click with the deleted id would be on a link of the user with that id.
      intro c hc
      rcases List.any_eq_true.mp (List.mem_filter.mp hc).2 with ⟨r, hr, hid⟩
      rw [bne_iff_ne]
      intro heq
      have hsame : r = row := key_unique hold.key (mem_linksOf.mp hr).1
        (List.mem_of_find?_eq_some hrow) ((beq_iff_eq.mp hid).trans heq)
      exact hne (hown.2.symm.trans (hsame ▸ (mem_linksOf.mp hr).2))

end Frame

end Db

/-- The operations of the owner calls of a user. -/
inductive TenantOp (userId : String) : Op → Prop
  | hash (plain : String) : TenantOp userId (.bcryptHash plain)
  | invalidate (code : String) : TenantOp userId (.redis (.del (linkCacheKey code)))
  | list (limit offset : Int) : TenantOp userId (.db (.listLinks userId limit offset))
  | count : TenantOp userId (.db (.countLinks userId))
  | byId (id : String) : TenantOp userId (.db (.linkById id userId))
  | stats (id : String) (since : Int) : TenantOp userId (.db (.clickStats id userId since))
  | update (id : String) (set : List SetClause) (i u : Nat) (values : List SqlValue)
      (hi : param values i = some (.uuid id)) (hu : param values u = some (.account userId)) :
      TenantOp userId (.db (.updateLink set i u values))
  | delete (id : String) : TenantOp userId (.db (.deleteLink id userId))

theorem tenantOp_hash {userId : String} {op : Op} (h : hashOp op) : TenantOp userId op := by
  cases op <;> first | exact .hash _ | exact h.elim

theorem tenantOp_ownRead {userId : String} {op : Op} (h : ownReadOp userId op) :
    TenantOp userId op := by
  cases op with
  | db s =>
      cases s with
      | listLinks u limit offset => cases (show u = userId from h); exact .list limit offset
      | countLinks u => cases (show u = userId from h); exact .count
      | linkById id u => cases (show u = userId from h); exact .byId id
      | clickStats id u since => cases (show u = userId from h); exact .stats id since
      | _ => exact h.elim
  | _ => exact h.elim

theorem tenantOp_update {userId linkId : String} {s : SetList} {op : Op}
    (h : updateOp userId linkId s op) : TenantOp userId op := by
  unfold updateOp at h
  split at h
  · rcases h with ⟨rfl, rfl⟩
    exact .byId _
  · rcases h with ⟨rfl, rfl, rfl, rfl⟩
    have hids := param_ids s.values linkId userId
    exact .update linkId _ _ _ _ hids.1 hids.2
  · rcases h with ⟨code, rfl⟩
    exact .invalidate code

theorem tenantOp_delete {userId linkId : String} {op : Op} (h : deleteOp userId linkId op) :
    TenantOp userId op := by
  unfold deleteOp at h
  split at h
  · rcases h with ⟨rfl, rfl⟩
    exact .delete _
  · rcases h with ⟨code, rfl⟩
    exact .invalidate code

/-- What an owner asks of one link. -/
inductive LinkAction : Type
  | get
  | update (input : UpdateLinkInput)
  | delete
  | stats (sinceDate : Int)
deriving DecidableEq, Repr

/-- The calls of the owner routes. -/
inductive OwnerCall : Type
  | list (countFirst : Bool) (options : ListLinksOptions)
  | on (linkId : String) (action : LinkAction)
deriving DecidableEq, Repr

/-- The call as it is made by a user. -/
def OwnerCall.as (userId : String) : OwnerCall → Call
  | .list countFirst options => .listLinks countFirst userId options
  | .on linkId .get => .getLink userId linkId
  | .on linkId (.update input) => .updateLink userId linkId input
  | .on linkId .delete => .deleteLink userId linkId
  | .on linkId (.stats sinceDate) => .getLinkClickStats userId linkId sinceDate

theorem ownerCall_only (P : Platform) (userId : String) (c : OwnerCall) :
    (body P (c.as userId)).Only (TenantOp userId) := by
  refine Prog.only_mono (fun op h => ?_) _ (body_performs P (c.as userId))
  rcases c with ⟨countFirst, options⟩ | ⟨linkId, _ | input | _ | sinceDate⟩
  · exact tenantOp_ownRead h
  · exact tenantOp_ownRead h
  · rcases h with h | ⟨s, h⟩
    · exact tenantOp_hash h
    · exact tenantOp_update h
  · exact tenantOp_delete h
  · exact tenantOp_ownRead h

/-- Two worlds a user cannot tell apart. -/
structure SameFor (userId : String) (w w' : World) : Prop where
  now : w.now = w'.now
  db : Db.Agree userId w.db w'.db

section Operations

variable {P : Platform} {tid : Nat} {ch : Choice} {w w' : World} {userId other : String} {op : Op}

/-- One operation of a user in two worlds the user cannot tell apart. -/
theorem exec_agree (hop : TenantOp userId op) (h : SameFor userId w w') :
    Prog.Matches (SameFor userId) (exec P tid op ch w) (exec P tid op ch w') := by
  have hlift : ∀ db db', Db.Agree userId db db' →
      SameFor userId { w with db := db } { w' with db := db' } := fun _ _ hdb => ⟨h.now, hdb⟩
  cases hop with
  | hash plain => exact Prog.matches_some rfl h
  | invalidate code =>
      -- The cache is shared, and no part of what the tenant sees.
      simp only [exec]
      refine Prog.matches_some ?_ ⟨h.now, h.db⟩
      cases ch.fault <;> rfl
  | list limit offset =>
      exact exec_db_matches hlift (Prog.matches_some (h.db.listLinks limit offset) h.db)
  | count => exact exec_db_matches hlift (Prog.matches_some (congrArg _ h.db.countLinks) h.db)
  | byId id => exact exec_db_matches hlift (Prog.matches_some h.db.linkById h.db)
  | stats id since =>
      exact exec_db_matches hlift (Prog.matches_some (h.db.clickStats since) h.db)
  | update id set i u values hi hu =>
      refine exec_db_matches hlift ?_
      -- The update takes place at one time in both worlds.
      rw [h.now]
      exact h.db.updateLink hi hu
  | delete id => exact exec_db_matches hlift h.db.deleteLink

/-- One operation of another user. -/
theorem exec_frame (hne : other ≠ userId) {links : List LinkRow} {clicks : List ClickRow}
    {r : op.Res} (hop : TenantOp other op) (hold : Db.Holds userId links clicks w.db)
    (h : exec P tid op ch w = some (r, w')) : Db.Holds userId links clicks w'.db := by
  cases hop with
  | hash plain | invalidate code =>
      rw [exec_db_eq (fun s => Op.noConfusion) h]
      exact hold
  | list | count | byId | stats =>
      rcases exec_db_inv h with ⟨db, hdb, rfl⟩
      rw [Db.exec_read rfl hdb]
      exact hold
  | update id set i u values hi hu =>
      rcases exec_db_inv h with ⟨db, hdb, rfl⟩
      exact Db.updateLink_frame hne hu hdb hold
  | delete id =>
      rcases exec_db_inv h with ⟨db, hdb, rfl⟩
      exact Db.deleteLink_frame hne hdb hold

end Operations

section Missing

variable {P : Platform} {tid : Nat} {w : World} {userId linkId : String}

/-- The text says the id of one of the rows. -/
def NamesLink (linkId : String) (rows : List LinkRow) : Prop :=
  ∃ id, Uuid.read linkId = some id ∧ id ∈ rows.map (·.id)

/-- The text says an id, and none of the rows has it. -/
def NamesNone (linkId : String) (rows : List LinkRow) : Prop :=
  ∃ id, Uuid.read linkId = some id ∧ id ∉ rows.map (·.id)

/-- The text says an id, and the user owns no link with it. -/
structure Missing (w : World) (userId linkId : String) : Prop where
  isId : uuidError linkId = none
  notFound : w.db.links.find? (Db.ownedBy linkId userId) = none

theorem missing_of_foreign {owner : String} (hkey : Db.LinkKey w.db) (hne : userId ≠ owner)
    (h : NamesLink linkId (w.db.linksOf owner)) : Missing w userId linkId := by
  rcases h with ⟨id, hread, hmem⟩
  rcases List.mem_map.mp hmem with ⟨row, hrow, rfl⟩
  rw [Db.mem_linksOf] at hrow
  refine ⟨uuidError_eq_none.mpr (hread ▸ rfl), List.find?_eq_none.mpr fun r hr ho => ?_⟩
  rw [Db.ownedBy_iff] at ho
  have hsame : r = row := key_unique hkey hr hrow.1 (Option.some.inj (ho.1.symm.trans hread))
  exact hne (ho.2.symm.trans (hsame ▸ hrow.2))

theorem missing_of_absent (h : NamesNone linkId w.db.links) : Missing w userId linkId := by
  rcases h with ⟨id, hread, hnone⟩
  refine ⟨uuidError_eq_none.mpr (hread ▸ rfl), List.find?_eq_none.mpr fun r hr ho => hnone ?_⟩
  exact List.mem_map.mpr ⟨r, hr, Option.some.inj ((Db.ownedBy_iff.mp ho).1.symm.trans hread)⟩

theorem exec_missing {s : Stmt} {r : Except DbError s.Rows}
    (h : ∀ ch, w.db.exec P.pg w.now tid s ch = some (r, w.db)) (ch : Choice) :
    exec P tid (.db s) ch w = some (r, w) := by
  simp only [exec, h]

/-- Reading a missing link is one statement that finds no row. -/
theorem linkById_missing (h : Missing w userId linkId) (ch : Choice) :
    exec P tid (.db (.linkById linkId userId)) ch w = some (.ok [], w) := by
  refine exec_missing (fun _ => ?_) ch
  have hrows : w.db.links.filter (Db.ownedBy linkId userId) = [] := by
    rw [List.filter_eq_nil_iff]
    exact List.find?_eq_none.mp h.notFound
  simp only [Db.exec, Db.linkById, h.isId, hrows]

theorem deleteLink_missing (h : Missing w userId linkId) (ch : Choice) :
    exec P tid (.db (.deleteLink linkId userId)) ch w = some (.ok [], w) := by
  refine exec_missing (fun _ => ?_) ch
  simp only [Db.exec, Db.deleteLink, h.isId, h.notFound]

/-- An update of a missing link fails on its values or finds no row. -/
theorem updateLink_missing (h : Missing w userId linkId) (values : List SqlValue)
    (set : List SetClause) (ch : Choice) :
    exec P tid (.db (.updateLink set
        ((values ++ [SqlValue.uuid linkId, .account userId]).length - 1)
        (values ++ [SqlValue.uuid linkId, .account userId]).length
        (values ++ [SqlValue.uuid linkId, .account userId]))) ch w
      = some ((match values.findSome? SqlValue.bindError with
          | some e => .error e
          | none => .ok []), w) := by
  refine exec_missing (fun _ => ?_) ch
  have hids := param_ids values linkId userId
  simp only [Db.exec, Db.updateLink, List.findSome?_append, List.findSome?_cons,
    List.findSome?_nil, SqlValue.bindError, h.isId, Option.or_none]
  rcases values.findSome? SqlValue.bindError with _ | e
  · simp only [hids.1, hids.2, h.notFound]
  · rfl

variable {linkId' : String} {α : Type}

/-- An update cannot tell two missing links apart, whatever follows it. -/
theorem sendUpdate_missing (h : Missing w userId linkId) (h' : Missing w userId linkId')
    (s : SetList) (f : Option Link → Api α) (chs : List Choice) :
    ((sendUpdate userId linkId s).bind f).seqRun (exec P tid) chs w
      = ((sendUpdate userId linkId' s).bind f).seqRun (exec P tid) chs w := by
  unfold sendUpdate
  by_cases hempty : s.setClauses.length = 0
  · simp only [hempty, if_true]
    refine Prog.seqRun_first _ (linkById_missing h) (linkById_missing h') ?_ chs
    rfl
  · simp only [hempty, if_false]
    exact Prog.seqRun_first _ (updateLink_missing h _ _) (updateLink_missing h' _ _)
      (by cases s.values.findSome? SqlValue.bindError <;> rfl) chs

/-- A call on a missing link does what it does on any other missing link. -/
theorem missing_alike (h : Missing w userId linkId) (h' : Missing w userId linkId')
    (action : LinkAction) (chs : List Choice) :
    (body P ((OwnerCall.on linkId action).as userId)).seqRun (exec P tid) chs w
      = (body P ((OwnerCall.on linkId' action).as userId)).seqRun (exec P tid) chs w := by
  cases action with
  | get | stats since =>
      refine Prog.seqRun_first _ (linkById_missing h) (linkById_missing h') ?_ chs
      rfl
  | delete =>
      refine Prog.seqRun_first _ (deleteLink_missing h) (deleteLink_missing h') ?_ chs
      rfl
  | update input =>
      have hsend : ∀ s chs, ((sendUpdate userId linkId s).bind
          (fun link => pure (.link link))).seqRun (exec P tid) chs w
            = ((sendUpdate userId linkId' s).bind
                (fun link => pure (Reply.link link))).seqRun (exec P tid) chs w :=
        fun s chs => sendUpdate_missing h h' s _ chs
      rcases hp : input.password with _ | _ | plain
      · simp only [OwnerCall.as, body, updateLink, hp, hashField]
        exact hsend _ chs
      · simp only [OwnerCall.as, body, updateLink, hp, hashField]
        exact hsend _ chs
      · -- A new password is hashed before the link is looked for.
        simp only [OwnerCall.as, body, updateLink, hp, hashField]
        cases chs with
        | nil => rfl
        | cons ch rest => exact hsend _ rest

end Missing

/-- Two worlds that agree for a user give that user's calls the same results
    and agree afterwards. The calls of another user leave the user's links and
    clicks alone, and find of an id of the user's, however it is written, what
    they find of an id no link has. -/
theorem tenant_isolation (P : Platform) (tid : Nat) {u v : String} (hne : v ≠ u) (c : OwnerCall)
    (chs : List Choice) {a b : World} (h : SameFor u a b) :
    Prog.Matches (SameFor u) ((body P (c.as u)).seqRun (exec P tid) chs a)
        ((body P (c.as u)).seqRun (exec P tid) chs b) ∧
      (∀ out, (body P (c.as v)).seqRun (exec P tid) chs a = some out →
        out.2.db.linksOf u = a.db.linksOf u ∧ out.2.db.clicksFor u = a.db.clicksFor u) ∧
      ∀ (linkId absent : String) (action : LinkAction), NamesLink linkId (a.db.linksOf u) →
        NamesNone absent a.db.links →
        (body P ((OwnerCall.on linkId action).as v)).seqRun (exec P tid) chs a
          = (body P ((OwnerCall.on absent action).as v)).seqRun (exec P tid) chs a := by
  refine ⟨?_, fun out hrun => ?_, fun linkId absent action hforeign habsent => ?_⟩
  · exact Prog.seqRun_matches (exec P tid) (fun _ _ _ _ hop hw => exec_agree hop hw) _
      (ownerCall_only P u c) chs a b h
  · -- No operation of another tenant touches the user's rows.
    have hkept := Prog.seqRun_keeps (exec P tid)
      (I := fun w => Db.Holds u (a.db.linksOf u) (a.db.clicksFor u) w.db)
      (fun _ _ _ _ _ hop hw hx => exec_frame hne hop hw hx) _ (ownerCall_only P v c) chs a out
      ⟨h.db.keyLeft, rfl, rfl⟩ hrun
    exact ⟨hkept.links, hkept.clicks⟩
  · exact missing_alike (missing_of_foreign h.db.keyLeft hne hforeign)
      (missing_of_absent habsent) action chs

/-- A link of a user, and a world with such links. -/
def tenantLink (id userId shortCode : String) : LinkRow :=
  { id := id, userId := userId, shortCode := shortCode, destinationUrl := "https://example.com/",
    passwordHash := none, expiresAt := none, maxClicks := none, clickCount := 0,
    isActive := true, createdAt := 0, updatedAt := 0 }

def tenantWorld (links : List LinkRow) : World :=
  { ownerWorld with db := { ownerWorld.db with links := links } }

/-- A world with a link of `u`, and one with a link of somebody else before it. -/
theorem tenantWorld_same : SameFor "u" (tenantWorld [tenantLink firstId "u" "abc"])
    (tenantWorld [tenantLink secondId "v" "xyz", tenantLink firstId "u" "abc"]) where
  now := rfl
  db := {
    keyLeft := by unfold Db.LinkKey; decide
    keyRight := by unfold Db.LinkKey; decide
    links := by decide
    clicks := by decide
    locks := by decide }

/-- The owner deletes the link in both worlds, by its id in another spelling.
    Somebody else deletes nothing, and gets the answer for an id that no link has. -/
theorem tenant_isolation_delete :
    Prog.Matches (SameFor "u")
        ((body samplePlatform (.deleteLink "u" firstIdWritten)).seqRun (exec samplePlatform 0)
          [{}, {}] (tenantWorld [tenantLink firstId "u" "abc"]))
        ((body samplePlatform (.deleteLink "u" firstIdWritten)).seqRun (exec samplePlatform 0)
          [{}, {}] (tenantWorld [tenantLink secondId "v" "xyz", tenantLink firstId "u" "abc"])) ∧
      ((body samplePlatform (.deleteLink "u" firstIdWritten)).seqRun (exec samplePlatform 0)
          [{}, {}] (tenantWorld [tenantLink firstId "u" "abc"])).map (·.1)
        = some (.ok (.deleted true)) ∧
      (body samplePlatform (.deleteLink "v" firstIdWritten)).seqRun (exec samplePlatform 0)
          [{}] (tenantWorld [tenantLink firstId "u" "abc"])
        = (body samplePlatform (.deleteLink "v" secondId)).seqRun (exec samplePlatform 0)
          [{}] (tenantWorld [tenantLink firstId "u" "abc"]) := by
  have hisolated := tenant_isolation samplePlatform 0 (u := "u") (v := "v") (by decide)
    (.on firstIdWritten .delete)
  exact ⟨(hisolated _ tenantWorld_same).1, by decide,
    (hisolated _ tenantWorld_same).2.2 firstIdWritten secondId .delete
      ⟨firstId, by decide, by decide⟩ ⟨secondId, by decide, by decide⟩⟩

end ClickScope
