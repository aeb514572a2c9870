import ClickScope.Async.Wp
import ClickScope.Theory.KeptRows
import ClickScope.Theory.Staleness

/-!
# The Cached Lookup in Sequential Histories

One call after another, the cache is invisible.

A history is a sequence of calls that do not overlap, with time passing between
any two operations and Redis never failing. Its cache may hold old copies: the
worker counts clicks and the sweep marks rows without a word to it. But a copy
still shows all that decides where a visitor ends up, as long as the link has
no click cap, and a remembered miss is only ever wrong for a code that was
created in the meantime, which takes a generated code that was looked up within
the last half minute.

`CacheOk` is the relation between entries and rows. A call that writes a link
breaks it for the code of that link and mends it by its own invalidation before
it ends, so the relation is stated with the one code it may be broken for.

## Main definitions

* `steady`: Operations without Redis failures, each after some time.
* `History`: The worlds a sequential history reaches, with its lookups.
* `decision`, `rowDecision`: What a visitor is told.
* `EntryOk`, `CacheOk`: What entries have to do with rows.

## Theorems

* `lookup_wp`: One lookup, its answer and the entry it leaves.
* `createLink_wp`, `updateLink_wp`, `deleteLink_wp`, `quiet_wp`: The other calls.
* `history_ok`: Every history.
* `cached_refines_row`: The decision from the cache is that of the row.
-/

namespace ClickScope

open Async

/-- An operation that does not fail at Redis, some milliseconds after the
    previous one. -/
def steady (P : Platform) (tid : Nat) (op : Op) (ch : Nat × Choice) (w : World) :
    Option (op.Res × World) :=
  exec P tid op (withoutFault op ch.2) { w with now := w.now + ch.1 }

/-- What a visitor of a link is told, by the classes of the routes. -/
inductive Decision : Type
  | notFound
  | gone
  | gate (hash : String)
  | redirect (url : String)
deriving DecidableEq, Repr

/-- The decision for a link that was looked up, or for none. -/
def decision (now : Nat) : Option RedirectLink → Decision
  | none => .notFound
  | some link =>
      if (deadStateError now link).isSome then .gone
      else
        match truthy link.passwordHash with
        | some hash => .gate hash
        | none => .redirect link.destinationUrl

/-- The decision on the database row. -/
def rowDecision (now : Nat) (db : Db) (code : String) : Except Err Decision :=
  match db.redirectLookup code with
  | .error e => .error (.db e)
  | .ok rows => .ok (decision now (rows.head?.map toRedirectLink))

/-- A lookup that ended, with the code and the time. -/
abbrev Lookups := List (String × Nat)

/-- The lookups that ended, after one more call. -/
def Call.record (now : Nat) (ls : Lookups) : Call → Lookups
  | .getLinkByShortCode code => (code, now) :: ls
  | _ => ls

/-- A link created under a generated code had not been looked up in the 30
    seconds before. -/
def Unprobed (call : Call) (r : Except Err Reply) (now : Nat) (ls : Lookups) : Prop :=
  ∀ userId input link, call = .createLink userId input → truthy input.customAlias = none →
    r = .ok (.created link) → ∀ t, (link.shortCode, t) ∈ ls → t + 30 * 1000 ≤ now

/-- The worlds a sequential history reaches from `w₀`, with the lookups in it. -/
inductive History (P : Platform) (w₀ : World) : World → Lookups → Prop
  | start : History P w₀ w₀ []
  | tick (w : World) (ls : Lookups) (ms : Nat) : History P w₀ w ls →
      History P w₀ { w with now := w.now + ms } ls
  | perform (w w' : World) (ls : Lookups) (call : Call) (tid : Nat) (chs : List (Nat × Choice))
      (r : Except Err Reply) : History P w₀ w ls → call.tendsLinks = true →
      (body P call).seqRun (steady P tid) chs w = some (r, w') → Unprobed call r w.now ls →
      History P w₀ w' (call.record w'.now ls)

/-- What an entry of a link that has not expired has to do with the rows. -/
def EntryOk (w : World) (ls : Lookups) (code : String) (ex : Nat) : RedisValue → Prop
  | .missSentinel => textOk code = true ∧ (∀ r ∈ w.db.links, r.shortCode ≠ code) ∧
      ∃ t, (code, t) ∈ ls ∧ ex ≤ t + 30 * 1000
  | .link link => textOk code = true ∧
      ∃ row ∈ w.db.links, row.shortCode = code ∧ CachedRow w.now link row
  | .one => True

/-- The table keeps its keys, and all entries are in order, but perhaps the one
    of a code. -/
structure CacheOk (open? : Option String) (w : World) (ls : Lookups) : Prop where
  table : TableOk w.db
  entries : ∀ code v ex, open? ≠ some code →
    w.redis.entry (linkCacheKey code) = some ⟨v, ex⟩ → w.now < ex → EntryOk w ls code ex v

section Relation

variable {P : Platform} {tid : Nat} {ch : Choice} {w w' : World} {ls : Lookups}
  {open? : Option String} {code : String}

theorem entryOk_later {ms ex : Nat} {v : RedisValue} (h : EntryOk w ls code ex v) :
    EntryOk { w with now := w.now + ms } ls code ex v := by
  cases v with
  | missSentinel => exact h
  | one => trivial
  -- What has expired stays expired.
  | link link =>
      rcases h with ⟨htext, row, hrow, hcode, hcached⟩
      exact ⟨htext, row, hrow, hcode, cachedRow_later (Nat.le_add_right _ _) hcached⟩

theorem cacheOk_later (ms : Nat) (h : CacheOk open? w ls) :
    CacheOk open? { w with now := w.now + ms } ls := by
  refine ⟨h.table, fun code v ex hopen hentry hlt => ?_⟩
  -- An entry that is still there later is there now.
  have hlt' : w.now + ms < ex := hlt
  exact entryOk_later (h.entries code v ex hopen hentry (by omega))

theorem entryOk_same {ex : Nat} {v : RedisValue} (hdb : w'.db = w.db) (hnow : w'.now = w.now)
    (h : EntryOk w ls code ex v) : EntryOk w' ls code ex v := by
  unfold EntryOk at h ⊢
  rw [hdb, hnow]
  exact h

/-- More lookups are known of. -/
theorem cacheOk_more {ls' : Lookups} (hsub : ∀ x ∈ ls, x ∈ ls') (h : CacheOk open? w ls) :
    CacheOk open? w ls' := by
  refine ⟨h.table, fun code v ex hopen hentry hlt => ?_⟩
  have hok := h.entries code v ex hopen hentry hlt
  cases v with
  | missSentinel =>
      rcases hok with ⟨htext, habsent, t, ht, hle⟩
      exact ⟨htext, habsent, t, hsub _ ht, hle⟩
  | one => trivial
  | link link => exact hok

/-- A world that only drew values or took jobs is in the same order. -/
theorem cacheOk_same (h : CacheOk open? w ls) (hdb : w'.db = w.db) (hredis : w'.redis = w.redis)
    (hnow : w'.now = w.now) : CacheOk open? w' ls := by
  refine ⟨by rw [hdb]; exact h.table, fun code v ex hopen hentry hlt => ?_⟩
  rw [hredis] at hentry
  rw [hnow] at hlt
  exact entryOk_same hdb hnow (h.entries code v ex hopen hentry hlt)

/-- A statement by which no owner writes. -/
theorem cacheOk_kept {s : Stmt} {r : (Op.db s).Res} (hs : s.ownerWrites = false)
    (h : CacheOk open? w ls) (hx : exec P tid (.db s) ch w = some (r, w')) :
    CacheOk open? w' ls := by
  rcases exec_db_inv hx with ⟨db, hdb, rfl⟩
  rcases exec_kept hs h.table hdb with ⟨⟨f, hlinks, hf⟩, htable⟩
  refine ⟨htable, fun code v ex hopen hentry hlt => ?_⟩
  have hok := h.entries code v ex hopen hentry hlt
  cases v with
  | one => trivial
  -- The rows keep their codes, so a code that was absent still is.
  | missSentinel =>
      rcases hok with ⟨htext, habsent, hrest⟩
      refine ⟨htext, fun r hr => ?_, hrest⟩
      have hr' : r ∈ db.links := hr
      rw [hlinks] at hr'
      rcases List.mem_map.mp hr' with ⟨a, ha, rfl⟩
      rw [(hf a ha).shortCode]
      exact habsent a ha
  | link link =>
      rcases hok with ⟨htext, row, hrow, hcode, hcached⟩
      refine ⟨htext, f row, ?_, (hf row hrow).shortCode.trans hcode,
        cachedRow_kept hcached (hf row hrow)⟩
      simp only [hlinks]
      exact List.mem_map_of_mem hrow

/-- An owner's write breaks the order for the code it wrote at most. -/
theorem cacheOk_write {db : Db} (h : CacheOk none w ls) (htable : TableOk db)
    (hothers : OthersSame code w.db db) : CacheOk (some code) { w with db := db } ls := by
  refine ⟨htable, fun code' v ex hopen hentry hlt => ?_⟩
  -- Every other code has the rows it had.
  have hne : code' ≠ code := fun heq => hopen (by rw [heq])
  have hok := h.entries code' v ex (fun heq => by cases heq) hentry hlt
  cases v with
  | one => trivial
  | missSentinel =>
      rcases hok with ⟨htext, habsent, hrest⟩
      refine ⟨htext, fun r hr hcode => ?_, hrest⟩
      exact habsent r ((hothers r (by rw [hcode]; exact hne)).mp hr) hcode
  | link link =>
      rcases hok with ⟨htext, row, hrow, hcode, hcached⟩
      exact ⟨htext, row, (hothers row (by rw [hcode]; exact hne)).mpr hrow, hcode, hcached⟩

/-- The invalidation of a code mends what was broken for it. -/
theorem cacheOk_del {r : (Op.redis (.del (linkCacheKey code))).Res}
    (h : CacheOk (some code) w ls) (hfault : ch.fault = .none)
    (hx : exec P tid (.redis (.del (linkCacheKey code))) ch w = some (r, w')) :
    CacheOk none w' ls := by
  rcases exec_redis_inv hx with ⟨hexec, hw⟩
  simp only [Redis.exec, hfault, Prod.mk.injEq] at hexec
  rw [hw, hexec.2]
  refine ⟨h.table, fun code' v ex _ hentry hlt => ?_⟩
  simp only [Redis.apply, Redis.del] at hentry
  -- The entry of the code is gone, and every other is as it was.
  by_cases hkey : linkCacheKey code' = linkCacheKey code
  · rw [if_pos hkey] at hentry
    cases hentry
  · rw [if_neg hkey] at hentry
    have hopen : some code ≠ some code' := by
      intro heq
      rw [Option.some.injEq] at heq
      exact hkey (by rw [heq])
    have hok := h.entries code' v ex hopen hentry hlt
    cases v <;> exact hok

/-- A creation under a code whose misses have all expired breaks nothing. -/
theorem cacheOk_insert {l : NewLink} {row : LinkRow} {db : Db} (h : CacheOk none w ls)
    (hx : Db.exec P.pg w.now tid (.insertLink l) ch w.db = some (.ok [row], db))
    (hold : ∀ t, (l.shortCode, t) ∈ ls → t + 30 * 1000 ≤ w.now) :
    CacheOk none { w with db := db } ls := by
  rcases insertLink_tableOk h.table hx with ⟨htable, ⟨row', _, _, _, hnew, hothers⟩ | ⟨e, herr, _⟩⟩
  · refine ⟨htable, fun code v ex hopen hentry hlt => ?_⟩
    -- The code itself: its misses have expired, and a hit would need a row, which the insert
    -- excludes.
    by_cases hcode : code = l.shortCode
    · have hok := h.entries code v ex hopen hentry hlt
      rw [hcode] at hok
      cases v with
      | one => trivial
      | missSentinel =>
          rcases hok with ⟨_, _, t, ht, hle⟩
          have := hold t ht
          simp only at hlt
          omega
      | link link =>
          rcases hok with ⟨_, r, hr, hrcode, _⟩
          exact absurd hrcode (hnew r hr)
    · exact (cacheOk_write h htable hothers).entries code v ex
        (fun heq => hcode (Option.some.inj heq).symm) hentry hlt
  · cases herr

/-- A lookup stores what the row says. -/
theorem cacheOk_fill {link : Option RedirectLink} (h : CacheOk none w ls)
    (htext : textOk code = true) (hlink : link = stored w.db code) :
    CacheOk none { w with redis := w.redis.apply w.now (fillCmd code link) }
      ((code, w.now) :: ls) := by
  have hmore : CacheOk none w ((code, w.now) :: ls) :=
    cacheOk_more (fun _ hx => List.mem_cons_of_mem _ hx) h
  -- The other entries are as they were.
  have hother : ∀ value ttl code' v ex, code' ≠ code →
      (w.redis.set w.now (linkCacheKey code) value ttl).entry (linkCacheKey code')
        = some ⟨v, ex⟩ → w.now < ex → EntryOk w ((code, w.now) :: ls) code' ex v := by
    intro value ttl code' v ex hne hentry hlt
    simp only [Redis.set] at hentry
    rw [if_neg (fun hkey => hne (linkCacheKey_inj hkey))] at hentry
    exact hmore.entries code' v ex (fun heq => by cases heq) hentry hlt
  refine ⟨h.table, fun code' v ex _ hentry hlt => entryOk_same (w := w) rfl rfl ?_⟩
  by_cases hcode : code' = code
  · subst hcode
    unfold stored at hlink
    rcases hfind : w.db.links.find? (fun r => r.shortCode == code') with _ | row
    · -- A miss is remembered, and the row is absent.
      rw [hfind] at hlink
      subst hlink
      simp only [Option.map_none, fillCmd, Redis.apply, Redis.set, if_true, Option.some.injEq,
        RedisEntry.mk.injEq] at hentry
      rcases hentry with ⟨rfl, rfl⟩
      refine ⟨htext, fun r hr heq => ?_, w.now, List.mem_cons_self, Nat.le_refl _⟩
      have hno := List.find?_eq_none.mp hfind r hr
      exact hno (beq_iff_eq.mpr heq)
    · -- A row is stored as it is.
      rw [hfind] at hlink
      subst hlink
      simp only [Option.map_some, fillCmd, Redis.apply, Redis.set, if_true, Option.some.injEq,
        RedisEntry.mk.injEq] at hentry
      rcases hentry with ⟨rfl, rfl⟩
      have hrow := List.find?_some hfind
      exact ⟨htext, row, List.mem_of_find?_eq_some hfind, beq_iff_eq.mp hrow,
        cachedRow_self w.now row⟩
  · cases link with
    | none => exact hother _ _ code' v ex hcode hentry hlt
    | some link => exact hother _ _ code' v ex hcode hentry hlt

end Relation

section Decisions

variable {now now' : Nat} {link : RedirectLink} {row : LinkRow} {db : Db} {code : String}

/-- A link without a click cap is dead if it is inactive or has expired. -/
theorem dead_capless {link : RedirectLink} (hmax : link.maxClicks = none) :
    (deadStateError now link).isSome =
      (!link.isActive || link.expiresAt.any (fun t => decide (t ≤ (now : Int)))) := by
  unfold deadStateError
  rw [hmax]
  cases ha : link.isActive with
  | false => rfl
  | true =>
      simp only [Bool.true_eq_false, if_false]
      cases he : link.expiresAt.any (fun t => decide (t ≤ (now : Int))) with
      | true => rfl
      | false => rfl

/-- A copy of a row without a click cap decides as the row does. -/
theorem decision_cached (h : CachedRow now link row) (hcap : row.maxClicks = none)
    (hle : now ≤ now') :
    decision now' (some link) = decision now' (some (toRedirectLink row)) := by
  have hurl : link.destinationUrl = (toRedirectLink row).destinationUrl := by rw [h.same]
  have hhash : link.passwordHash = (toRedirectLink row).passwordHash := by rw [h.same]
  have hexp : link.expiresAt = row.expiresAt := by rw [h.same]; rfl
  have hmax : link.maxClicks = none := by rw [h.same]; exact hcap
  -- The click count does not matter without a cap, and the active flag differs only on a row that
  -- has expired.
  have hdead : (deadStateError now' link).isSome
      = (deadStateError now' (toRedirectLink row)).isSome := by
    have hrow : (toRedirectLink row).maxClicks = none := hcap
    rw [dead_capless hmax, dead_capless hrow, hexp]
    rcases h.active with hactive | ⟨hoff, hpast⟩
    · rw [hactive]
      rfl
    · have hlater : row.expiresAt.any (fun t => decide (t ≤ (now' : Int))) = true :=
        expired_later hle hpast
      have hlater' : (toRedirectLink row).expiresAt.any (fun t => decide (t ≤ (now' : Int)))
          = true := hlater
      rw [hlater, hlater', Bool.or_true, Bool.or_true]
  simp only [decision, hdead, hurl, hhash]

/-- The row with a code is the one the lookup finds. -/
theorem redirectLookup_row (hu : UniqueCodes db) (htext : textOk code = true)
    (hrow : row ∈ db.links) (hcode : row.shortCode = code) :
    db.redirectLookup code = .ok (db.links.filter (fun r => r.shortCode == code)) ∧
      (db.links.filter (fun r => r.shortCode == code)).head? = some row := by
  refine ⟨by rw [Db.redirectLookup, if_pos htext], ?_⟩
  rw [List.head?_filter]
  -- There is a row with the code, and codes are unique.
  rcases hfind : db.links.find? (fun r => r.shortCode == code) with _ | x
  · exact absurd (beq_iff_eq.mpr hcode) (List.find?_eq_none.mp hfind row hrow)
  · have hx := List.find?_some hfind
    rw [hfind, key_unique hu (List.mem_of_find?_eq_some hfind) hrow
      ((beq_iff_eq.mp hx).trans hcode.symm)]

theorem rowDecision_row (hu : UniqueCodes db) (htext : textOk code = true) (hrow : row ∈ db.links)
    (hcode : row.shortCode = code) :
    rowDecision now db code = .ok (decision now (some (toRedirectLink row))) := by
  rcases redirectLookup_row hu htext hrow hcode with ⟨hlook, hhead⟩
  rw [rowDecision, hlook]
  simp only [hhead, Option.map_some]

theorem rowDecision_absent (htext : textOk code = true)
    (habsent : ∀ r ∈ db.links, r.shortCode ≠ code) :
    rowDecision now db code = .ok .notFound := by
  rw [rowDecision, Db.redirectLookup, if_pos htext]
  -- No row has the code, so the lookup finds none.
  have hnil : db.links.filter (fun r => r.shortCode == code) = [] := by
    rw [List.filter_eq_nil_iff]
    exact fun r hr heq => habsent r hr (beq_iff_eq.mp heq)
  simp only [hnil, List.head?_nil, Option.map_none]
  rfl

end Decisions

section Programs

variable {P : Platform} {tid : Nat} {w : World} {ls : Lookups} {open? : Option String} {n : Nat}

/-- A statement some time after the previous operation. -/
theorem query_wp {s : Stmt} {Post : Except Err s.Rows → World → Prop}
    (h : ∀ ms ch r db, w.db.exec P.pg (w.now + ms) tid s ch = some (r, db) →
      Post (r.mapError Err.db) { w with now := w.now + ms, db := db }) :
    (query s).wp (steady P tid) Post w := by
  intro ch r w' hx
  have hx' : exec P tid (.db s) ch.2 { w with now := w.now + ch.1 } = some (r, w') := hx
  rcases exec_db_inv hx' with ⟨db, hdb, rfl⟩
  have hpost := h ch.1 ch.2 r db hdb
  cases r with
  | ok rows => exact hpost
  | error e => exact hpost

/-- A Redis command, which does not fail. -/
theorem redis_wp {c : RedisCmd} {Post : Except Err c.Reply → World → Prop}
    (h : ∀ ms, Post (.ok (Redis.reply (w.now + ms) c w.redis))
      { w with now := w.now + ms, redis := w.redis.apply (w.now + ms) c }) :
    (redis c).wp (steady P tid) Post w := by
  intro ch r w' hx
  have hx' : exec P tid (.redis c) { ch.2 with fault := .none } { w with now := w.now + ch.1 }
      = some (r, w') := hx
  simp only [exec, Redis.exec, Option.some.injEq, Prod.mk.injEq] at hx'
  rcases hx' with ⟨rfl, rfl⟩
  exact h ch.1

theorem getCachedLink_wp {code : String} {Post : Except Err CachedLink → World → Prop}
    (h : ∀ ms, Post (.ok (readCached (w.redis.get (w.now + ms) (linkCacheKey code))))
      { w with now := w.now + ms }) :
    (getCachedLink code).wp (steady P tid) Post w :=
  Prog.wp_tryCatch _ _ (Prog.wp_bind _ _ (redis_wp h))

theorem fillCache_wp {code : String} {link : Option RedirectLink}
    {Post : Except Err Unit → World → Prop}
    (h : ∀ ms, Post (.ok ()) { w with now := w.now + ms,
                                      redis := w.redis.apply (w.now + ms) (fillCmd code link) }) :
    (fillCache code link).wp (steady P tid) Post w := by
  cases link <;> exact Prog.wp_tryCatch _ _ (redis_wp h)

theorem invalidateLinkCache_wp {code : String} {Post : Except Err Unit → World → Prop}
    (h : CacheOk (some code) w ls)
    (hpost : ∀ v, CacheOk none v ls → Post (.ok ()) v) :
    (invalidateLinkCache code).wp (steady P tid) Post w := by
  refine Prog.wp_tryCatch _ _ (redis_wp fun ms => hpost _ ?_)
  have hdel : exec P tid (.redis (.del (linkCacheKey code))) {} { w with now := w.now + ms }
      = some (.ok (), { w with now := w.now + ms,
                               redis := w.redis.apply (w.now + ms) (.del (linkCacheKey code)) }) :=
    rfl
  exact cacheOk_del (cacheOk_later ms h) rfl hdel

/-- Every link with the code has no click cap. -/
def Capless (db : Db) (code : String) : Prop :=
  ∀ row ∈ db.links, row.shortCode = code → row.maxClicks = none

/-- A lookup leaves the cache in order, and decides as the row does. -/
theorem lookup_wp {code : String} (h : CacheOk none w ls) :
    (getLinkByShortCode code).wp (steady P tid) (fun r v =>
      CacheOk none v ((code, v.now) :: ls) ∧ (Capless w.db code → ∀ now, v.now ≤ now →
        r.map (decision now) = rowDecision now w.db code)) w := by
  refine Prog.wp_bind _ _ (getCachedLink_wp fun ms => ?_)
  have h₁ := cacheOk_later ms h
  have hmore : ∀ {v : World}, CacheOk none v ls → CacheOk none v ((code, v.now) :: ls) :=
    fun h => cacheOk_more (fun _ hx => List.mem_cons_of_mem _ hx) h
  simp only [Prog.thenWp_ok]
  rcases hcached : readCached (w.redis.get (w.now + ms) (linkCacheKey code)) with _ | link
  · -- The row is read, and what it says is stored.
    simp only
    refine Prog.wp_bind _ _ (query_wp fun ms₂ ch r db hx => ?_)
    rcases r with e | rows
    · -- The lookup fails exactly as the decision on the row does, and stores nothing.
      have hdb := Db.exec_read rfl hx
      refine ⟨hmore ?_, fun _ now _ => ?_⟩
      · rw [hdb]
        exact cacheOk_later ms₂ h₁
      · simp only [Db.exec, Option.some.injEq, Prod.mk.injEq] at hx
        simp only [rowDecision, hx.1]
        rfl
    · have hrows := Db.redirectLookup_ok hx
      have htext : textOk code = true := by
        by_contra hno
        simp only [Db.exec, Db.redirectLookup, if_neg hno, Option.some.injEq, Prod.mk.injEq,
          reduceCtorEq, false_and] at hx
      have hdb := Db.exec_read rfl hx
      subst hdb
      simp only [Except.mapError, Prog.thenWp_ok]
      have h₂ := cacheOk_later ms₂ h₁
      refine Prog.wp_bind _ _ (fillCache_wp fun ms₃ => ⟨?_, fun _ now _ => ?_⟩)
      · exact cacheOk_fill (cacheOk_later ms₃ h₂) htext (head_stored hrows)
      · rw [rowDecision, Db.redirectLookup, if_pos htext, hrows]
        rfl
  · -- A hit: the entry is in order.
    refine ⟨hmore h₁, fun hcap now hle => ?_⟩
    rcases hraw : w.redis.get (w.now + ms) (linkCacheKey code) with _ | v
    · rw [hraw] at hcached
      cases hcached
    · rw [hraw] at hcached
      rcases Redis.get_some hraw with ⟨ex, hentry, hlt⟩
      have hok := h₁.entries code v ex (fun heq => by cases heq) hentry hlt
      cases v with
      | one => cases hcached
      | missSentinel =>
          rcases hok with ⟨htext, habsent, _⟩
          cases hcached
          exact (rowDecision_absent htext habsent).symm
      | link l =>
          rcases hok with ⟨htext, row, hrow, hcode, hcopy⟩
          cases hcached
          rw [rowDecision_row h.table.codes htext hrow hcode,
            ← decision_cached hcopy (hcap row hrow hcode) hle]
          rfl

/-- An operation that neither uses Redis nor writes links for their owner. -/
def BehindCache : Op → Prop
  | .redis _ => False
  | .db s => s.ownerWrites = false
  | _ => True

theorem cacheOk_behind {op : Op} {ch : Nat × Choice} {r : op.Res} {w' : World}
    (hop : BehindCache op) (h : CacheOk open? w ls) (hx : steady P tid op ch w = some (r, w')) :
    CacheOk open? w' ls ∧ w.now ≤ w'.now := by
  have h₁ := cacheOk_later ch.1 h
  have hx' : exec P tid op (withoutFault op ch.2) { w with now := w.now + ch.1 }
      = some (r, w') := hx
  have hnow := exec_now_eq hx'
  refine ⟨?_, by rw [hnow]; exact Nat.le_add_right _ _⟩
  -- What is no statement and no Redis command touches neither side.
  by_cases hs : ∀ s, op ≠ .db s
  · have hc : ∀ c, op ≠ .redis c := by
      rintro c rfl
      exact hop
    exact cacheOk_same h₁ (exec_db_eq hs hx') (exec_redis_eq hc hx') hnow
  · push Not at hs
    rcases hs with ⟨s, rfl⟩
    exact cacheOk_kept hop h₁ hx'

/-- A program of such operations. -/
theorem behind_wp {α : Type} {Post : Except Err α → World → Prop} {x : Api α}
    (hx : x.Only BehindCache) (h : CacheOk open? w ls) (hn : n ≤ w.now)
    (hpost : ∀ r v, CacheOk open? v ls → n ≤ v.now → Post r v) :
    x.wp (steady P tid) Post w := by
  refine Prog.wp_keeps (I := fun v => CacheOk open? v ls ∧ n ≤ v.now)
    (fun op ch v r v' hop hI hr => ?_) (fun r v hI => hpost r v hI.1 hI.2) x hx w ⟨h, hn⟩
  rcases cacheOk_behind hop hI.1 hr with ⟨hok, hle⟩
  exact ⟨hok, by omega⟩

theorem hashOp_behind {op : Op} (h : hashOp op) : BehindCache op := by
  cases op with
  | bcryptHash plain => trivial
  | _ => exact h.elim

/-- One insert. The order is broken for its code at most, and not even for that
    if every miss of the code that was remembered has expired. -/
theorem insertLink_wp {userId code : String} {input : CreateLinkInput} {hash : Option String}
    (h : CacheOk none w ls) (hn : n ≤ w.now) :
    (insertLink userId code input hash).wp (steady P tid) (fun r v => match r with
      | .ok (some row) => row.shortCode = code ∧ CacheOk (some code) v ls ∧
          ((∀ t, (code, t) ∈ ls → t + 30 * 1000 ≤ n) → CacheOk none v ls)
      | _ => CacheOk none v ls ∧ n ≤ v.now) w := by
  refine Prog.wp_tryCatch _ _ (Prog.wp_bind _ _ (query_wp fun ms ch r db hx => ?_))
  have h₁ := cacheOk_later ms h
  rcases insertLink_tableOk h.table hx with
    ⟨htable, ⟨row, rfl, hcode, _, _, hothers⟩ | ⟨e, rfl, hlinks⟩⟩
  · exact ⟨hcode, cacheOk_write h₁ htable hothers,
      fun hold => cacheOk_insert h₁ hx (fun t ht => by have := hold t ht; simp only; omega)⟩
  · -- The insert failed: the links are the same, and only an id was drawn.
    have hnone : CacheOk none { w with now := w.now + ms, db := db } ls ∧ n ≤ w.now + ms := by
      refine ⟨⟨htable, fun code' v ex hopen hentry hlt => ?_⟩, by omega⟩
      have hok := h₁.entries code' v ex hopen hentry hlt
      cases v with
      | one => trivial
      | missSentinel => exact ⟨hok.1, by simp only [hlinks]; exact hok.2⟩
      | link link => exact ⟨hok.1, by simp only [hlinks]; exact hok.2⟩
    simp only [Except.mapError, Prog.thenWp_error, Prog.catchWp_error]
    cases (Err.db e).isUniqueViolation <;> exact hnone

theorem createGenerated_wp {userId : String} {input : CreateLinkInput} {hash : Option String} :
    ∀ (attempts : Nat) (w : World), CacheOk none w ls → n ≤ w.now →
      (createGenerated userId input hash attempts).wp (steady P tid) (fun r v =>
        (∀ link, r = .ok link → ∀ t, (link.shortCode, t) ∈ ls → t + 30 * 1000 ≤ n) →
        CacheOk none v ls) w := by
  intro attempts
  induction attempts with
  | zero => exact fun w h _ _ => h
  -- Each attempt that collides leaves the order as it was, so the next starts from it.
  | succ k ih =>
      intro w h hn
      refine Prog.wp_bind _ _ (behind_wp ⟨trivial, fun _ => trivial⟩ h hn (fun r v h₁ hn₁ => ?_))
      rcases r with e | code
      · exact fun _ => h₁
      · refine Prog.wp_bind _ _ (Prog.wp_mono (fun r v₂ h₂ => ?_) _ _ (insertLink_wp h₁ hn₁))
        rcases r with e | _ | row
        · exact fun _ => h₂.1
        · exact ih v₂ h₂.1 h₂.2
        · rcases h₂ with ⟨hcode, _, hold⟩
          refine fun hun => hold (fun t ht => hun (toLink row) rfl t ?_)
          have hshort : (toLink row).shortCode = code := hcode
          rw [hshort]
          exact ht

theorem createAliased_wp {userId customAlias : String} {input : CreateLinkInput}
    {hash : Option String} (h : CacheOk none w ls) (hn : n ≤ w.now) :
    (createAliased userId customAlias input hash).wp (steady P tid)
      (fun _ v => CacheOk none v ls) w := by
  refine Prog.wp_bind _ _ (behind_wp (query_only _ _ rfl) h hn (fun r v h₁ hn₁ => ?_))
  rcases r with e | existing
  · exact h₁
  · simp only [Prog.thenWp_ok]
    cases existing.head? with
    | some _ => exact h₁
    | none =>
        refine Prog.wp_bind _ _ (Prog.wp_mono (fun r v₂ h₂ => ?_) _ _ (insertLink_wp h₁ hn₁))
        rcases r with e | _ | row
        · exact h₂.1
        · exact h₂.1
        · -- The alias may have been looked up before, and its miss is invalidated.
          exact Prog.wp_bind _ _ (invalidateLinkCache_wp h₂.2.1 (fun _ h₃ => h₃))

theorem createLink_wp {userId : String} {input : CreateLinkInput} (h : CacheOk none w ls)
    (hn : n ≤ w.now) :
    (createLink userId input).wp (steady P tid) (fun r v =>
      (truthy input.customAlias = none → ∀ link, r = .ok link → ∀ t,
        (link.shortCode, t) ∈ ls → t + 30 * 1000 ≤ n) → CacheOk none v ls) w := by
  refine Prog.wp_bind _ _ (behind_wp (Prog.only_mono (fun _ ho => hashOp_behind ho) _
    (hashGiven_only _)) h hn (fun r v h₁ hn₁ => ?_))
  rcases r with e | hash
  · exact fun _ => h₁
  · simp only [Prog.thenWp_ok]
    cases truthy input.customAlias with
    | some customAlias =>
        refine Prog.wp_mono (fun r v₂ h₂ => ?_) _ _ (createAliased_wp h₁ hn₁)
        exact fun _ => h₂
    | none =>
        exact Prog.wp_mono (fun _ _ h₂ hun => h₂ (hun rfl)) _ _ (createGenerated_wp _ v h₁ hn₁)

theorem sendUpdate_wp {userId linkId : String} {s : SetList} (h : CacheOk none w ls) :
    (sendUpdate userId linkId s).wp (steady P tid) (fun _ v => CacheOk none v ls) w := by
  unfold sendUpdate
  by_cases hempty : s.setClauses.length = 0
  · rw [if_pos hempty]
    exact behind_wp (getLink_only userId linkId rfl) h (Nat.zero_le _) (fun _ _ h₁ _ => h₁)
  · rw [if_neg hempty]
    refine Prog.wp_bind _ _ (query_wp fun ms ch r db hx => ?_)
    have h₁ := cacheOk_later ms h
    -- A row that was written breaks the order for its code, which the invalidation mends.
    rcases updateLink_tableOk h.table hx with ⟨htable, ⟨rfl, hnone⟩ | ⟨row, rfl, hothers⟩⟩
    · rcases r with e | rows
      · exact h₁
      · simp only [Except.mapError, Prog.thenWp_ok]
        rcases Db.updateLink_inv hx with ⟨_, herr, _⟩ | ⟨hnil, _⟩ |
          ⟨_, _, _, row', _, _, _, _, _, _, _, _, hone, _⟩
        · cases herr
        · cases hnil
          exact h₁
        · exact absurd hone (hnone row')
    · exact Prog.wp_bind _ _ (invalidateLinkCache_wp (cacheOk_write h₁ htable hothers)
        (fun _ h₃ => h₃))

theorem updateLink_wp {userId linkId : String} {input : UpdateLinkInput} (h : CacheOk none w ls) :
    (updateLink userId linkId input).wp (steady P tid) (fun _ v => CacheOk none v ls) w := by
  refine Prog.wp_bind _ _ (behind_wp (Prog.only_mono (fun _ ho => hashOp_behind ho) _
    (hashField_only _)) h (Nat.zero_le _) (fun r v h₁ _ => ?_))
  rcases r with e | hash
  · exact h₁
  · exact sendUpdate_wp h₁

theorem deleteLink_wp {userId linkId : String} (h : CacheOk none w ls) :
    (deleteLink userId linkId).wp (steady P tid) (fun _ v => CacheOk none v ls) w := by
  refine Prog.wp_bind _ _ (query_wp fun ms ch r db hx => ?_)
  have h₁ := cacheOk_later ms h
  rcases deleteLink_tableOk h.table hx with
    ⟨htable, ⟨rfl, rfl | ⟨e, rfl⟩⟩ | ⟨i, code, rfl, hothers⟩⟩
  · exact h₁
  · exact h₁
  · exact Prog.wp_bind _ _ (invalidateLinkCache_wp (cacheOk_write h₁ htable hothers)
      (fun _ h₃ => h₃))

/-- Every call of a history, with its condition, leaves the cache in order. -/
theorem call_wp {call : Call} (hcall : call.tendsLinks = true) (h : CacheOk none w ls) :
    (body P call).wp (steady P tid) (fun r v => Unprobed call r w.now ls →
      CacheOk none v (call.record v.now ls)) w := by
  cases call with
  | getLinkByShortCode code =>
      exact Prog.wp_map (Prog.wp_mono (fun r v h₁ _ => h₁.1) _ _ (lookup_wp h))
  | createLink userId input =>
      refine Prog.wp_map (Prog.wp_mono (fun r v h₁ hun => h₁ (fun halias link hlink => ?_)) _ _
        (createLink_wp h (Nat.le_refl _)))
      -- The condition of the history is about the link that was created.
      exact hun userId input link rfl halias (by rw [hlink]; rfl)
  | updateLink userId linkId input =>
      refine Prog.wp_map (Prog.wp_mono (fun r v h₁ => ?_) _ _ (updateLink_wp h))
      exact fun _ => h₁
  | deleteLink userId linkId =>
      refine Prog.wp_map (Prog.wp_mono (fun r v h₁ => ?_) _ _ (deleteLink_wp h))
      exact fun _ => h₁
  | processClickJob data =>
      refine Prog.wp_map (behind_wp (Prog.only_mono (fun op hop => ?_) _
        (processClickJob_only data)) h (Nat.zero_le _) (fun _ _ h₁ _ _ => h₁))
      cases op with
      | redis c => exact hop
      | db s => cases s <;> first | rfl | exact hop.elim
      | _ => trivial
  | sweepExpiredLinks =>
      exact Prog.wp_map (behind_wp (query_only _ .sweepExpired rfl) h (Nat.zero_le _)
        (fun _ _ h₁ _ _ => h₁))
  | _ => cases hcall

end Programs

/-- The state before a history: the links' keys hold, no click is in progress,
    and no link is cached. -/
structure FreshStart (w₀ : World) : Prop where
  ids : w₀.db.links.Pairwise (fun a b => a.id ≠ b.id)
  codes : UniqueCodes w₀.db
  drawn : ∀ r ∈ w₀.db.links, r.id ∈ w₀.db.ids
  idle : w₀.db.txs = []
  cold : ∀ code, w₀.redis.get w₀.now (linkCacheKey code) = none

section Histories

variable {P : Platform} {w₀ w : World} {ls : Lookups}

theorem freshStart_ok (h : FreshStart w₀) : CacheOk none w₀ [] := by
  refine ⟨⟨h.ids, h.codes, h.drawn, fun t ht => ?_⟩, fun code v ex _ hentry hlt => ?_⟩
  · rw [h.idle] at ht
    cases ht
  · have hcold := h.cold code
    simp only [Redis.get, hentry, if_pos hlt, reduceCtorEq] at hcold

/-- The cache is in order between any two calls of a history. -/
theorem history_ok (h0 : FreshStart w₀) (h : History P w₀ w ls) : CacheOk none w ls := by
  induction h with
  | start => exact freshStart_ok h0
  | tick w ls ms _ ih => exact cacheOk_later ms ih
  | perform w w' ls call tid chs r _ hcall hrun hun ih =>
      exact (Prog.wp_iff _ _).mp (call_wp hcall ih) chs r w' hrun hun

/-- Between any two calls of a history, and for every code that no capped link
    has, the decision computed from a lookup is the one computed from the row,
    at any time from the end of the lookup on. -/
theorem cached_refines_row (P : Platform) (w₀ : World) (h0 : FreshStart w₀) (w : World)
    (ls : Lookups) (h : History P w₀ w ls) (code : String) (hcap : Capless w.db code)
    (tid : Nat) (chs : List (Nat × Choice)) (r : Except Err (Option RedirectLink)) (v : World)
    (hrun : (getLinkByShortCode code).seqRun (steady P tid) chs w = some (r, v)) (now : Nat)
    (hnow : v.now ≤ now) : r.map (decision now) = rowDecision now w.db code :=
  ((Prog.wp_iff _ _).mp (lookup_wp (history_ok h0 h)) chs r v hrun).2 hcap now hnow

end Histories

/-- A link of the account `u` that expires ten seconds after the start. -/
def expiringWorld : World :=
  { ownerWorld with db := { ownerWorld.db with
      ids := ["l"],
      links := [
        { id := "l", userId := "u", shortCode := "c", destinationUrl := "https://a.example/",
          passwordHash := none, expiresAt := some 10000, maxClicks := none, clickCount := 0,
          isActive := true, createdAt := 0, updatedAt := 0 }] } }

theorem freshStart_expiring : FreshStart expiringWorld where
  ids := List.pairwise_singleton _ _
  codes := List.pairwise_singleton _ _
  drawn := by decide
  idle := rfl
  cold := fun _ => rfl

/-- The link is looked up, expires and is swept, and the next lookup still
    returns it as active: the decision is that of the row. -/
theorem cached_refines_row_swept : ∃ w ls r v,
    History samplePlatform expiringWorld w ls ∧
    (getLinkByShortCode "c").seqRun (steady samplePlatform 2) [(5, {})] w = some (r, v) ∧
    (r.toOption.join.any (·.isActive) &&
      w.db.links.all (fun row => !row.isActive && row.maxClicks.isNone)) = true ∧
    r.map (decision v.now) = rowDecision v.now w.db "c" := by
  have hrun : (((body samplePlatform (.getLinkByShortCode "c")).seqRun (steady samplePlatform 0)
      [(0, {}), (1, {}), (1, {})] expiringWorld).bind (fun o₁ =>
        ((body samplePlatform .sweepExpiredLinks).seqRun (steady samplePlatform 1)
          [(20000, {})] o₁.2).bind (fun o₂ =>
            ((getLinkByShortCode "c").seqRun (steady samplePlatform 2) [(5, {})] o₂.2).map
              (fun o₃ => (o₁, o₂, o₃))))).any (fun o =>
        o.2.2.1.toOption.join.any (·.isActive) &&
          o.2.1.2.db.links.all (fun row => !row.isActive && row.maxClicks.isNone)) = true := by
    decide
  rcases (Option.any_eq_true _ _).mp hrun with ⟨⟨o₁, o₂, o₃⟩, hsome, hp⟩
  simp only [Option.bind_eq_some_iff, Option.map_eq_some_iff, Prod.mk.injEq] at hsome
  rcases hsome with ⟨⟨r₁, w₁⟩, h₁, ⟨r₂, w₂⟩, h₂, ⟨r₃, v⟩, h₃, rfl, rfl, rfl⟩
  -- A lookup that fills the cache, and a sweep that ends the link.
  have hist₀ : History samplePlatform expiringWorld expiringWorld [] := History.start
  have hist₁ := History.perform _ w₁ _ (.getLinkByShortCode "c") 0 _ r₁ hist₀ rfl h₁
    (fun _ _ _ hcall => by cases hcall)
  have hist₂ := History.perform _ w₂ _ .sweepExpiredLinks 1 _ r₂ hist₁ rfl h₂
    (fun _ _ _ hcall => by cases hcall)
  -- The link has no cap, so that nothing but its expiry ends it.
  have hcap : Capless w₂.db "c" := by
    intro row hrow _
    rw [Bool.and_eq_true, List.all_eq_true] at hp
    have hrow' := hp.2 row hrow
    rw [Bool.and_eq_true, Option.isNone_iff_eq_none] at hrow'
    exact hrow'.2
  exact ⟨w₂, _, r₃, v, hist₂, h₃, hp, cached_refines_row samplePlatform expiringWorld
    freshStart_expiring w₂ _ hist₂ "c" hcap 2 _ r₃ v h₃ v.now (Nat.le_refl _)⟩

end ClickScope
