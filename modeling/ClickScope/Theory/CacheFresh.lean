import ClickScope.Theory.Rules

/-!
# Freshness of the Cached Lookup

What a lookup can still return once a write to its link has returned.

A writer changes the row and then deletes the cache entry; a reader that misses
reads the row and then stores what it read. Between these four steps anything
can happen. A value is `Fresh` for a write when the row had it at some moment
from the write on, and the invariant is that every entry is fresh for every
write whose invalidation is over.

One order of steps breaks it: the read before the write, and the store after
the invalidation. Nothing removes the entry then, and every later lookup
returns it until it expires. `orderly` forbids just that, by a condition on the
moment at which a reader stores what it has read.

## Main definitions

* `content`: The settings behind a short code.
* `wrote`, `Settled`: A write to a link, and the end of its invalidation.
* `Fresh`: No older than a write.
* `lookups`: Readers and writers, with a working Redis.
* `orderly`: The runs in which no reader stores an overtaken value.
* `NoStaleRead`: No lookup after a write returns an older value.

## Theorems

* `cacheInv_push`: Every operation keeps the invariant.
* `lookup_fresh`: No stale read in orderly runs.
* `lookup_stale`: A stale read.
-/

namespace ClickScope

open Async

/-- Everything a lookup returns but the click count. -/
def settingsOf (link : RedirectLink) : RedirectLink := { link with clickCount := 0 }

/-- The settings behind a short code, or none. -/
def content (db : Db) (code : String) : Option RedirectLink :=
  (db.links.find? (fun r => r.shortCode == code)).map (fun r => settingsOf (toRedirectLink r))

/-- The short code of the row a statement wrote. -/
def wrote : (op : Op) → op.Res → Option String
  | .db (.insertLink _), .ok rows => rows.head?.map (·.shortCode)
  | .db (.updateLink _ _ _ _), .ok rows => rows.head?.map (·.shortCode)
  | .db (.deleteLink _ _), .ok rows => rows.head?.map (·.2)
  | _, _ => none

def Op.deletes : Op → Bool
  | .redis (.del _) => true
  | _ => false

/-- The writer has invalidated the entry of the link it wrote. -/
def Settled (log : List Ev) (e : Ev) (code : String) : Prop :=
  ∃ d ∈ log, d.tid = e.tid ∧ e.seq < d.seq ∧ d.op = .redis (.del (linkCacheKey code))

/-- The row had the settings at some moment from position `n` on. -/
def Fresh (log : List Ev) (n : Nat) (code : String) (v : Option RedirectLink) : Prop :=
  ∃ e ∈ log, n ≤ e.seq ∧ content e.after.db code = v

section Histories

variable {log log' : List Ev} {code : String}

theorem settled_mono (h : log <:+ log') {e : Ev} (hs : Settled log e code) :
    Settled log' e code := by
  rcases hs with ⟨d, hd, hrest⟩
  exact ⟨d, h.subset hd, hrest⟩

theorem fresh_mono (h : log <:+ log') {n : Nat} {v : Option RedirectLink}
    (hf : Fresh log n code v) : Fresh log' n code v := by
  rcases hf with ⟨e, he, hrest⟩
  exact ⟨e, h.subset he, hrest⟩

end Histories

/-- Lookups, partial updates, deletions and creations under an alias. -/
def Call.cachesLink : Call → Bool
  | .getLinkByShortCode _ | .updateLink _ _ _ | .deleteLink _ _ => true
  | .createLink _ input => (truthy input.customAlias).isSome
  | _ => false

/-- Any number of these calls, and every Redis command succeeds. -/
def lookups : Policy Op Op.Res Call Choice World where
  mayStart := fun _ call => call.cachesLink = true
  mayDo := fun _ _ _ op ch => ∀ c, op = .redis c → ch.fault = .none

/-- What the thread has read for the code was overtaken: since then a write to
    the link was made and its invalidation is over, and the row has not had
    that content again. -/
def Overtaken (st : Hist) (i : Nat) (code : String) : Prop :=
  ∃ e ∈ st.mine i, e.op = .db (.redirectLookup code) ∧ ∃ x ∈ st.log, e.seq < x.seq ∧
    wrote x.op x.res = some code ∧ Settled st.log x code ∧
    ¬ Fresh st.log x.seq code (content e.after.db code)

/-- No reader stores an overtaken value. -/
def orderly : Policy Op Op.Res Call Choice World where
  mayStart := lookups.mayStart
  mayDo := fun st i call op ch => lookups.mayDo st i call op ch ∧
    ∀ code v ex, op = .redis (.set (linkCacheKey code) v ex) → ¬ Overtaken st i code

/-- Every entry is fresh for every write whose invalidation is over. -/
def CacheInv (st : Hist) : Prop :=
  ∀ code v ex link, st.world.redis.entry (linkCacheKey code) = some ⟨v, ex⟩ →
    readCached (some v) = .found link → ∀ x ∈ st.log, wrote x.op x.res = some code →
    Settled st.log x code → Fresh st.log x.seq code (link.map settingsOf)

/-- The thread has read the link for the code, and the row had its settings. -/
def HasRead (st : Hist) (i : Nat) (code : String) (link : Option RedirectLink) : Prop :=
  ∃ e ∈ st.mine i, e.op = .db (.redirectLookup code) ∧
    content e.after.db code = link.map settingsOf

/-- What a call owes: it stores what it has read. -/
def cachePre (st : Hist) (i : Nat) : Op → Prop
  | .redis (.set key v _) => ∀ code, key = linkCacheKey code →
      ∃ link, readCached (some v) = .found link ∧ HasRead st i code link
  | _ => True

/-- The thread's writes are all followed by their invalidations, but perhaps
    the ones to a given code. -/
def SettledBut (st : Hist) (i : Nat) (open? : Option String) : Prop :=
  ∀ e ∈ st.mine i, ∀ code, wrote e.op e.res = some code → open? = some code ∨ Settled st.log e code

def cacheFresh : Protocol Op Op.Res Err Reply Call Choice World Unit where
  toPolicy := orderly
  loc := fun _ _ => ()
  Inv := CacheInv
  Pre := fun st i _ op => cachePre st i op
  Post := fun i call st₀ r st => SettledBut st i none ∧ ∀ code link,
    call = .getLinkByShortCode code → r = .ok (.lookup link) → ∀ x ∈ st₀.log,
    wrote x.op x.res = some code → Settled st₀.log x code →
    Fresh st.log x.seq code (link.map settingsOf)

section Steps

variable {P : Platform} {i : Nat} {call : Call} {st : Hist} {ch : Choice} {op : Op} {r : op.Res}
  {w : World}

/-- Only an invalidation ends an invalidation. -/
theorem settled_push (hop : op.deletes = false) {x : Ev} {code : String}
    (h : Settled (st.push i call op ch r w).log x code) : Settled st.log x code := by
  rcases h with ⟨d, hd, htid, hseq, hdel⟩
  rw [State.push_log, List.mem_cons] at hd
  rcases hd with rfl | hd
  · have hdel' : op = .redis (.del (linkCacheKey code)) := hdel
    rw [hdel'] at hop
    cases hop
  · exact ⟨d, hd, htid, hseq, hdel⟩

/-- A write that is just made is not invalidated yet. -/
theorem not_settled_new (hs : st.SeqLt) {x : Ev} (hx : x.seq = st.log.length) {code : String} :
    ¬ Settled (st.push i call op ch r w).log x code := by
  rintro ⟨d, hd, _, hseq, _⟩
  rw [State.push_log, List.mem_cons] at hd
  rcases hd with rfl | hd
  · exact absurd hseq (by rw [hx]; exact Nat.lt_irrefl _)
  · have := hs d hd
    omega

theorem cacheInv_push (hi : CacheInv st) (hs : st.SeqLt) (hpre : cachePre st i op)
    (hmay : orderly.mayDo st i call op ch) (hx : exec P i op ch st.world = some (r, w)) :
    CacheInv (st.push i call op ch r w) := by
  have hsuffix : st.log <:+ (st.push i call op ch r w).log := List.suffix_cons _ _
  intro code v ex link hentry hlink x hxlog hwrote hsettled
  rw [State.push_log, List.mem_cons] at hxlog
  rcases hxlog with rfl | hxlog
  · exact absurd hsettled (not_settled_new hs rfl)
  · rw [State.push_world] at hentry
    by_cases hc : ∀ c, op ≠ .redis c
    · -- Redis is as it was.
      have hdeletes : op.deletes = false := by
        cases op with
        | redis c => exact absurd rfl (hc c)
        | _ => rfl
      rw [exec_redis_eq hc hx] at hentry
      exact fresh_mono hsuffix (hi code v ex link hentry hlink x hxlog hwrote
        (settled_push hdeletes hsettled))
    · push Not at hc
      rcases hc with ⟨c, rfl⟩
      have hfault := hmay.1 c rfl
      have hexec := (exec_redis_inv hx).1
      simp only [Redis.exec, hfault, Prod.mk.injEq] at hexec
      rcases hexec with ⟨hr, hredis⟩
      cases c with
      | get key =>
          rw [hredis] at hentry
          exact fresh_mono hsuffix (hi code v ex link hentry hlink x hxlog hwrote
            (settled_push rfl hsettled))
      | set key v' ttl =>
          have hold := settled_push rfl hsettled
          rw [hredis] at hentry
          simp only [Redis.apply, Redis.set] at hentry
          by_cases hkey : linkCacheKey code = key
          · rw [if_pos hkey, Option.some.injEq, RedisEntry.mk.injEq] at hentry
            rcases hpre code hkey.symm with ⟨link', hread, e, he, hop, hcontent⟩
            rw [hentry.1, hlink, CachedLink.found.injEq] at hread
            rw [← hread] at hcontent
            rcases Nat.lt_or_ge e.seq x.seq with hlt | hge
            · -- Read before the write: the value has to be current again.
              have hnot := hmay.2 code v' ttl (by rw [hkey])
              have hfresh : Fresh st.log x.seq code (content e.after.db code) := by
                by_contra hstale
                exact hnot ⟨e, he, hop, x, hxlog, hlt, hwrote, hold, hstale⟩
              rw [hcontent] at hfresh
              exact fresh_mono hsuffix hfresh
            · exact fresh_mono hsuffix ⟨e, (State.mem_mine.mp he).1, hge, hcontent⟩
          · rw [if_neg hkey] at hentry
            exact fresh_mono hsuffix (hi code v ex link hentry hlink x hxlog hwrote hold)
      | del key =>
          rw [hredis] at hentry
          simp only [Redis.apply, Redis.del] at hentry
          by_cases hkey : linkCacheKey code = key
          · rw [if_pos hkey] at hentry
            cases hentry
          · rw [if_neg hkey] at hentry
            -- The invalidation is of another code.
            refine fresh_mono hsuffix (hi code v ex link hentry hlink x hxlog hwrote ?_)
            rcases hsettled with ⟨d, hd, htid, hseq, hdel⟩
            rw [State.push_log, List.mem_cons] at hd
            rcases hd with rfl | hd
            · simp only [Op.redis.injEq, RedisCmd.del.injEq] at hdel
              exact absurd hdel.symm hkey
            · exact ⟨d, hd, htid, hseq, hdel⟩
      | getdel key =>
          rw [hredis] at hentry
          simp only [Redis.apply, Redis.del] at hentry
          by_cases hkey : linkCacheKey code = key
          · rw [if_pos hkey] at hentry
            cases hentry
          · rw [if_neg hkey] at hentry
            exact fresh_mono hsuffix (hi code v ex link hentry hlink x hxlog hwrote
              (settled_push rfl hsettled))

theorem settledBut_later {st' : Hist} {open? : Option String} (hl : Later (fun _ _ => ()) i st st')
    (h : SettledBut st i open?) : SettledBut st' i open? := by
  intro e he code hwrote
  rw [hl.mine_eq] at he
  exact (h e he code hwrote).imp_right (settled_mono hl.log_le)

/-- An operation leaves at most its own write open. -/
theorem settledBut_push {open? : Option String} (h : SettledBut st i none)
    (hnew : ∀ code, wrote op r = some code → open? = some code) :
    SettledBut (st.push i call op ch r w) i open? := by
  intro e he code hwrote
  rw [State.push_mine, List.mem_cons] at he
  rcases he with rfl | he
  · exact Or.inl (hnew code hwrote)
  · rcases h e he code hwrote with hopen | hsettled
    · cases hopen
    · exact Or.inr (settled_mono (List.suffix_cons _ _) hsettled)

/-- An invalidation settles the write to its link. -/
theorem settledBut_del {code : String} (hs : st.SeqLt) (h : SettledBut st i (some code))
    {r : (Op.redis (.del (linkCacheKey code))).Res} :
    SettledBut (st.push i call (.redis (.del (linkCacheKey code))) ch r w) i none := by
  intro e he code' hwrote
  rw [State.push_mine, List.mem_cons] at he
  right
  rcases he with rfl | he
  · cases hwrote
  · rcases h e he code' hwrote with hopen | hsettled
    · rw [Option.some.injEq] at hopen
      rw [← hopen]
      rcases State.mem_mine.mp he with ⟨hlog, htid⟩
      exact ⟨_, List.mem_cons_self, htid.symm, hs e hlog, rfl⟩
    · exact settled_mono (List.suffix_cons _ _) hsettled

end Steps

section Programs

variable {P : Platform} {i : Nat} {call : Call} {st : Hist} {α : Type}

/-- An operation that neither writes a link nor fills the cache. -/
def quietOp (op : Op) : Prop := (∀ r, wrote op r = none) ∧ ∀ st i, cachePre st i op

theorem quiet_sat {Post : Except Err α → Hist → Prop} (x : Api α) (hx : x.Only quietOp)
    (hpost : ∀ r st', SettledBut st' i none → Post r st') (h : SettledBut st i none) :
    Sat (clickScope P) cacheFresh i call Post x st := by
  refine sat_keeps (fun _ _ hl hF => settledBut_later hl hF) (fun _ _ _ r _ hop hF => ?_)
    (fun st' _ _ _ hop => hop.2 st' i) hpost x st hx h
  exact settledBut_push hF (fun code hwrote => by rw [hop.1 r] at hwrote; cases hwrote)

theorem invalidate_settles {code : String} {Post : Except Err Unit → Hist → Prop}
    (hpost : ∀ st', SettledBut st' i none → Post (.ok ()) st') (h : SettledBut st i (some code)) :
    Sat (clickScope P) cacheFresh i call Post (invalidateLinkCache code) st :=
  invalidateLinkCache_sat fun _ hl _ hf => ⟨trivial, fun _ _ _ _ _ =>
    hpost _ (settledBut_del hf.seqLt (settledBut_later hl h))⟩

theorem hashOp_quiet {op : Op} (h : hashOp op) : quietOp op := by
  cases op with
  | bcryptHash plain => exact ⟨fun _ => rfl, fun _ _ => trivial⟩
  | _ => exact h.elim

theorem sendUpdate_settles (userId linkId : String) (s : SetList) (h : SettledBut st i none) :
    Sat (clickScope P) cacheFresh i call (fun _ st' => SettledBut st' i none)
      (sendUpdate userId linkId s) st := by
  unfold sendUpdate
  by_cases hempty : s.setClauses.length = 0
  · simp only [hempty, if_true]
    exact quiet_sat _ (getLink_only userId linkId ⟨fun _ => rfl, fun _ _ => trivial⟩)
      (fun _ _ hF => hF) h
  · simp only [hempty, if_false]
    refine sat_bind _ _ (sat_query fun st₁ hl _ _ => ⟨trivial, fun ch r db _ _ => ?_⟩)
    have h₁ := settledBut_later hl h
    rcases r with e | rows
    · exact settledBut_push h₁ (fun _ hwrote => by cases hwrote)
    · simp only [Except.mapError, thenSat_ok]
      rcases rows with _ | ⟨row, rest⟩
      · exact settledBut_push h₁ (fun _ hwrote => by cases hwrote)
      · -- The row is written, and its entry is removed before the call ends.
        simp only [List.head?_cons]
        refine sat_bind _ _ (invalidate_settles (fun _ hF => hF) ?_)
        exact settledBut_push h₁ (fun _ hwrote => hwrote)

theorem deleteLink_settles (userId linkId : String) (h : SettledBut st i none) :
    Sat (clickScope P) cacheFresh i call (fun _ st' => SettledBut st' i none)
      (deleteLink userId linkId) st := by
  refine sat_bind _ _ (sat_query fun st₁ hl _ _ => ⟨trivial, fun ch r db _ _ => ?_⟩)
  have h₁ := settledBut_later hl h
  rcases r with e | rows
  · exact settledBut_push h₁ (fun _ hwrote => by cases hwrote)
  · simp only [Except.mapError, thenSat_ok]
    rcases rows with _ | ⟨⟨id, code⟩, rest⟩
    · exact settledBut_push h₁ (fun _ hwrote => by cases hwrote)
    · simp only [List.head?_cons]
      refine sat_bind _ _ (invalidate_settles (fun _ hF => hF) ?_)
      exact settledBut_push h₁ (fun _ hwrote => hwrote)

/-- An insert under an alias leaves that alias open, if it inserts a row. -/
theorem insertLink_settles (userId customAlias : String) (input : CreateLinkInput)
    (hash : Option String) (h : SettledBut st i none) :
    Sat (clickScope P) cacheFresh i call (fun r st' => match r with
      | .ok (some _) => SettledBut st' i (some customAlias)
      | _ => SettledBut st' i none) (insertLink userId customAlias input hash) st := by
  refine sat_tryCatch _ _ (sat_bind _ _ (sat_query fun st₁ hl _ _ =>
    ⟨trivial, fun ch r db _ hx => ?_⟩))
  have h₁ := settledBut_later hl h
  rcases Db.insertLink_inv hx with ⟨_, ⟨rfl, _, _⟩ | ⟨e, rfl, _, _⟩⟩
  · simp only [Except.mapError, thenSat_ok, List.head?_cons]
    exact settledBut_push h₁ (fun _ hwrote => hwrote)
  · simp only [Except.mapError, thenSat_error, catchSat_error]
    cases (Err.db e).isUniqueViolation <;>
      exact settledBut_push h₁ (fun _ hwrote => by cases hwrote)

theorem createAliased_settles (userId customAlias : String) (input : CreateLinkInput)
    (hash : Option String) (h : SettledBut st i none) :
    Sat (clickScope P) cacheFresh i call (fun _ st' => SettledBut st' i none)
      (createAliased userId customAlias input hash) st := by
  refine sat_bind _ _ (quiet_sat _ (query_only _ _ ⟨fun _ => rfl, fun _ _ => trivial⟩)
    (fun r st₁ h₁ => ?_) h)
  rcases r with e | rows
  · exact h₁
  · simp only [thenSat_ok]
    rcases rows.head? with _ | existing
    · refine sat_bind _ _ (sat_mono (fun r st₂ h₂ => ?_) _ _
        (insertLink_settles userId customAlias input hash h₁))
      rcases r with e | _ | row
      · exact h₂
      · exact h₂
      · exact sat_bind _ _ (invalidate_settles (fun _ hF => hF) h₂)
    · exact h₁

theorem hasRead_later {st' : Hist} {code : String} {link : Option RedirectLink}
    (hl : Later (fun _ _ => ()) i st st') (h : HasRead st i code link) :
    HasRead st' i code link := by
  rcases h with ⟨e, he, hrest⟩
  exact ⟨e, hl.mine_eq ▸ he, hrest⟩

theorem wrote_fillCmd (code : String) (link : Option RedirectLink)
    (r : (Op.redis (fillCmd code link)).Res) : wrote (.redis (fillCmd code link)) r = none := by
  cases link <;> rfl

/-- What was read may be stored. -/
theorem fillCmd_pre {code : String} {link : Option RedirectLink} (h : HasRead st i code link) :
    cachePre st i (.redis (fillCmd code link)) := by
  cases link with
  | none | some link =>
      intro code' hkey
      rw [← linkCacheKey_inj hkey]
      exact ⟨_, rfl, h⟩

end Programs

section Lookup

variable {P : Platform} {i : Nat} {st : Hist} {code : String}

/-- A lookup returns what is fresh for every write settled before it started. -/
theorem lookup_sat (hs : st.SeqLt) (hmine : st.mine i = []) :
    Sat (clickScope P) cacheFresh i (.getLinkByShortCode code) (fun r st' =>
      SettledBut st' i none ∧ ∀ link, r = .ok link → ∀ x ∈ st.log,
        wrote x.op x.res = some code → Settled st.log x code →
        Fresh st'.log x.seq code (link.map settingsOf)) (getLinkByShortCode code) st := by
  have hnone : SettledBut st i none := by
    intro e he
    rw [hmine] at he
    cases he
  refine sat_bind _ _ (getCachedLink_sat fun st₁ hl₁ hi₁ hf₁ => ⟨trivial, fun ch r hmay hr => ?_⟩)
  have h₁ : SettledBut (st₁.push i (.getLinkByShortCode code)
      (.redis (.get (linkCacheKey code))) ch r st₁.world) i none :=
    settledBut_push (settledBut_later hl₁ hnone) (fun _ hwrote => by cases hwrote)
  have hle₁ : st.log <:+ (st₁.push i (.getLinkByShortCode code)
      (.redis (.get (linkCacheKey code))) ch r st₁.world).log :=
    hl₁.log_le.trans (List.suffix_cons _ _)
  simp only [thenSat_ok]
  rcases hcached : cachedOf r with _ | link
  · -- A miss: what the row says is fresh for everything before the read.
    simp only
    refine sat_bind _ _ (sat_query fun st₂ hl₂ hi₂ hf₂ => ⟨trivial, fun ch₂ r₂ db hmay₂ hx₂ => ?_⟩)
    have h₂ : SettledBut (st₂.push i (.getLinkByShortCode code) (.db (.redirectLookup code)) ch₂ r₂
        { st₂.world with db := db }) i none :=
      settledBut_push (settledBut_later hl₂ h₁) (fun _ hwrote => by cases hwrote)
    rcases r₂ with e | rows
    · exact ⟨h₂, fun _ hres => by cases hres⟩
    · simp only [Except.mapError, thenSat_ok]
      have hcontent : content db code = (rows.head?.map toRedirectLink).map settingsOf := by
        rw [content, Db.redirectLookup_ok hx₂, Db.exec_read rfl hx₂, List.head?_filter,
          Option.map_map]
        rfl
      have hread : HasRead (st₂.push i (.getLinkByShortCode code) (.db (.redirectLookup code)) ch₂
          (.ok rows) { st₂.world with db := db }) i code (rows.head?.map toRedirectLink) := by
        refine ⟨⟨st₂.log.length, i, .getLinkByShortCode code, .db (.redirectLookup code), ch₂,
          .ok rows, { st₂.world with db := db }⟩, ?_, rfl, hcontent⟩
        rw [State.push_mine]
        exact List.mem_cons_self
      refine sat_bind _ _ (fillCache_sat fun st₃ hl₃ _ _ => ⟨?_, fun ch₃ r₃ s₃ _ _ => ?_⟩)
      · exact fillCmd_pre (hasRead_later hl₃ hread)
      · refine ⟨settledBut_push (settledBut_later hl₃ h₂) (fun _ hwrote => ?_),
          fun link hlink x hx hwrote _ => ?_⟩
        · rw [wrote_fillCmd] at hwrote
          cases hwrote
        · rw [Except.ok.injEq] at hlink
          rw [← hlink]
          have hlen := hs x hx
          have hgrown := (hle₁.trans hl₂.log_le).length_le
          refine ⟨⟨st₂.log.length, i, .getLinkByShortCode code, .db (.redirectLookup code), ch₂,
            .ok rows, { st₂.world with db := db }⟩, ?_, ?_, hcontent⟩
          · exact List.mem_cons_of_mem _ (hl₃.mem List.mem_cons_self)
          · simp only
            omega
  · -- A hit: the invariant.
    rcases hr with rfl | ⟨rfl, _⟩
    · simp only [cachedOf] at hcached
      have hsome : ∃ v, st₁.world.redis.get st₁.world.now (linkCacheKey code) = some v := by
        rw [← Option.ne_none_iff_exists']
        intro hraw
        rw [hraw] at hcached
        cases hcached
      rcases hsome with ⟨v, hraw⟩
      rw [hraw] at hcached
      rcases Redis.get_some hraw with ⟨ex, hentry, _⟩
      refine ⟨h₁, fun link' hlink x hx hwrote hsettled => ?_⟩
      rw [Except.ok.injEq] at hlink
      rw [← hlink]
      exact fresh_mono (List.suffix_cons _ _) (hi₁ code v ex link hentry hcached x
        (hl₁.mem hx) hwrote (settled_mono hl₁.log_le hsettled))
    · cases hcached

end Lookup

section Runs

variable {P : Platform} {w₀ : World} {c : Site}

theorem cacheFresh_sound : Sound (clickScope P) cacheFresh where
  env := by
    intro st e w hi hw
    rcases env_inv hw with ⟨ms, rfl⟩
    exact hi
  env_loc := fun _ _ _ _ _ => rfl
  reap := fun _ _ hi => hi
  reap_loc := fun _ _ _ _ => rfl
  exec := fun _ _ _ _ _ _ _ hi hf hpre hmay hx => cacheInv_push hi hf.seqLt hpre hmay hx
  exec_loc := fun _ _ _ _ _ _ _ _ _ => rfl
  body := by
    intro st i call hi hs hmine hstart
    -- A call that has done nothing owes the cache nothing.
    have hnone : SettledBut st i none := by
      intro e he
      rw [hmine] at he
      cases he
    cases call with
    | getLinkByShortCode code =>
        refine sat_map (sat_mono (fun r st' hr => ⟨hr.1, fun code' link hcall hres => ?_⟩) _ _
          (lookup_sat hs hmine))
        rw [Call.getLinkByShortCode.injEq] at hcall
        rw [← hcall]
        rcases r with e | link'
        · cases hres
        · simp only [Except.map, Except.ok.injEq, Reply.lookup.injEq] at hres
          exact hr.2 link (by rw [hres])
    | updateLink userId linkId input =>
        refine sat_map (sat_bind _ _ (quiet_sat _
          (Prog.only_mono (fun _ h => hashOp_quiet h) _ (hashField_only input.password))
          (fun r st₁ h₁ => ?_) hnone))
        rcases r with e | hash
        · exact ⟨h₁, fun _ _ hcall => by cases hcall⟩
        · exact sat_mono (fun _ _ hr => ⟨hr, fun _ _ hcall => by cases hcall⟩) _ _
            (sendUpdate_settles userId linkId _ h₁)
    | deleteLink userId linkId =>
        exact sat_map (sat_mono (fun _ _ hr => ⟨hr, fun _ _ hcall => by cases hcall⟩) _ _
          (deleteLink_settles userId linkId hnone))
    | createLink userId input =>
        refine sat_map (sat_bind _ _ (quiet_sat _
          (Prog.only_mono (fun _ h => hashOp_quiet h) _ (hashGiven_only (truthy input.password)))
          (fun r st₁ h₁ => ?_) hnone))
        rcases r with e | hash
        · exact ⟨h₁, fun _ _ hcall => by cases hcall⟩
        · rcases Option.isSome_iff_exists.mp hstart with ⟨customAlias, halias⟩
          simp only [thenSat_ok, halias]
          exact sat_mono (fun _ _ hr => ⟨hr, fun _ _ hcall => by cases hcall⟩) _ _
            (createAliased_settles userId customAlias input hash h₁)
    | _ => cases hstart

end Runs

/-- Whenever a lookup starts after a call that wrote its link has returned, it
    returns settings the row had at some moment from that write on. -/
def NoStaleRead (c : Site) : Prop :=
  ∀ (i j : Nat) (t u : Task) (code : String) (link : Option RedirectLink)
    (r : Except Err Reply) (n : Nat), c.threads[i]? = some t → t.call = .getLinkByShortCode code →
    t.result = some (.ok (.lookup link)) → c.threads[j]? = some u → u.result = some r →
    u.ended = some n → n ≤ t.born → ∀ x ∈ c.state.log, x.tid = j → wrote x.op x.res = some code →
    Fresh c.state.log x.seq code (link.map settingsOf)

/-- In every run in which no reader stores an overtaken value, no lookup
    returns a value older than a write that returned before it started. -/
theorem lookup_fresh (P : Platform) (w₀ : World) (c : Site)
    (hc : Run (clickScope P) orderly w₀ c) : NoStaleRead c := by
  intro i j t u code link r n ht hcall hres hu hr hended hborn x hx htid hwrote
  have h0 : CacheInv { world := w₀, log := [] } := by
    intro _ _ _ _ _ _ x hx
    cases hx
  rcases run_result cacheFresh_sound h0 hc hu hr with
    ⟨_, stu, _, hendu, _, hleu, hmineu, hsettled, _⟩
  rcases run_result cacheFresh_sound h0 hc ht hres with
    ⟨st₀, st₁, hlen, _, h01, hle, _, _, hpost⟩
  -- The writer's history is part of the one the reader started in.
  rw [hended, Option.some.injEq] at hendu
  have hsuffix : stu.log <:+ st₀.log :=
    List.suffix_of_suffix_length_le hleu (h01.trans hle) (by omega)
  have hxu : x ∈ stu.mine j := by
    rw [hmineu]
    exact State.mem_mine.mpr ⟨hx, htid⟩
  rcases hsettled x hxu code hwrote with hopen | hdone
  · cases hopen
  · exact fresh_mono hle (hpost code link hcall rfl x
      (hsuffix.subset (State.mem_mine.mp hxu).1) hwrote (settled_mono hsuffix hdone))

/-- The empty tables with one link of the account `u`. -/
def cachedWorld : World :=
  { ownerWorld with db := { ownerWorld.db with links := [
      { id := firstId, userId := "u", shortCode := "c", destinationUrl := "https://old.example/",
        passwordHash := none, expiresAt := none, maxClicks := none, clickCount := 0,
        isActive := true, createdAt := 0, updatedAt := 0 }] } }

/-- The update that moves the link. -/
def moveLink : Call :=
  .updateLink "u" firstId
    { destinationUrl := some "https://new.example/", expiresAt := none, maxClicks := none,
      isActive := none, password := none }

/-- A test that no thread stores what it read before a write. -/
def inOrder (c : Site) : Action Call EnvStep Choice → Bool
  | .spawn call => call.cachesLink
  | .run i ch => decide (ch.fault = .none) && c.state.log.all (fun e => e.tid != i ||
      c.state.log.all (fun x => (wrote x.op x.res).isNone || decide (x.seq ≤ e.seq)))
  | _ => true

theorem inOrder_permits (c : Site) (a : Action Call EnvStep Choice) (h : inOrder c a = true) :
    orderly.permits c a := by
  cases a with
  | spawn call => exact h
  | run i ch =>
      intro t op k _ _
      simp only [inOrder, Bool.and_eq_true, decide_eq_true_eq, List.all_eq_true, Bool.or_eq_true,
        bne_iff_ne, Option.isNone_iff_eq_none] at h
      refine ⟨fun _ _ => h.1, ?_⟩
      rintro code v ex _ ⟨e, he, _, x, hx, hlt, hwrote, _, _⟩
      rcases State.mem_mine.mp he with ⟨hlog, htid⟩
      rcases h.2 e hlog with hne | hall
      · exact hne htid
      · rcases hall x hx with hnone | hle
        · rw [hwrote] at hnone
          cases hnone
        · omega
  | env e => trivial
  | kill i => trivial

/-- The link is moved, and a lookup after that finds the new address. -/
theorem lookup_fresh_moved : ∃ c : Site, Run (clickScope samplePlatform) orderly cachedWorld c ∧
    (c.resultOf 1).any (fun r => match r with
      | .ok (.lookup (some link)) => link.destinationUrl == "https://new.example/"
      | _ => false) = true ∧ NoStaleRead c := by
  rcases exists_run_of (clickScope samplePlatform) orderly cachedWorld inOrder inOrder_permits
    [.spawn moveLink, .run 0 {}, .run 0 {}, .spawn (.getLinkByShortCode "c"), .run 1 {}, .run 1 {},
      .run 1 {}]
    (fun c => (c.resultOf 1).any (fun r => match r with
      | .ok (.lookup (some link)) => link.destinationUrl == "https://new.example/"
      | _ => false)) (by decide) with ⟨c, hc, hp⟩
  exact ⟨c, hc, hp, lookup_fresh samplePlatform cachedWorld c hc⟩

/-- Thread 2 started after thread 1 had ended, and its lookup returned settings
    the row never had again from a write of thread 1 on. -/
def staleRead (c : Site) : Bool :=
  match c.threads with
  | [_, u, t] =>
      match t.result with
      | some (.ok (.lookup link)) => decide (t.call = .getLinkByShortCode "c") &&
          u.result.isSome && u.ended.any (fun n => decide (n ≤ t.born)) &&
          c.state.log.any (fun x => x.tid == 1 && wrote x.op x.res == some "c" &&
            c.state.log.all (fun e => decide (e.seq < x.seq) ||
              content e.after.db "c" != link.map settingsOf))
      | _ => false
  | _ => false

theorem not_noStaleRead {c : Site} (h : staleRead c = true) : ¬ NoStaleRead c := by
  intro hfresh
  unfold staleRead at h
  split at h
  · rename_i v u t hthreads
    split at h
    · rename_i link hres
      simp only [Bool.and_eq_true, decide_eq_true_eq, Option.any_eq_true, List.any_eq_true,
        List.all_eq_true, Bool.or_eq_true, bne_iff_ne, beq_iff_eq] at h
      rcases h with ⟨⟨⟨hcall, hr⟩, n, hended, hborn⟩, x, hx, ⟨htid, hwrote⟩, hall⟩
      rcases Option.isSome_iff_exists.mp hr with ⟨r, hr⟩
      rcases hfresh 2 1 t u "c" link r n (by rw [hthreads]; rfl) hcall hres
        (by rw [hthreads]; rfl) hr hended hborn x hx htid hwrote with ⟨e, he, hseq, hcontent⟩
      rcases hall e he with hlt | hne
      · omega
      · exact hne hcontent
    · exact absurd h Bool.false_ne_true
  · exact absurd h Bool.false_ne_true

/-- A reader reads the old address, the link is moved and its entry is removed,
    and the reader stores the old address, which the next lookup returns. -/
theorem lookup_stale : ¬ ∀ w₀ c, Run (clickScope samplePlatform) lookups w₀ c →
    NoStaleRead c := by
  intro hall
  have hrun := exists_run_of (clickScope samplePlatform) lookups cachedWorld
    (fun _ a => match a with
      | .spawn call => call.cachesLink
      | .run _ ch => decide (ch.fault = .none)
      | _ => true)
    (fun c a h => by
      cases a with
      | spawn call => exact h
      | run i ch => exact fun _ _ _ _ _ _ _ => of_decide_eq_true h
      | env e => trivial
      | kill i => trivial)
    [.spawn (.getLinkByShortCode "c"), .run 0 {}, .run 0 {}, .spawn moveLink, .run 1 {}, .run 1 {},
      .run 0 {}, .spawn (.getLinkByShortCode "c"), .run 2 {}]
    staleRead (by decide)
  rcases hrun with ⟨c, hc, hstale⟩
  exact not_noStaleRead hstale (hall cachedWorld c hc)

end ClickScope
