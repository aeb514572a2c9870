import ClickScope.Async.Twin
import ClickScope.Theory.CacheFresh

/-!
# Staleness is Bounded

What the cache can do at worst when any of its commands may fail.

A failure of Redis is swallowed where it happens. To the writers it makes no
difference at all: every run has a twin in which Redis never fails, with the
same statements, the same tables and the same results. To the readers it can
make a difference, but a bounded one. An entry is stored with what a `SELECT`
just returned, and expires; if the `SET` follows its `SELECT` within `d`
milliseconds, an entry never outlives the moment the row had its content by
more than `d` and its own lifetime. That is an invariant of the entries which
no lost deletion, overwriting store or concurrent write can break, because it
asks nothing of the row as it is now.

## Main definitions

* `stored`: What the tables say about a short code.
* `entryTtl`: The lifetime of an entry.
* `HadSince`: The tables said so at a moment not too long ago.
* `prompt`: Readers and writers, any failures, and timely stores.
* `StaleInv`: The invariant of the entries.
* `SameWrites`: Runs no writer can tell apart.
* `BoundedStaleness`: How old an answer can be.

## Theorems

* `staleInv_push`: Every operation keeps the invariant.
* `lookup_bounded_sat`: One lookup.
* `writers_twin`: The run in which Redis does not fail.
* `staleness_bounded`: Every run.
-/

namespace ClickScope

open Async

/-- What the tables say about a short code. -/
def stored (db : Db) (code : String) : Option RedirectLink :=
  (db.links.find? (fun r => r.shortCode == code)).map toRedirectLink

/-- The lifetime of an entry, in seconds. -/
def entryTtl : Option RedirectLink → Nat
  | none => LINK_CACHE_NEGATIVE_TTL_SECONDS
  | some link => linkTtl link

/-- The world at the start, or after an operation. -/
def PastWorld (w₀ : World) (log : List Ev) (m : World) : Prop := m = w₀ ∨ ∃ e ∈ log, m = e.after

/-- The tables said this about the code at a moment, `age` milliseconds before
    `t` at the earliest. -/
def HadSince (w₀ : World) (log : List Ev) (code : String) (link : Option RedirectLink)
    (t age : Nat) : Prop :=
  ∃ m, PastWorld w₀ log m ∧ stored m.db code = link ∧ t ≤ m.now + age

/-- The lookup, and the calls that write links. -/
def Call.tendsLinks : Call → Bool
  | .getLinkByShortCode _ | .createLink _ _ | .updateLink _ _ _ | .deleteLink _ _
  | .processClickJob _ | .sweepExpiredLinks => true
  | _ => false

/-- Any number of these calls. Redis may fail in any way, and a reader's `SET`
    comes at most `d` milliseconds after its `SELECT`. -/
def prompt (d : Nat) : Policy Op Op.Res Call Choice World where
  mayStart := fun _ call => call.tendsLinks = true
  mayDo := fun st i _ op _ => ∀ key v ex, op = .redis (.set key v ex) → ∀ e ∈ st.mine i,
    (∃ code, e.op = .db (.redirectLookup code)) → st.world.now ≤ e.after.now + d

/-- The same calls, with a Redis that never fails. -/
def faultless : Policy Op Op.Res Call Choice World where
  mayStart := fun _ call => call.tendsLinks = true
  mayDo := fun _ _ _ op ch => ∀ c, op = .redis c → ch.fault = .none

/-- No entry outlives the moment the row had its content by more than `d` and
    its own lifetime. -/
structure StaleInv (d : Nat) (w₀ : World) (st : Hist) : Prop where
  past : ∀ e ∈ st.log, e.after.now ≤ st.world.now
  entries : ∀ code v ex link, st.world.redis.entry (linkCacheKey code) = some ⟨v, ex⟩ →
    readCached (some v) = .found link →
    HadSince w₀ st.log code link ex (d + entryTtl link * 1000)

/-- What a call owes: it stores what it has read, for its lifetime. -/
def StoresRead (st : Hist) (i : Nat) (op : Op) : Prop :=
  ∀ code v ex, op = .redis (.set (linkCacheKey code) v ex) →
    ∃ link, readCached (some v) = .found link ∧ ex = entryTtl link ∧
      ∃ e ∈ st.mine i, e.op = .db (.redirectLookup code) ∧ stored e.after.db code = link

/-- What a lookup that ended with `r` has returned. -/
def BoundedAnswer (d : Nat) (w₀ : World) (st : Hist) (i : Nat) (code : String) :
    Except Err (Option RedirectLink) → Prop
  | .ok link => ∃ g ∈ st.mine i, g.op = .redis (.get (linkCacheKey code)) ∧
      HadSince w₀ st.log code link g.after.now (d + entryTtl link * 1000)
  | .error err => err = .db .invalidByteSequence ∧ textOk code = false

def staleness (d : Nat) (w₀ : World) : Protocol Op Op.Res Err Reply Call Choice World Unit where
  toPolicy := prompt d
  loc := fun _ _ => ()
  Inv := StaleInv d w₀
  Pre := fun st i _ op => StoresRead st i op
  Post := fun i call _ r st => ∀ code, call = .getLinkByShortCode code →
    ∃ r' : Except Err (Option RedirectLink), r = r'.map .lookup ∧ BoundedAnswer d w₀ st i code r'

section Steps

variable {P : Platform} {d : Nat} {w₀ : World} {i : Nat} {call : Call} {st : Hist} {ch : Choice}
  {op : Op} {r : op.Res} {w : World} {log log' : List Ev} {code : String}
  {link : Option RedirectLink} {t age : Nat}

theorem hadSince_mono (hsub : log <:+ log') (h : HadSince w₀ log code link t age) :
    HadSince w₀ log' code link t age := by
  rcases h with ⟨m, hm, hrest⟩
  refine ⟨m, hm.imp_right ?_, hrest⟩
  rintro ⟨e, he, hme⟩
  exact ⟨e, hsub.subset he, hme⟩

/-- A moment that is not too old for `t` is not for an earlier time either. -/
theorem hadSince_earlier {t' : Nat} (hle : t' ≤ t) (h : HadSince w₀ log code link t age) :
    HadSince w₀ log code link t' age := by
  rcases h with ⟨m, hm, hstored, ht⟩
  exact ⟨m, hm, hstored, by omega⟩

/-- The lookup's answer is what the tables say. -/
theorem head_stored {db : Db} {rows : List LinkRow}
    (h : rows = db.links.filter (fun r => r.shortCode == code)) :
    rows.head?.map toRedirectLink = stored db code := by
  rw [h, List.head?_filter]
  rfl

theorem staleInv_push (hi : StaleInv d w₀ st) (hpre : StoresRead st i op)
    (hmay : (prompt d).mayDo st i call op ch) (hx : exec P i op ch st.world = some (r, w)) :
    StaleInv d w₀ (st.push i call op ch r w) := by
  have hsuffix : st.log <:+ (st.push i call op ch r w).log := List.suffix_cons _ _
  have hnow := exec_now_eq hx
  refine ⟨fun e he => ?_, fun code v ex link hentry hlink => ?_⟩
  · -- An event happens at the time it is recorded.
    rw [State.push_world, hnow]
    rcases List.mem_cons.mp he with rfl | he
    · exact Nat.le_of_eq hnow
    · exact hi.past e he
  · rw [State.push_world] at hentry
    -- An entry that was there before is as old as it was: the past only grows.
    have hold : st.world.redis.entry (linkCacheKey code) = some ⟨v, ex⟩ →
        HadSince w₀ (st.push i call op ch r w).log code link ex (d + entryTtl link * 1000) :=
      fun h => hadSince_mono hsuffix (hi.entries code v ex link h hlink)
    -- Only a `SET` makes an entry.
    by_cases hc : ∀ c, op ≠ .redis c
    · rw [exec_redis_eq hc hx] at hentry
      exact hold hentry
    · push Not at hc
      rcases hc with ⟨c, rfl⟩
      rcases Redis.exec_entry (exec_redis_inv hx).1.symm hentry with h | ⟨ttl, rfl, hex⟩
      · exact hold h
      · -- The entry was stored now, at most `d` after the row was read.
        rcases hpre code v ttl rfl with ⟨link', hlink', httl, e, he, hop, hstored⟩
        rw [hlink, CachedLink.found.injEq] at hlink'
        subst hlink'
        have hprompt := hmay _ v ttl rfl e he ⟨code, hop⟩
        refine ⟨e.after, Or.inr ⟨e, hsuffix.subset (State.mem_mine.mp he).1, rfl⟩, hstored, ?_⟩
        rw [hex, httl]
        omega

end Steps

section Programs

variable {P : Platform} {d : Nat} {w₀ : World} {i : Nat} {st : Hist} {code : String}

/-- Of the calls, only the lookup stores under a link's key. -/
theorem performs_storesRead {call : Call} {op : Op} (hcall : call.tendsLinks = true)
    (hno : ∀ code, call ≠ .getLinkByShortCode code) (hop : call.performs op) :
    StoresRead st i op := by
  rintro code v ex rfl
  cases call with
  | getLinkByShortCode code => exact absurd rfl (hno code)
  | createLink | updateLink | deleteLink | processClickJob | sweepExpiredLinks =>
      simp only [Call.performs, hashOp, invalidateOp, createOp, updateOp, deleteOp, workerOp,
        Op.redis.injEq, reduceCtorEq, exists_const, exists_false, or_self] at hop
  | _ => cases hcall

/-- What a lookup has read. -/
def HasStored (st : Hist) (i : Nat) (code : String) (link : Option RedirectLink) : Prop :=
  ∃ e ∈ st.mine i, e.op = .db (.redirectLookup code) ∧ stored e.after.db code = link

theorem fillCmd_storesRead {link : Option RedirectLink} (h : HasStored st i code link) :
    StoresRead st i (.redis (fillCmd code link)) := by
  intro code' v ex hop
  cases link with
  | none | some link =>
      simp only [fillCmd, Op.redis.injEq, RedisCmd.set.injEq] at hop
      rcases hop with ⟨hkey, rfl, rfl⟩
      rw [← linkCacheKey_inj hkey]
      exact ⟨_, rfl, rfl, h⟩

/-- A lookup of a code that is no text fails; any other returns what the tables
    said at some moment not too long before its `GET`. -/
theorem lookup_bounded_sat (call : Call) :
    Sat (clickScope P) (staleness d w₀) i call
      (fun r st' => BoundedAnswer d w₀ st' i code r) (getLinkByShortCode code) st := by
  refine sat_bind _ _ (getCachedLink_sat fun st₁ hl₁ hi₁ _ =>
    ⟨fun _ _ _ hop => (by cases hop), fun ch r _ hr => ?_⟩)
  simp only [thenSat_ok]
  rcases hcached : cachedOf r with _ | link
  · -- A miss or a failure: the row is read after the `GET`.
    simp only
    refine sat_bind _ _ (sat_query fun st₂ hl₂ hi₂ _ =>
      ⟨fun _ _ _ hop => (by cases hop), fun ch₂ r₂ db _ hx₂ => ?_⟩)
    have hg : ⟨st₁.log.length, i, call, .redis (.get (linkCacheKey code)), ch, r, st₁.world⟩ ∈
        st₂.mine i := by
      rw [hl₂.mine_eq, State.push_mine]
      exact List.mem_cons_self
    -- The `GET` was served before the row is read.
    have hlater := hi₂.past _ (State.mem_mine.mp hg).1
    rcases r₂ with e | rows
    · -- Postgres refuses a code with a NUL, and nothing else.
      simp only [Db.exec, Db.redirectLookup, Option.some.injEq, Prod.mk.injEq] at hx₂
      by_cases ht : textOk code = true
      · rw [if_pos ht] at hx₂
        cases hx₂.1
      · rw [if_neg ht, Except.error.injEq] at hx₂
        rw [← hx₂.1]
        exact ⟨rfl, Bool.eq_false_of_not_eq_true ht⟩
    · simp only [Except.mapError, thenSat_ok]
      have hstored : rows.head?.map toRedirectLink = stored db code :=
        head_stored (by rw [Db.redirectLookup_ok hx₂, Db.exec_read rfl hx₂])
      -- The row that is read now is what will be stored.
      have hread : HasStored (st₂.push i call (.db (.redirectLookup code)) ch₂ (.ok rows)
          { st₂.world with db := db }) i code (rows.head?.map toRedirectLink) := by
        refine ⟨⟨st₂.log.length, i, call, .db (.redirectLookup code), ch₂, .ok rows,
          { st₂.world with db := db }⟩, ?_, rfl, hstored.symm⟩
        rw [State.push_mine]
        exact List.mem_cons_self
      refine sat_bind _ _ (fillCache_sat fun st₃ hl₃ _ _ =>
        ⟨fillCmd_storesRead ?_, fun ch₃ r₃ s₃ _ _ => ?_⟩)
      · rcases hread with ⟨e, he, hrest⟩
        exact ⟨e, hl₃.mine_eq ▸ he, hrest⟩
      · refine ⟨⟨st₁.log.length, i, call, .redis (.get (linkCacheKey code)), ch, r, st₁.world⟩, ?_,
          rfl, { st₂.world with db := db }, Or.inr ⟨⟨st₂.log.length, i, call,
          .db (.redirectLookup code), ch₂, .ok rows, { st₂.world with db := db }⟩, ?_, rfl⟩,
          hstored.symm, ?_⟩
        · rw [State.push_mine, hl₃.mine_eq, State.push_mine]
          exact List.mem_cons_of_mem _ (List.mem_cons_of_mem _ hg)
        · exact List.mem_cons_of_mem _ (hl₃.mem List.mem_cons_self)
        · simp only at hlater ⊢
          omega
  · -- A hit: the entry has not expired, so the invariant bounds its age.
    rcases hr with rfl | ⟨rfl, _⟩
    · simp only [cachedOf] at hcached
      rcases hraw : st₁.world.redis.get st₁.world.now (linkCacheKey code) with _ | v
      · rw [hraw] at hcached
        cases hcached
      · rw [hraw] at hcached
        rcases Redis.get_some hraw with ⟨ex, hentry, hlt⟩
        refine ⟨⟨st₁.log.length, i, call, .redis (.get (linkCacheKey code)), ch, .ok (some v),
          st₁.world⟩, ?_, rfl, ?_⟩
        · rw [State.push_mine]
          exact List.mem_cons_self
        · exact hadSince_earlier (Nat.le_of_lt hlt) (hadSince_mono (List.suffix_cons _ _)
            (hi₁.entries code v ex link hentry hcached))
    · cases hcached

end Programs

section Runs

variable {P : Platform} {d : Nat} {w₀ : World} {c : Site}

theorem staleness_sound : Sound (clickScope P) (staleness d w₀) where
  env := by
    intro st e w hi hw
    rcases env_inv hw with ⟨ms, rfl⟩
    refine ⟨fun x hx => ?_, hi.entries⟩
    have := hi.past x hx
    simp only
    omega
  env_loc := fun _ _ _ _ _ => rfl
  reap := fun _ _ hi => ⟨hi.past, hi.entries⟩
  reap_loc := fun _ _ _ _ => rfl
  exec := fun _ _ _ _ _ _ _ hi _ hpre hmay hx => staleInv_push hi hpre hmay hx
  exec_loc := fun _ _ _ _ _ _ _ _ _ => rfl
  body := by
    intro st i call _ _ _ hstart
    by_cases hlookup : ∃ code, call = .getLinkByShortCode code
    · -- A lookup promises more than other calls, of the time when its result was read.
      rcases hlookup with ⟨code, rfl⟩
      refine sat_map (sat_mono (fun r st' hr code' hcall => ⟨r, rfl, ?_⟩) _ _
        (lookup_bounded_sat _))
      rw [Call.getLinkByShortCode.injEq] at hcall
      rw [← hcall]
      exact hr
    · -- Any other call stores only what it has read.
      push Not at hlookup
      exact sat_performs (fun _ _ _ hop => performs_storesRead hstart hlookup hop)
        (fun _ _ code hcall => absurd hcall (hlookup code))

end Runs

/-- The lookup. -/
def Call.looksUp : Call → Bool
  | .getLinkByShortCode _ => true
  | _ => false

def Op.isRedis : Op → Bool
  | .redis _ => true
  | _ => false

/-- The same choice with a Redis that does not fail. -/
def withoutFault : Op → Choice → Choice
  | .redis _, ch => { ch with fault := .none }
  | _, ch => ch

/-- The same world but for Redis. -/
def SameButRedis (w w' : World) : Prop := w' = { w with redis := w'.redis }

section Writers

variable {P : Platform}

/-- What an operation other than a Redis command does, it does whatever Redis
    holds. -/
theorem exec_withRedis {tid : Nat} {op : Op} {ch : Choice} {w w₁ : World} {r : op.Res}
    (hop : op.isRedis = false) (h : exec P tid op ch w = some (r, w₁)) (s : Redis) :
    exec P tid op ch { w with redis := s } = some (r, { w₁ with redis := s }) := by
  cases op with
  | redis c => cases hop
  | db stmt =>
      rcases exec_db_inv h with ⟨db, hdb, rfl⟩
      simp only [exec, hdb]
  | enqueue data | poolConnect | getToken code | verifyIdToken token =>
      cases hf : ch.fault <;> simp only [exec, hf, Option.some.injEq, Prod.mk.injEq] at h ⊢ <;>
        exact ⟨h.1, by rw [← h.2]⟩
  | randomUUID | randomState =>
      simp only [exec] at h ⊢
      -- What was drawn before is not kept in Redis.
      by_cases hd : ch.draw ∈ w.drawn
      · rw [if_pos hd] at h
        cases h
      · rw [if_neg hd] at h ⊢
        cases h
        rfl
  | _ =>
      cases h
      rfl

theorem query_blind (s : Stmt) : (query s).Blind Op.isRedis :=
  ⟨fun hq => (by cases hq), fun r => by cases r <;> trivial⟩

theorem invalidateLinkCache_blind (code : String) :
    (invalidateLinkCache code).Blind Op.isRedis :=
  ⟨fun _ r r' => (by cases r <;> cases r' <;> rfl), fun r => by cases r <;> trivial⟩

theorem hashOp_notRedis {op : Op} (h : hashOp op) : op.isRedis = false := by
  cases op with
  | bcryptHash plain => rfl
  | _ => exact h.elim

theorem insertLink_blind (userId code : String) (input : CreateLinkInput) (hash : Option String) :
    (insertLink userId code input hash).Blind Op.isRedis := by
  refine Prog.blind_tryCatch (fun err => ?_) _ (Prog.blind_bind (fun rows => ?_) _ (query_blind _))
  · cases err.isUniqueViolation <;> trivial
  · cases rows.head? <;> trivial

theorem createGenerated_blind (userId : String) (input : CreateLinkInput) (hash : Option String)
    (attempts : Nat) : (createGenerated userId input hash attempts).Blind Op.isRedis := by
  induction attempts with
  | zero => trivial
  | succ n ih =>
      refine Prog.blind_bind (fun code => ?_) _ ⟨fun hq => (by cases hq), fun _ => trivial⟩
      refine Prog.blind_bind (fun row => ?_) _ (insertLink_blind userId code input hash)
      cases row with
      | none => exact ih
      | some row => trivial

theorem createAliased_blind (userId customAlias : String) (input : CreateLinkInput)
    (hash : Option String) : (createAliased userId customAlias input hash).Blind Op.isRedis := by
  refine Prog.blind_bind (fun existing => ?_) _ (query_blind _)
  cases existing.head? with
  | some _ => trivial
  | none =>
      refine Prog.blind_bind (fun row => ?_) _ (insertLink_blind userId customAlias input hash)
      cases row with
      | none => trivial
      | some row => exact Prog.blind_bind (fun _ => by trivial) _ (invalidateLinkCache_blind _)

theorem createLink_blind (userId : String) (input : CreateLinkInput) :
    (createLink userId input).Blind Op.isRedis := by
  refine Prog.blind_bind (fun hash => ?_) _ (Prog.blind_of_only _
    (Prog.only_mono (fun _ h => hashOp_notRedis h) _ (hashGiven_only _)))
  cases truthy input.customAlias with
  | some customAlias => exact createAliased_blind userId customAlias input hash
  | none => exact createGenerated_blind userId input hash _

theorem updateLink_blind (userId linkId : String) (input : UpdateLinkInput) :
    (updateLink userId linkId input).Blind Op.isRedis := by
  refine Prog.blind_bind (fun hash => ?_) _ (Prog.blind_of_only _
    (Prog.only_mono (fun _ h => hashOp_notRedis h) _ (hashField_only _)))
  unfold sendUpdate
  -- The answer of Redis is only looked at after the statement, and thrown away.
  by_cases hempty : (setListOf input hash).setClauses.length = 0
  · rw [if_pos hempty]
    exact Prog.blind_bind (fun _ => by trivial) _ (query_blind _)
  · rw [if_neg hempty]
    refine Prog.blind_bind (fun rows => ?_) _ (query_blind _)
    cases rows.head? with
    | none => trivial
    | some row => exact Prog.blind_bind (fun _ => by trivial) _ (invalidateLinkCache_blind _)

theorem deleteLink_blind (userId linkId : String) :
    (deleteLink userId linkId).Blind Op.isRedis := by
  refine Prog.blind_bind (fun rows => ?_) _ (query_blind _)
  cases rows.head? with
  | none => trivial
  | some row => exact Prog.blind_bind (fun _ => by trivial) _ (invalidateLinkCache_blind _)

/-- No writer looks at what Redis answers. -/
theorem writers_blind {call : Call} (hcall : call.tendsLinks = true)
    (hlooks : call.looksUp = false) : (body P call).Blind Op.isRedis := by
  have hret : ∀ {α β : Type} (f : α → β) (x : Api α), x.Blind Op.isRedis →
      (x.bind (fun a => .ret (f a))).Blind Op.isRedis :=
    fun f x h => Prog.blind_bind (fun _ => by trivial) x h
  cases call with
  | createLink userId input => exact hret _ _ (createLink_blind userId input)
  | updateLink userId linkId input => exact hret _ _ (updateLink_blind userId linkId input)
  | deleteLink userId linkId => exact hret _ _ (deleteLink_blind userId linkId)
  | processClickJob data =>
      refine hret _ _ (Prog.blind_of_only _ (Prog.only_mono (fun op hop => ?_) _
        (processClickJob_only data)))
      cases op with
      | redis c => exact hop.elim
      | _ => rfl
  | sweepExpiredLinks => exact hret _ _ (query_blind .sweepExpired)
  | _ => cases hcall <;> cases hlooks

theorem lookups_look {code : String} {op : Op} (hop : lookupOp code op) {tid : Nat} {ch : Choice}
    {w w' w₁ : World} {r : op.Res} (hR : SameButRedis w w')
    (hx : exec P tid op ch w = some (r, w₁)) : SameButRedis w₁ w' := by
  cases op with
  | redis c =>
      rw [(exec_redis_inv hx).2]
      exact hR
  | db s =>
      cases s with
      | redirectLookup code =>
          rcases exec_db_inv hx with ⟨db, hdb, rfl⟩
          rw [Db.exec_read rfl hdb]
          exact hR
      | _ => exact hop.elim
  | _ => exact hop.elim

theorem writers_twins (d : Nat) : Twins (clickScope P) Op.isRedis Call.looksUp withoutFault
    SameButRedis (prompt d) faultless where
  blind := fun _ call hstart hlooks => writers_blind hstart hlooks
  starts := by
    intro call hlooks
    cases call with
    | getLinkByShortCode code => rfl
    | _ => cases hlooks
  look := by
    intro call hlooks
    cases call with
    | getLinkByShortCode code =>
        exact Prog.only_mono (fun op hop i ch w w' r w₁ hR hx => lookups_look hop hR hx) _
          (Prog.only_map _ (getLinkByShortCode_only code))
    | _ => cases hlooks
  quiet := by
    intro i op ch w w' r w₁ hq hR hx
    cases op with
    | redis c =>
        refine ⟨_, _, rfl, ?_⟩
        have hx' : exec P i (.redis c) ch w = some (r, w₁) := hx
        rw [(exec_redis_inv hx').2, hR]
        rfl
    | _ => cases hq
  loud := by
    intro i op ch w w' r w₁ hq hR hx
    -- Only the choices of Redis commands are made calm.
    have hcalm : withoutFault op ch = ch := by
      cases op with
      | redis c => cases hq
      | _ => rfl
    refine ⟨{ w₁ with redis := w'.redis }, ?_, rfl⟩
    rw [hcalm, hR]
    exact exec_withRedis hq hx w'.redis
  env := by
    intro e w w' w₁ hR hw
    cases e with
    | tick ms =>
        simp only [clickScope, Option.some.injEq] at hw
        refine ⟨_, rfl, ?_⟩
        rw [← hw, hR]
        rfl
  reap := by
    intro i w w' hR
    rw [hR]
    rfl
  mayStart := fun _ _ _ h => h
  mayDo := by
    rintro st i call op ch c rfl
    rfl

end Writers

/-- Runs no writer can tell apart: the same tables, the same results of all
    calls but lookups, and of these calls the same statements with the same
    answers and effects. -/
structure SameWrites (c c' : Site) : Prop where
  db : c'.state.world.db = c.state.world.db
  results : ∀ (i : Nat) (t : Task), c.threads[i]? = some t → t.call.looksUp = false →
    ∃ t' : Task, c'.threads[i]? = some t' ∧ t'.call = t.call ∧ t'.result = t.result
  statements : List.Forall₂ (fun e e' : Ev => e'.tid = e.tid ∧ e'.call = e.call ∧
      (⟨e'.op, e'.res⟩ : Σ op : Op, op.Res) = ⟨e.op, e.res⟩ ∧ e'.after.db = e.after.db)
    (visible Op.isRedis Call.looksUp c.state.log) (visible Op.isRedis Call.looksUp c'.state.log)

/-- To every run there is one in which Redis never fails and no writer fares
    differently. -/
theorem writers_twin {P : Platform} {d : Nat} {w₀ : World} {c : Site}
    (hc : Run (clickScope P) (prompt d) w₀ c) :
    ∃ c', Run (clickScope P) faultless w₀ c' ∧ SameWrites c c' := by
  have h0 : SameButRedis w₀ w₀ := rfl
  rcases exists_twin (writers_twins d) h0 hc with ⟨c', hc', htwin⟩
  have hdb : ∀ {w w' : World}, SameButRedis w w' → w'.db = w.db := by
    intro w w' h
    rw [h]
  refine ⟨c', hc', hdb htwin.world, fun i t ht hlooks => ?_, ?_⟩
  · rcases htwin.threads i t ht with ⟨t', ht', hkept⟩
    refine ⟨t', ht', hkept.call, ?_⟩
    rw [Thread.result, Thread.result, (hkept.prog hlooks).1]
  · exact htwin.events.imp (fun e e' h => ⟨h.tid, h.call, h.answer, hdb h.after⟩)

/-- Every entry of a link says what the tables say, and expires in time. -/
def Warm (d : Nat) (w₀ : World) : Prop :=
  ∀ code v ex link, w₀.redis.entry (linkCacheKey code) = some ⟨v, ex⟩ →
    readCached (some v) = .found link →
    stored w₀.db code = link ∧ ex ≤ w₀.now + (d + entryTtl link * 1000)

/-- A lookup that ended has failed for a code that is no text, or returned what
    the tables said at a moment at most `d` and the entry's lifetime before the
    time its `GET` was served. -/
def BoundedStaleness (d : Nat) (w₀ : World) (c : Site) : Prop :=
  ∀ (i : Nat) (t : Task) (code : String) (r : Except Err Reply), c.threads[i]? = some t →
    t.call = .getLinkByShortCode code → t.result = some r →
    (r = .error (.db .invalidByteSequence) ∧ textOk code = false) ∨
    ∃ link, r = .ok (.lookup link) ∧ ∃ g ∈ c.state.mine i,
      g.op = .redis (.get (linkCacheKey code)) ∧
      ∃ m, PastWorld w₀ c.state.log m ∧ stored m.db code = link ∧
        g.after.now ≤ m.now + d + entryTtl link * 1000

/-- Under any failures of Redis, with every `SET` of a reader at most `d`
    milliseconds after its `SELECT`: no write fares differently from a run
    without failures, and every lookup's staleness is bounded. -/
theorem staleness_bounded (P : Platform) (d : Nat) (w₀ : World) (hw : Warm d w₀) (c : Site)
    (hc : Run (clickScope P) (prompt d) w₀ c) :
    (∃ c', Run (clickScope P) faultless w₀ c' ∧ SameWrites c c') ∧ BoundedStaleness d w₀ c := by
  refine ⟨writers_twin hc, fun i t code r ht hcall hr => ?_⟩
  -- At the start every entry is one that was current.
  have h0 : StaleInv d w₀ { world := w₀, log := [] } := by
    refine ⟨fun e he => (by cases he), fun code v ex link hentry hlink => ?_⟩
    rcases hw code v ex link hentry hlink with ⟨hstored, hex⟩
    exact ⟨w₀, Or.inl rfl, hstored, hex⟩
  rcases run_result staleness_sound h0 hc ht hr with ⟨_, st₁, _, _, _, hle, hmine, hpost⟩
  rcases hpost code hcall with ⟨r', rfl, hanswer⟩
  rcases r' with e | link
  · exact Or.inl ⟨by rw [hanswer.1]; rfl, hanswer.2⟩
  · rcases hanswer with ⟨g, hg, hop, hsince⟩
    -- What had held when the call ended has held now, with a longer past.
    rw [hmine] at hg
    rcases hadSince_mono hle hsince with ⟨m, hm, hstored, ht⟩
    exact Or.inr ⟨link, rfl, g, hg, hop, m, hm, hstored, by omega⟩

/-- A test that no thread stores what it read more than `d` milliseconds ago. -/
def inTime (d : Nat) (c : Site) : Action Call EnvStep Choice → Bool
  | .spawn call => call.tendsLinks
  | .run i _ => c.state.log.all (fun e => e.tid != i || e.op.isRedis ||
      decide (c.state.world.now ≤ e.after.now + d))
  | _ => true

theorem inTime_permits (d : Nat) (c : Site) (a : Action Call EnvStep Choice)
    (h : inTime d c a = true) : (prompt d).permits c a := by
  cases a with
  | spawn call => exact h
  | run i ch =>
      intro t op k _ _ key v ex _ e he hread
      rcases State.mem_mine.mp he with ⟨hlog, htid⟩
      rcases hread with ⟨code, hop⟩
      simp only [inTime, List.all_eq_true, Bool.or_eq_true, bne_iff_ne, decide_eq_true_eq] at h
      rcases h e hlog with (hne | hredis) | hle
      · exact absurd htid hne
      · rw [hop] at hredis
        cases hredis
      · exact hle
  | env e => trivial
  | kill i => trivial

/-- A lookup stores the old address, the link is moved with its `DEL` lost, and
    the lookup a minute later still finds the old address. -/
theorem staleness_bounded_lost : ∃ c : Site,
    Run (clickScope samplePlatform) (prompt 1000) cachedWorld c ∧
    (c.resultOf 2).any (fun r => match r with
      | .ok (.lookup (some link)) => link.destinationUrl == "https://old.example/"
      | _ => false) = true ∧
    (∃ c', Run (clickScope samplePlatform) faultless cachedWorld c' ∧ SameWrites c c') ∧
    BoundedStaleness 1000 cachedWorld c := by
  rcases exists_run_of (clickScope samplePlatform) (prompt 1000) cachedWorld (inTime 1000)
    (inTime_permits 1000)
    [.spawn (.getLinkByShortCode "c"), .run 0 {}, .run 0 {}, .run 0 {}, .spawn moveLink,
      .run 1 {}, .run 1 { fault := .lost }, .env (.tick 60000),
      .spawn (.getLinkByShortCode "c"), .run 2 {}]
    (fun c => (c.resultOf 2).any (fun r => match r with
      | .ok (.lookup (some link)) => link.destinationUrl == "https://old.example/"
      | _ => false)) (by decide) with ⟨c, hc, hp⟩
  have hwarm : Warm 1000 cachedWorld := by
    intro code v ex link hentry
    cases hentry
  exact ⟨c, hc, hp, staleness_bounded samplePlatform 1000 cachedWorld hwarm c hc⟩

end ClickScope
