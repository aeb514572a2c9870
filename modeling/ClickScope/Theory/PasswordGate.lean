import ClickScope.Theory.Patch
import ClickScope.Theory.TokenSeparation
import ClickScope.Theory.Visits

/-!
# The Password Gate

No visitor reaches a protected link without a password that verified for it.

Two things have to be followed through a run. A password hash is never empty,
wherever it is kept, since the handlers take an empty one for no password:
`HashesOk` says so of the rows, of the uncommitted versions and of the cache.
And every unlock token was issued by a request that had looked the link up and
whose password verified against the hash found there: `Verified` reads that off
the request's own events.

What a visitor can put into a cookie is anything but a token nobody issued.
`unforgeable` states it where it is an assumption, at the start of a visit.

## Main definitions

* `HashesOk`: No password hash is empty.
* `Verified`: A request has verified a password for a link.
* `unforgeable`: What visitors can send.
* `GateInv`: The invariant of a run.

## Theorems

* `gateInv_push`: Every operation keeps the invariant.
* `gate_sound`: What a redirect of a protected link rests on.
-/

namespace ClickScope

open Async

/-- No password hash is empty. -/
structure HashesOk (w : World) : Prop where
  rows : ∀ r ∈ w.db.links, r.passwordHash ≠ some ""
  pending : ∀ t ∈ w.db.txs, ∀ b, t.bumped = some b → b.passwordHash ≠ some ""
  cached : ∀ key ex l, w.redis.entry key = some ⟨.link l, ex⟩ → l.passwordHash ≠ some ""

/-- The token a signing operation answered with. -/
def tokenOf : (op : Op) → op.Res → Option String
  | .jwtSign _ _, token => some token
  | _, _ => none

theorem tokenOf_inv {op : Op} {r : op.Res} {token : String} (h : tokenOf op r = some token) :
    ∃ claims ttl, op = .jwtSign claims ttl := by
  cases op with
  | jwtSign claims ttl => exact ⟨claims, ttl, rfl⟩
  | _ => cases h

/-- The password and the hash a comparison found to match. -/
def matched : (op : Op) → op.Res → Option (String × String)
  | .bcryptCompare plain hash, true => some (plain, hash)
  | _, _ => none

/-- The thread runs an unlock request that looked the link up and whose
    password matched the hash it found. -/
def Verified (st : Hist) (i : Nat) (call : Call) (linkId : String) : Prop :=
  ∃ req link hash, call = .unlock req ∧ link.id = linkId ∧ link.passwordHash = some hash ∧
    .looked link ∈ visitSteps (st.mine i) ∧
    ∃ e ∈ st.mine i, matched e.op e.res = some (req.password, hash)

/-- A token in the cookie of the request that verifies at all is one of those
    issued among the events. -/
def UnforgedCookie (P : Platform) (log : List Ev) (req : VisitRequest) : Prop :=
  ∀ token, readCookie req.cookie (cookieNameFor req.shortCode) = .ok (some token) →
    (∃ now payload, P.jwt.verify now token = .ok payload) →
    ∃ e ∈ log, tokenOf e.op e.res = some token

/-- Visitors send anything but tokens that were never issued. -/
def unforgeable (P : Platform) : Policy Op Op.Res Call Choice World where
  mayStart := fun st call => ∀ req, call = .visit req → UnforgedCookie P st.log req
  mayDo := fun _ _ _ _ _ => True

/-- What a signed token stands for. -/
def Signed (P : Platform) (st : Hist) (e : Ev) : Op → Prop
  | .jwtSign claims ttl =>
      tokenOf e.op e.res = some (P.jwt.issue claims (seconds e.after.now) ttl) ∧
      ((∃ userId, claims = sessionClaims userId) ∨ (ttl = UNLOCK_TOKEN_TTL ∧
        ∃ linkId, claims = unlockClaims linkId ∧ Verified st e.tid e.call linkId))
  | _ => True

structure GateInv (P : Platform) (st : Hist) : Prop where
  hashes : HashesOk st.world
  looked : ∀ e ∈ st.log, ∀ link, visitStep e.op e.res = some (.looked link) →
    link.passwordHash ≠ some ""
  signed : ∀ e ∈ st.log, Signed P st e e.op

/-- What a call owes: it stores no empty hash, and signs no grant that it has
    not verified. -/
def gatePre (st : Hist) (i : Nat) (call : Call) : Op → Prop
  | .db (.insertLink l) => l.passwordHash ≠ some ""
  | .db (.updateLink set _ _ values) => ∀ now row row', row.passwordHash ≠ some "" →
      applySet now values set row = .ok row' → row'.passwordHash ≠ some ""
  | .redis (.set _ (.link l) _) => l.passwordHash ≠ some ""
  | .jwtSign claims ttl => (∃ userId, claims = sessionClaims userId) ∨ (ttl = UNLOCK_TOKEN_TTL ∧
      ∃ linkId, claims = unlockClaims linkId ∧ Verified st i call linkId)
  | _ => True

/-- What an unlock request answers with. -/
def unlockPost (req : UnlockRequest) : Except Err Reply → Prop
  | .ok r => (∃ cookie, r = .response (.redirect ("/" ++ req.shortCode) cookie)) ∨
      ∃ message, r = .response (.html 401 (renderInterstitial req.shortCode message))
  | .error _ => True

def gate (P : Platform) : Protocol Op Op.Res Err Reply Call Choice World Unit where
  toPolicy := unforgeable P
  loc := fun _ _ => ()
  Inv := GateInv P
  Pre := gatePre
  Post := fun _ call st₀ r _ =>
    (∀ req, call = .visit req → UnforgedCookie P st₀.log req ∧ st₀.SeqLt) ∧
    ∀ req, call = .unlock req → unlockPost req r

section Steps

variable {P : Platform} {i : Nat} {call : Call} {st : Hist} {ch : Choice}

theorem Verified.mono {linkId : String} {j : Nat} {call' : Call} {op : Op} {r : op.Res} {w : World}
    (h : Verified st j call' linkId) : Verified (st.push i call op ch r w) j call' linkId := by
  rcases h with ⟨req, link, hash, hcall, hid, hhash, hlooked, e, he, hmatch⟩
  by_cases hij : i = j
  · subst hij
    refine ⟨req, link, hash, hcall, hid, hhash, ?_, e, ?_, hmatch⟩
    · rw [State.push_mine, visitSteps_cons]
      exact List.mem_append_left _ hlooked
    · rw [State.push_mine]
      exact List.mem_cons_of_mem _ he
  · refine ⟨req, link, hash, hcall, hid, hhash, ?_, e, ?_, hmatch⟩ <;>
      rw [State.push_mine_other _ _ _ _ _ _ _ _ hij]
    · exact hlooked
    · exact he

theorem hashesOk_push {op : Op} {r : op.Res} {w : World} (hi : HashesOk st.world)
    (hpre : gatePre st i call op) (hx : exec P i op ch st.world = some (r, w)) : HashesOk w := by
  by_cases hs : ∀ s, op ≠ .db s
  · have hdb := exec_db_eq hs hx
    refine ⟨hdb ▸ hi.rows, hdb ▸ hi.pending, ?_⟩
    by_cases hc : ∀ c, op ≠ .redis c
    · rw [exec_redis_eq hc hx]
      exact hi.cached
    · push Not at hc
      rcases hc with ⟨c, rfl⟩
      intro key ex l he
      rcases Redis.exec_entry (exec_redis_inv hx).1.symm he with hold | ⟨ttl, rfl, _⟩
      · exact hi.cached key ex l hold
      · exact hpre
  · push Not at hs
    rcases hs with ⟨s, rfl⟩
    rcases exec_db_inv hx with ⟨db, hdb, rfl⟩
    refine ⟨?_, ?_, hi.cached⟩
    · intro row hrow
      -- A row is new, a new version of an old one, or the one a commit installs.
      rcases Db.exec_links_mem hdb hrow with hold | ⟨l, id, rfl, rfl⟩ |
        ⟨set, a, u, values, old, rfl, hold, _, hset⟩ | ⟨old, hold, _, rfl⟩ | ⟨t, ht, hb⟩
      · exact hi.rows row hold
      · exact hpre
      · exact hpre _ old row (hi.rows old hold) hset
      · exact hi.rows old hold
      · exact hi.pending t ht row hb
    · intro t ht b hb
      rcases Db.exec_bumped_mem hdb ht hb with ⟨u, hu, hub⟩ | ⟨row, hrow, rfl⟩
      · exact hi.pending u hu b hub
      · exact hi.rows row hrow

/-- What a lookup finds has no empty hash. -/
theorem looked_hash {op : Op} {r : op.Res} {w : World} {link : RedirectLink}
    (hi : HashesOk st.world) (hx : exec P i op ch st.world = some (r, w))
    (hlink : visitStep op r = some (.looked link)) : link.passwordHash ≠ some "" := by
  cases op with
  | redis c =>
      cases c with
      | get key =>
          rcases r with e | _ | _ | l | _ <;> cases hlink
          -- A link is read from the cache or from its row, and neither has an empty hash.
          rcases Redis.exec_ok (exec_redis_inv hx).1.symm with ⟨hget, _⟩
          rcases Redis.get_some hget.symm with ⟨ex, he, _⟩
          exact hi.cached key ex link he
      | _ => cases hlink
  | db s =>
      cases s with
      | redirectLookup code =>
          rcases r with e | rows
          · cases hlink
          · rcases Option.map_eq_some_iff.mp hlink with ⟨row, hrow, hl⟩
            cases hl
            rcases exec_db_inv hx with ⟨db, hdb, _⟩
            have hmem := List.mem_of_mem_head? hrow
            rw [Db.redirectLookup_ok hdb] at hmem
            exact hi.rows row (List.mem_filter.mp hmem).1
      | _ => cases hlink
  | _ => cases hlink

/-- A signing operation answers with the token of the moment. -/
theorem signed_push {op : Op} {r : op.Res} {w : World} (hpre : gatePre st i call op)
    (hx : exec P i op ch st.world = some (r, w)) :
    Signed P (st.push i call op ch r w) ⟨st.log.length, i, call, op, ch, r, w⟩ op := by
  cases op with
  | jwtSign claims ttl =>
      simp only [exec, Option.some.injEq, Prod.mk.injEq] at hx
      rcases hx with ⟨rfl, rfl⟩
      refine ⟨rfl, ?_⟩
      rcases hpre with hsession | ⟨httl, linkId, hclaims, hver⟩
      · exact Or.inl hsession
      · exact Or.inr ⟨httl, linkId, hclaims, hver.mono⟩
  | _ => trivial

theorem Signed.mono {op op' : Op} {e : Ev} {r : op.Res} {w : World} (h : Signed P st e op') :
    Signed P (st.push i call op ch r w) e op' := by
  cases op' with
  | jwtSign claims ttl =>
      rcases h with ⟨htoken, hsession | ⟨httl, linkId, hclaims, hver⟩⟩
      · exact ⟨htoken, Or.inl hsession⟩
      · exact ⟨htoken, Or.inr ⟨httl, linkId, hclaims, hver.mono⟩⟩
  | _ => trivial

/-- Every operation, performed with what its call owes, keeps the invariant. -/
theorem gateInv_push {op : Op} {r : op.Res} {w : World} (hi : GateInv P st)
    (hpre : gatePre st i call op) (hx : exec P i op ch st.world = some (r, w)) :
    GateInv P (st.push i call op ch r w) where
  hashes := hashesOk_push hi.hashes hpre hx
  looked := by
    intro e he link hlink
    rcases List.mem_cons.mp he with rfl | he
    · exact looked_hash hi.hashes hx hlink
    · exact hi.looked e he link hlink
  signed := by
    intro e he
    rcases List.mem_cons.mp he with rfl | he
    · exact signed_push hpre hx
    · exact (hi.signed e he).mono

end Steps

section Programs

variable {P : Platform} {i : Nat} {call : Call} {st : Hist}

/-- A new hash is not empty. -/
theorem hashGiven_sat {password : Option String} {Post : Except Err (Option String) → Hist → Prop}
    (hpost : ∀ hash st', hash ≠ some "" → Post (.ok hash) st') :
    Sat (clickScope P) (gate P) i call Post (hashGiven password) st := by
  cases password with
  | none => exact hpost none st (by simp only [ne_eq, reduceCtorEq, not_false_eq_true])
  | some plain =>
      refine sat_bind _ _ (sat_perform fun st₁ _ _ _ => ⟨trivial, fun ch hash w _ hx => ?_⟩)
      refine hpost _ _ fun heq => ?_
      cases hx
      exact P.bcrypt.hash_ne_empty plain ch.draw (Option.some.inj heq)

theorem hashField_sat {password : Option (Option String)}
    {Post : Except Err (Option (Option String)) → Hist → Prop}
    (hpost : ∀ hash st', hash ≠ some (some "") → Post (.ok hash) st') :
    Sat (clickScope P) (gate P) i call Post (hashField password) st := by
  rcases password with _ | _ | plain
  · exact hpost none st (by simp only [ne_eq, reduceCtorEq, not_false_eq_true])
  · exact hpost (some none) st (by simp only [ne_eq, Option.some.injEq, reduceCtorEq,
      not_false_eq_true])
  · refine sat_bind _ _ (sat_perform fun st₁ _ _ _ => ⟨trivial, fun ch hash w _ hx => ?_⟩)
    refine hpost _ _ fun heq => ?_
    cases hx
    exact P.bcrypt.hash_ne_empty plain ch.draw (Option.some.inj (Option.some.inj heq))

/-- A creation stores the hash it was given. -/
theorem createOp_gate {hash : Option String} (hne : hash ≠ some "") {op : Op}
    (hop : createOp hash op) : gatePre st i call op := by
  cases op with
  | db s =>
      cases s with
      | insertLink l =>
          -- The row has the hash that was computed.
          simp only [createOp] at hop
          rw [gatePre, hop]
          exact hne
      | updateLink =>
          rcases hop with ⟨_, hop⟩
          cases hop
      | _ => trivial
  | redis c =>
      rcases hop with ⟨_, hop⟩
      rw [hop]
      trivial
  | jwtSign claims ttl =>
      rcases hop with ⟨_, hop⟩
      cases hop
  | _ => trivial

/-- An update stores the hash it was given, or keeps the one there is. -/
theorem updateOp_gate {userId linkId : String} {input : UpdateLinkInput}
    {hash : Option (Option String)} (hne : hash ≠ some (some "")) {op : Op}
    (hop : updateOp userId linkId (setListOf input hash) op) : gatePre st i call op := by
  cases op with
  | db s =>
      cases s with
      | insertLink l =>
          rcases hop with ⟨_, hop⟩
          cases hop
      | updateLink set a u values =>
          -- The row gets the hash that was computed, or keeps the one it has.
          rcases hop with ⟨rfl, rfl, _, _⟩
          intro now row row' hrow hset
          rw [applySet_setListOf, Except.ok.injEq] at hset
          rw [← hset]
          rcases hash with _ | h
          · exact hrow
          · exact fun heq => hne (congrArg some heq)
      | _ => trivial
  | redis c =>
      rcases hop with ⟨_, hop⟩
      rw [hop]
      trivial
  | jwtSign claims ttl =>
      rcases hop with ⟨_, hop⟩
      cases hop
  | _ => trivial

/-- The calls that write a password hash or look one up. -/
def Call.handlesHash : Call → Bool
  | .createLink _ _ | .updateLink _ _ _ | .getLinkByShortCode _ | .visit _ | .unlock _ => true
  | _ => false

/-- The other calls owe nothing. -/
theorem performs_gate {op : Op} (hcall : call.handlesHash = false) (hop : call.performs op) :
    gatePre st i call op := by
  -- Neither an account function nor a login touches a link.
  have haccount : accountOp op → gatePre st i call op := by
    intro h
    cases op with
    | db s => cases s <;> trivial
    | redis c => cases h
    | jwtSign claims ttl => exact Or.inl h
    | _ => trivial
  -- The state of a login is no cached link.
  have hissue : issueOp op → gatePre st i call op := by
    intro h
    cases op with
    | db s => cases h
    | redis c =>
        cases c with
        | set key value ex =>
            rw [h.2]
            trivial
        | _ => trivial
    | jwtSign claims ttl => cases h
    | _ => trivial
  have hcallback : ∀ state, callbackOp state op → gatePre st i call op := by
    intro state h
    cases op with
    | db s => cases h
    | redis c => cases c <;> trivial
    | jwtSign claims ttl => cases h
    | _ => trivial
  have hread : ∀ userId, ownReadOp userId op → gatePre st i call op := by
    intro userId h
    cases op with
    | db s => cases s <;> trivial
    | redis c => cases h
    | jwtSign claims ttl => cases h
    | _ => trivial
  have hdelete : ∀ userId linkId, deleteOp userId linkId op → gatePre st i call op := by
    intro userId linkId h
    cases op with
    | db s =>
        cases s with
        | deleteLink => trivial
        | _ =>
            rcases h with ⟨_, h⟩
            cases h
    | redis c =>
        rcases h with ⟨_, h⟩
        rw [h]
        trivial
    | jwtSign claims ttl =>
        rcases h with ⟨_, h⟩
        cases h
    | _ => trivial
  have hworker : ∀ data, workerOp data op → gatePre st i call op := by
    intro data h
    cases op with
    | db s => cases s <;> trivial
    | redis c => cases h
    | jwtSign claims ttl => cases h
    | _ => trivial
  cases call with
  | signup | login | findOrCreateOAuthUser | getUserById => exact haccount hop
  | googleStart => exact hissue hop
  | googleCallback => exact hop.elim (hcallback _) haccount
  | createLink | updateLink | getLinkByShortCode | visit | unlock => cases hcall
  | listLinks | getLink | getLinkClickStats => exact hread _ hop
  | deleteLink userId linkId => exact hdelete userId linkId hop
  | processClickJob data => exact hworker data hop
  | sweepExpiredLinks =>
      rw [show op = .db .sweepExpired from hop]
      trivial

/-- The operations of a lookup and of a visit: what is stored was looked up, and
    what was looked up has no empty hash. -/
theorem ready_gate {req : VisitRequest} {op : Op} (hi : GateInv P st)
    (hready : VisitReady P req (visitSteps (st.mine i)) op) : gatePre st i call op := by
  cases op with
  | redis c =>
      cases c with
      | set key value ex =>
          cases value with
          | link l =>
              rcases mem_visitSteps.mp (hready.stores key l ex rfl) with ⟨e, he, hstep⟩
              exact hi.looked e (State.mem_mine.mp he).1 l hstep
          | _ => trivial
      | _ => trivial
  | db s => cases s <;> first | trivial | (rcases hready.performs with h | h <;> cases h)
  | jwtSign claims ttl => rcases hready.performs with h | h <;> cases h
  | _ => trivial

/-- An unlock request signs a grant only after its password matched, and never
    answers with a destination. -/
theorem unlock_sat {req : UnlockRequest} (hmine : st.mine i = []) :
    Sat (clickScope P) (gate P) i (.unlock req)
      (fun r _ => unlockPost req (r.map .response)) (unlock req) st := by
  have hnil : visitSteps (st.mine i) = [] := by rw [hmine]; rfl
  refine sat_bind _ _ (liveLink_visit_sat
    { shortCode := req.shortCode, cookie := none, referrer := none, userAgent := none }
    (fun st₁ op hi hready => ready_gate hi hready) hnil (fun _ _ _ => trivial) ?_)
  intro link now st₁ hs hlive
  rcases ht : truthy link.passwordHash with _ | hash
  · simp only [thenSat_ok, ht]
    exact Or.inl ⟨none, rfl⟩
  · -- A token is only signed after the password was compared with this hash.
    have hhash : link.passwordHash = some hash := truthy_some ht
    simp only [thenSat_ok, ht]
    refine sat_bind _ _ (sat_perform fun st₂ hl₂ _ _ => ⟨trivial, fun ch valid w _ _ => ?_⟩)
    cases valid with
    | false => exact Or.inr ⟨_, rfl⟩
    | true =>
        refine sat_bind _ _ (sat_perform fun st₃ hl₃ _ _ => ⟨?_, fun ch₃ token w₃ _ _ => ?_⟩)
        · refine Or.inr ⟨rfl, link.id, rfl, req, link, hash, rfl, rfl, hhash, ?_, ?_⟩
          · rw [hl₃.mine_eq, State.push_mine, visitSteps_cons, hl₂.mine_eq, hs]
            exact List.mem_cons_self
          · rw [hl₃.mine_eq, State.push_mine]
            exact ⟨_, List.mem_cons_self, rfl⟩
        · exact Or.inl ⟨_, rfl⟩

end Programs

section Soundness

variable {P : Platform} {w₀ : World} {c : Site}

theorem gate_sound_protocol : Sound (clickScope P) (gate P) where
  env := by
    intro st e w hi hw
    rcases env_inv hw with ⟨ms, rfl⟩
    exact ⟨⟨hi.hashes.rows, hi.hashes.pending, hi.hashes.cached⟩, hi.looked, hi.signed⟩
  env_loc := fun _ _ _ _ _ => rfl
  reap := by
    intro st i hi
    refine ⟨⟨hi.hashes.rows, ?_, hi.hashes.cached⟩, hi.looked, hi.signed⟩
    exact fun t ht b hb => hi.hashes.pending t (List.mem_filter.mp ht).1 b hb
  reap_loc := fun _ _ _ _ => rfl
  exec := fun st i call op ch r w hi _ hpre _ hx => gateInv_push hi hpre hx
  exec_loc := fun _ _ _ _ _ _ _ _ _ => rfl
  body := by
    intro st i call hi hseq hmine hstart
    have hvisit : ∀ req, call = .visit req → UnforgedCookie P st.log req ∧ st.SeqLt :=
      fun req hreq => ⟨hstart req hreq, hseq⟩
    cases call with
    | createLink userId input =>
        refine sat_map (sat_bind _ _ (hashGiven_sat fun hash st' hne => ?_))
        exact sat_of_only (fun _ _ _ hop => createOp_gate hne hop)
          (fun _ _ => ⟨fun _ h => (by cases h), fun _ h => (by cases h)⟩) _ st'
          (createHashed_only userId input hash)
    | updateLink userId linkId input =>
        refine sat_map (sat_bind _ _ (hashField_sat fun hash st' hne => ?_))
        exact sat_of_only (fun _ _ _ hop => updateOp_gate hne hop)
          (fun _ _ => ⟨fun _ h => (by cases h), fun _ h => (by cases h)⟩) _ st'
          (sendUpdate_only userId linkId _)
    | getLinkByShortCode code =>
        -- A lookup alone is the first part of a visit that never ends.
        refine sat_map (lookup_visit_sat
          { shortCode := code, cookie := none, referrer := none, userAgent := none }
          (fun st₁ op hi₁ hready => ready_gate hi₁ hready) (by rw [hmine]; rfl) ?_)
        exact fun _ _ _ => ⟨fun _ h => (by cases h), fun _ h => (by cases h)⟩
    | visit req =>
        exact sat_map (visit_sat (fun st₁ op hi₁ hready => ready_gate hi₁ hready) hmine
          (fun _ _ _ => ⟨hvisit, fun _ h => by cases h⟩))
    | unlock req =>
        refine sat_map (sat_mono (fun r st' hr => ⟨fun _ h => (by cases h),
          fun req' hreq => ?_⟩) _ st (unlock_sat hmine))
        rw [Call.unlock.injEq] at hreq
        rw [← hreq]
        exact hr
    | _ =>
        exact sat_performs (fun _ _ _ hop => performs_gate rfl hop)
          (fun _ _ => ⟨fun _ h => (by cases h), fun _ h => (by cases h)⟩)

/-- An earlier unlock request issued the token for the link, within the last
    thirty minutes, after its password had matched. -/
def IssuedFor (st : Hist) (born : Nat) (linkId token : String) (now : Nat) : Prop :=
  ∃ e ∈ st.log, e.seq < born ∧ tokenOf e.op e.res = some token ∧
    now < e.after.now + 30 * 60 * 1000 ∧ Verified st e.tid e.call linkId

/-- A token that grants access to a link and was issued at all was issued for
    that link. -/
theorem issuedFor_of_grant {st : Hist} (hi : GateInv P st) {e : Ev} (he : e ∈ st.log)
    {token linkId : String} (htoken : tokenOf e.op e.res = some token) {now born : Nat}
    (hseq : e.seq < born) (hgrant : verifyUnlockToken P (seconds now) token = some linkId) :
    IssuedFor st born linkId token now := by
  have hsigned := hi.signed e he
  rcases tokenOf_inv htoken with ⟨claims, ttl, hop⟩
  rw [hop] at hsigned
  rcases hsigned with ⟨hissue, hwhy⟩
  rw [htoken, Option.some.injEq] at hissue
  rw [hissue] at hgrant
  -- A token of a session grants nothing.
  rcases hwhy with ⟨userId, rfl⟩ | ⟨rfl, l, rfl, hver⟩
  · rw [verifyUnlockToken_session] at hgrant
    cases hgrant
  · have hunlock := verifyUnlockToken_unlock P l (seconds e.after.now) (seconds now)
    rw [unlockToken, hgrant] at hunlock
    -- An expired token does not grant either.
    by_cases hexp : seconds e.after.now + UNLOCK_TOKEN_TTL ≤ seconds now
    · rw [if_pos hexp] at hunlock
      cases hunlock
    · rw [if_neg hexp, Option.some.injEq] at hunlock
      rw [← hunlock] at hver
      refine ⟨e, he, hseq, htoken, ?_, hver⟩
      simp only [seconds, UNLOCK_TOKEN_TTL] at hexp
      omega

end Soundness

/-- In every run: a visit that answers with a redirect was for a live link it
    had looked up, and if that link had a password hash, the cookie carried a
    token that an earlier unlock request issued for that very link within the
    last thirty minutes, after its password had matched the hash it looked up.
    An unlock request answers with its own path or the password form. -/
theorem gate_sound (P : Platform) (w₀ : World) (hw₀ : HashesOk w₀) (c : Site)
    (hc : Run (clickScope P) (unforgeable P) w₀ c) :
    (∀ (i : Nat) (t : Task) (req : VisitRequest) (location : String) (cookie : Option UnlockCookie),
      c.threads[i]? = some t → t.call = .visit req →
      t.result = some (.ok (.response (.redirect location cookie))) →
      ∃ link, passedLink P req (visitSteps (c.state.mine i)) = some link ∧
        location = link.destinationUrl ∧
        (link.passwordHash ≠ none → ∃ token now,
          readCookie req.cookie (cookieNameFor req.shortCode) = .ok (some token) ∧
          .read now ∈ visitSteps (c.state.mine i) ∧
          IssuedFor c.state t.born link.id token now)) ∧
    (∀ (i : Nat) (t : Task) (req : UnlockRequest) (r : Except Err Reply),
      c.threads[i]? = some t → t.call = .unlock req → t.result = some r → unlockPost req r) := by
  have h0 : GateInv P { world := w₀, log := [] } :=
    ⟨hw₀, (fun e he => by cases he), fun e he => by cases he⟩
  have hi : GateInv P c.state := run_inv gate_sound_protocol h0 hc
  refine ⟨?_, ?_⟩
  · intro i t req location cookie ht hcall hr
    have hvisit := run_visit hc ht hcall hr
    simp only [visitPost] at hvisit
    rcases hvisit with ⟨link, data, hpass, hloc, _⟩
    refine ⟨link, hpass, hloc, fun hprotected => ?_⟩
    rcases passedLink_inv hpass with ⟨hlooked, hgate⟩
    -- The hash that was looked up is there and not empty, so the grant counted.
    have htruthy : truthy link.passwordHash ≠ none := by
      rcases mem_visitSteps.mp hlooked with ⟨e, he, hstep⟩
      have hne := hi.looked e (State.mem_mine.mp he).1 link hstep
      rcases hh : link.passwordHash with _ | hash
      · exact absurd hh hprotected
      · rw [hh] at hne
        simp only [truthy]
        rw [if_neg (fun heq => hne (congrArg some heq))]
        simp only [ne_eq, reduceCtorEq, not_false_eq_true]
    rcases hgate with hnone | ⟨now, hread, hunlocked⟩
    · exact absurd hnone htruthy
    · unfold unlocked at hunlocked
      rcases hcookie : readCookie req.cookie (cookieNameFor req.shortCode) with e | token
      · simp only [hcookie, reduceCtorEq] at hunlocked
      · simp only [hcookie] at hunlocked
        rcases htoken : truthy token with _ | tok
        · simp only [htoken, Except.ok.injEq, Bool.false_eq_true] at hunlocked
        · simp only [htoken, Except.ok.injEq, decide_eq_true_eq] at hunlocked
          have htok : token = some tok := truthy_some htoken
          subst htok
          rcases run_result gate_sound_protocol h0 hc ht hr with
            ⟨st₀, _, hborn, _, h01, h1, _, hpost⟩
          rcases hpost.1 req hcall with ⟨hunforged, hseq⟩
          have hverifies : ∃ now payload, P.jwt.verify now tok = .ok payload := by
            unfold verifyUnlockToken at hunlocked
            rcases hv : P.jwt.verify (seconds now) tok with e | payload
            · simp only [hv, reduceCtorEq] at hunlocked
            · exact ⟨_, payload, hv⟩
          rcases hunforged tok hcookie hverifies with ⟨e, he, hissued⟩
          refine ⟨tok, now, rfl, hread, ?_⟩
          exact issuedFor_of_grant hi ((h01.trans h1).subset he) hissued (hborn ▸ hseq e he)
            hunlocked
  · intro i t req r ht hcall hr
    rcases run_result gate_sound_protocol h0 hc ht hr with ⟨_, _, _, _, _, _, _, hpost⟩
    exact hpost.2 req hcall

/-- Signing that gives one payload a short text, so that runs with a token in a
    cookie can be executed. -/
def shortJwt (p₀ : JwtPayload) : Jwt where
  sign p := if p = p₀ then "t" else sampleJwt.sign p
  verify now token :=
    if token = "t" then
      match p₀.claim "exp" with
      | some (.num exp) => if exp ≤ now then .error .expired else .ok p₀
      | _ => .error .invalid
    else sampleJwt.verify now token
  verify_sign now p exp hexp := by
    by_cases hp : p = p₀
    · rw [if_pos hp, if_pos rfl, ← hp, hexp]
    · rw [if_neg hp, if_neg, sampleJwt.verify_sign now p exp hexp]
      intro heq
      have hlist := congrArg String.toList heq
      simp only [sampleJwt, String.toList_ofList] at hlist
      have hdot : 't' ∈ List.replicate (Encodable.encode p) '.' := by
        rw [hlist]
        exact List.mem_singleton_self _
      exact absurd (List.eq_of_mem_replicate hdot) (by decide)

/-- A platform with a short text for the grant that is issued first. -/
def grantPlatform : Platform :=
  { samplePlatform with jwt := shortJwt (stamped (unlockClaims "l") 0 UNLOCK_TOKEN_TTL) }

/-- The cookie of a visit that starts carries a token that was issued. -/
def carriesIssued (c : Site) : Action Call EnvStep Choice → Bool
  | .spawn (.visit req) =>
      match readCookie req.cookie (cookieNameFor req.shortCode) with
      | .ok (some token) => c.state.log.any (fun e => tokenOf e.op e.res == some token)
      | _ => true
  | _ => true

theorem carriesIssued_permits (c : Site) (a : Action Call EnvStep Choice)
    (h : carriesIssued c a = true) : (unforgeable grantPlatform).permits c a := by
  cases a with
  | spawn call =>
      rintro req rfl token hcookie _
      simp only [carriesIssued, hcookie, List.any_eq_true, beq_iff_eq] at h
      exact h
  | run i ch => exact fun _ _ _ _ _ => trivial
  | _ => trivial

/-- A protected link is created, unlocked and visited with the grant. -/
theorem gate_sound_grant : ∃ c : Site,
    Run (clickScope grantPlatform) (unforgeable grantPlatform) ownerWorld c ∧
    c.resultOf 2 = some (.ok (.response (.redirect "https://x.y" none))) ∧
    (∀ (i : Nat) (t : Task) (req : VisitRequest) (location : String) (cookie : Option UnlockCookie),
      c.threads[i]? = some t → t.call = .visit req →
      t.result = some (.ok (.response (.redirect location cookie))) →
      ∃ link, passedLink grantPlatform req (visitSteps (c.state.mine i)) = some link ∧
        location = link.destinationUrl ∧
        (link.passwordHash ≠ none → ∃ token now,
          readCookie req.cookie (cookieNameFor req.shortCode) = .ok (some token) ∧
          .read now ∈ visitSteps (c.state.mine i) ∧
          IssuedFor c.state t.born link.id token now)) ∧
    (∀ (i : Nat) (t : Task) (req : UnlockRequest) (r : Except Err Reply),
      c.threads[i]? = some t → t.call = .unlock req → t.result = some r → unlockPost req r) := by
  -- A link with a password, an unlock that issues a token, and a visit with it.
  have hrun := exists_run_of (clickScope grantPlatform) (unforgeable grantPlatform) ownerWorld
    carriesIssued carriesIssued_permits
    [.spawn (.createLink "u"
        { destinationUrl := "https://x.y", customAlias := none, expiresAt := none,
          maxClicks := none, password := some "pw" }),
      .run 0 {}, .run 0 { draw := "abcdefg" }, .run 0 { draw := "l" },
      .spawn (.unlock { shortCode := "abcdefg", password := "pw" }),
      .run 1 {}, .run 1 {}, .run 1 {}, .run 1 {}, .run 1 {}, .run 1 {},
      .spawn (.visit
        { shortCode := "abcdefg", cookie := some "link_unlock_abcdefg=t", referrer := none,
          userAgent := none }),
      .run 2 {}, .run 2 {}, .run 2 {}, .run 2 { draw := "c" }, .run 2 {}]
    (fun c => decide (c.resultOf 2 = some (.ok (.response (.redirect "https://x.y" none)))))
    (by decide)
  rcases hrun with ⟨c, hc, hresult⟩
  have hw₀ : HashesOk ownerWorld :=
    ⟨(fun r hr => by cases hr), (fun t ht => by cases ht), (fun key ex l he => by cases he)⟩
  exact ⟨c, hc, of_decide_eq_true hresult, gate_sound grantPlatform ownerWorld hw₀ c hc⟩

end ClickScope
