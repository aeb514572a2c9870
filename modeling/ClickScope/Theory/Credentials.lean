import ClickScope.Async.Front
import ClickScope.Theory.PasswordGate
import ClickScope.Theory.Sessions

/-!
# Credentials

Who a token is signed for, and who a statement acts for.

A session token is signed as the last operation of a call, and by then the call
has proven whose it is: a signup made the account, a login compared its password
with the hash of the account, and a callback was told by Google who is there.
`Proven` says so of an account that was in the table while the call ran.

A statement that names an owner is sent only by a call that acts for that
account.

## Main definitions

* `Stmt.actsFor`, `Call.actsFor`: The account a statement or a call acts for.
* `Identified`: What a callback was told by Google.
* `Proven`: What a call has proven about an account.
* `vouching`: The protocol.

## Theorems

* `vouching_sound`: Every call keeps to it.
* `run_vouching`: What holds of every event of a run.
-/

namespace ClickScope

open Async

/-- The account a statement acts for, if it names one. -/
def Stmt.actsFor : Stmt → Option String
  | .userById id => some id
  | .insertLink l => some l.userId
  | .listLinks userId _ _ | .countLinks userId | .linkById _ userId | .deleteLink _ userId
  | .clickStats _ userId _ => some userId
  | .updateLink _ _ userParam values =>
      match param values userParam with
      | some (.account userId) => some userId
      | _ => none
  | _ => none

/-- The account a call acts for. -/
def Call.actsFor : Call → Option String
  | .getUserById id => some id
  | .createLink userId _ | .listLinks _ userId _ | .getLink userId _ | .updateLink userId _ _
  | .deleteLink userId _ | .getLinkClickStats userId _ _ => some userId
  | _ => none

/-- An operation that signs nothing, and acts for this account or for none. -/
def ofOwner (userId : Option String) : Op → Prop
  | .db s => ∀ u, s.actsFor = some u → userId = some u
  | .jwtSign _ _ => False
  | _ => True

/-- What a callback was told: its state was one that had been issued, and Google
    took its code and vouched for the identity. -/
def Identified (told : (Σ op : Op, op.Res) → Prop) (req : GoogleRequest)
    (identity : GoogleIdentity) : Prop :=
  ∃ value code idToken payload, told ⟨.redis (.getdel (stateKey req.state)), .ok (some value)⟩ ∧
    req.code = some code ∧ told ⟨.getToken code, .ok (some idToken)⟩ ∧
    told ⟨.verifyIdToken idToken, .ok payload⟩ ∧ identityOf payload = some identity

/-- What a call has to know before it opens a session for an account. -/
def Vouches (P : Platform) (told : (Σ op : Op, op.Res) → Prop) (row : UserRow) : Call → Prop
  | .signup email password => row.email = email ∧
      ∃ salt, row.passwordHash = some (P.bcrypt.hash password salt)
  | .login email password => P.pg.lower row.email = P.pg.lower email ∧
      row.passwordHash.any (P.bcrypt.compare password) = true
  | .findOrCreateOAuthUser provider oauthId _ verified => verified = true ∧
      row.oauthProvider = some provider ∧ row.oauthId = some oauthId
  | .googleCallback req => ∃ identity, Identified told req identity ∧
      identity.emailVerified = true ∧ row.oauthProvider = some "google" ∧
      row.oauthId = some identity.googleId
  | _ => False

/-- The call has proven that it is for this account. -/
def Proven (P : Platform) (saw : UserRow → Prop) (told : (Σ op : Op, op.Res) → Prop) (call : Call)
    (userId : String) : Prop :=
  ∃ row, saw row ∧ row.id = userId ∧ Vouches P told row call

theorem Vouches.mono {P : Platform} {told told' : (Σ op : Op, op.Res) → Prop} {row : UserRow}
    {call : Call} (h : Vouches P told row call) (ht : ∀ x, told x → told' x) :
    Vouches P told' row call := by
  cases call with
  | googleCallback req =>
      rcases h with ⟨identity, ⟨value, code, idToken, payload, h₁, h₂, h₃, h₄, h₅⟩, hrest⟩
      exact ⟨identity, ⟨value, code, idToken, payload, ht _ h₁, h₂, ht _ h₃, ht _ h₄, h₅⟩, hrest⟩
  | _ => exact h

theorem Proven.mono {P : Platform} {saw saw' : UserRow → Prop}
    {told told' : (Σ op : Op, op.Res) → Prop} {call : Call} {userId : String}
    (h : Proven P saw told call userId) (hs : ∀ row, saw row → saw' row)
    (ht : ∀ x, told x → told' x) : Proven P saw' told' call userId := by
  rcases h with ⟨row, hsaw, hid, hv⟩
  exact ⟨row, hs row hsaw, hid, hv.mono ht⟩

theorem trace_subset {l l' : List Ev} (hl : ∀ e ∈ l, e ∈ l') : ∀ x ∈ trace l, x ∈ trace l' := by
  intro x hx
  rcases List.mem_map.mp hx with ⟨e, he, rfl⟩
  exact List.mem_map_of_mem (hl e he)

/-- What a call has proven by what it was answered. -/
def ProvenBy (P : Platform) (l : List Ev) (call : Call) (userId : String) : Prop :=
  Proven P (Saw l) (fun x => x ∈ trace l) call userId

theorem ProvenBy.mono {P : Platform} {l l' : List Ev} {call : Call} {userId : String}
    (h : ProvenBy P l call userId) (hl : ∀ e ∈ l, e ∈ l') : ProvenBy P l' call userId :=
  Proven.mono h (fun _ ⟨e, he, hrow⟩ => ⟨e, hl e he, hrow⟩) (trace_subset hl)

/-- What a call owes for what it signs and for the statements it sends. -/
def credentialsPre (P : Platform) (st : Hist) (i : Nat) (call : Call) : Op → Prop
  | .jwtSign claims ttl =>
      (∃ userId, claims = sessionClaims userId ∧ ttl = P.jwtExpiresIn ∧
        ProvenBy P (st.mine i) call userId) ∨
      ∃ linkId, claims = unlockClaims linkId ∧ ttl = UNLOCK_TOKEN_TTL
  | .db s => ∀ userId, s.actsFor = some userId → call.actsFor = some userId
  | _ => True

/-- A token is a session token of an account the call has proven, or an unlock
    token. -/
def TokenOk (P : Platform) (st : Hist) (e : Ev) : Prop :=
  ∀ token, tokenOf e.op e.res = some token →
    (∃ userId iat, token = sessionToken P userId iat ∧
      ProvenBy P (st.mine e.tid) e.call userId) ∨
    ∃ linkId iat, token = unlockToken P linkId iat

structure CredentialsInv (P : Platform) (st : Hist) : Prop where
  tokens : ∀ e ∈ st.log, TokenOk P st e
  owners : ∀ e ∈ st.log, ∀ s userId, e.op = .db s → s.actsFor = some userId →
    e.call.actsFor = some userId

def vouching (P : Platform) : Protocol Op Op.Res Err Reply Call Choice World Unit where
  toPolicy := Policy.free
  loc := fun _ _ => ()
  Inv := CredentialsInv P
  Pre := credentialsPre P
  Post := fun _ _ _ _ _ => True

section Steps

variable {P : Platform} {i : Nat} {call : Call} {st : Hist}

theorem TokenOk.mono {op : Op} {ch : Choice} {r : op.Res} {w : World} {e : Ev}
    (h : TokenOk P st e) : TokenOk P (st.push i call op ch r w) e := by
  intro token htoken
  rcases h token htoken with ⟨userId, iat, heq, hproven⟩ | hunlock
  · refine Or.inl ⟨userId, iat, heq, hproven.mono fun e' he' => ?_⟩
    rw [State.mem_mine] at he' ⊢
    exact ⟨List.mem_cons_of_mem _ he'.1, he'.2⟩
  · exact Or.inr hunlock

/-- A token is signed with the clock of the moment. -/
theorem credentialsInv_push {op : Op} {ch : Choice} {r : op.Res} {w : World}
    (hi : CredentialsInv P st) (hpre : credentialsPre P st i call op)
    (hx : exec P i op ch st.world = some (r, w)) : CredentialsInv P (st.push i call op ch r w) where
  tokens := by
    intro e he
    rcases List.mem_cons.mp he with rfl | he
    · intro token htoken
      cases op with
      | jwtSign claims ttl =>
          simp only [exec, Option.some.injEq, Prod.mk.injEq] at hx
          cases htoken
          rcases hpre with ⟨userId, rfl, rfl, hproven⟩ | ⟨linkId, rfl, rfl⟩
          · refine Or.inl ⟨userId, _, hx.1.symm, hproven.mono fun e' he' => ?_⟩
            rw [State.push_mine]
            exact List.mem_cons_of_mem _ he'
          · exact Or.inr ⟨linkId, _, hx.1.symm⟩
      | _ => cases htoken
    · exact (hi.tokens e he).mono
  owners := by
    intro e he
    rcases List.mem_cons.mp he with rfl | he
    · rintro s u rfl hu
      exact hpre u hu
    · exact hi.owners e he

end Steps

section Programs

variable {P : Platform} {i : Nat} {call : Call} {st : Hist}

/-- A session is opened once the account is proven. -/
theorem sessionFor_credentials {row : UserRow} {Post : Except Err Session → Hist → Prop}
    (hproven : ProvenBy P (st.mine i) call row.id) (hpost : ∀ r st', Post r st') :
    Sat (clickScope P) (vouching P) i call Post (sessionFor P row) st := by
  refine sat_bind _ st (sat_perform fun st₁ hl _ _ => ⟨Or.inl ⟨row.id, rfl, rfl, ?_⟩,
    fun _ _ _ _ _ => hpost _ _⟩)
  rw [hl.mine_eq]
  exact hproven

/-- A row that was in the table at one of the events. -/
theorem provenBy_row {l : List Ev} {row : UserRow} (hsaw : Saw l row)
    (hv : Vouches P (fun x => x ∈ trace l) row call) : ProvenBy P l call row.id :=
  ⟨row, hsaw, rfl, hv⟩

theorem saw_push {st₁ st₂ : Hist} {op : Op} {ch : Choice} {r : op.Res} {w : World} {row : UserRow}
    (hl : Later (fun _ _ => ()) i st₁ st₂) (h : Saw (st₁.mine i) row) :
    Saw ((st₂.push i call op ch r w).mine i) row := by
  rw [State.push_mine, saw_cons, hl.mine_eq]
  exact Or.inr h

theorem saw_now {op : Op} {ch : Choice} {r : op.Res} {w : World} {row : UserRow}
    (hrow : row ∈ w.db.users) : Saw ((st.push i call op ch r w).mine i) row := by
  rw [State.push_mine, saw_cons]
  exact Or.inl hrow

theorem signup_credentials {email password : String} {Post : Except Err Session → Hist → Prop}
    (hpost : ∀ r st', Post r st') :
    Sat (clickScope P) (vouching P) i (.signup email password) Post (signup P email password)
      st := by
  refine sat_bind _ st (sat_query fun st₁ _ _ _ => ⟨fun _ h => (by cases h), fun ch r db _ _ => ?_⟩)
  cases r with
  | error e => exact hpost _ _
  | ok ids =>
      simp only [Except.mapError, thenSat_ok]
      cases ids.head? with
      | some _ => exact hpost _ _
      | none =>
          refine sat_bind _ _ (sat_perform fun st₂ _ _ _ => ⟨trivial, fun ch₂ r₂ w₂ _ hx₂ => ?_⟩)
          simp only [exec, Option.some.injEq, Prod.mk.injEq] at hx₂
          rcases hx₂ with ⟨rfl, rfl⟩
          refine sat_bind _ _ (sat_tryCatch _ _
            (insertAccount_sat (fun _ _ h => (by cases h)) ?_ ?_))
          · intro st₃ ch₃ db₃ row _ _ hmem hrow _
            refine sessionFor_credentials (provenBy_row (saw_now hmem) ?_) hpost
            rw [hrow]
            exact ⟨rfl, ch₂.draw, rfl⟩
          · intro st₃ ch₃ db₃ e _ _ _ _
            by_cases hv : (Err.db e).isUniqueViolation = true
            · simp only [catchSat_error, if_pos hv]
              exact hpost _ _
            · simp only [catchSat_error, if_neg hv]
              exact hpost _ _

theorem login_credentials {email password : String} {Post : Except Err Session → Hist → Prop}
    (hpost : ∀ r st', Post r st') :
    Sat (clickScope P) (vouching P) i (.login email password) Post (login P email password)
      st := by
  refine sat_bind _ st (sat_read rfl fun st₁ _ _ => ⟨fun _ h => (by cases h), fun ch r hx => ?_⟩)
  simp only [Db.exec, Option.some.injEq, Prod.mk.injEq, and_true] at hx
  cases r with
  | error e => exact hpost _ _
  | ok rows =>
      simp only [Except.mapError, thenSat_ok]
      rcases hrow : rows.head? with _ | row
      · exact sat_bind _ _ (sat_perform fun _ _ _ _ => ⟨trivial, fun _ _ _ _ _ => hpost _ _⟩)
      · rcases usersByEmail_head hx hrow with ⟨hmem, hlower⟩
        rcases hhash : row.passwordHash with _ | hash
        · simp only [hhash]
          exact sat_bind _ _ (sat_perform fun _ _ _ _ => ⟨trivial, fun _ _ _ _ _ => hpost _ _⟩)
        · simp only [hhash]
          refine sat_bind _ _ (sat_perform fun st₂ hl₂ _ _ => ⟨trivial, fun ch₂ r₂ w₂ _ hx₂ => ?_⟩)
          simp only [exec, Option.some.injEq, Prod.mk.injEq] at hx₂
          cases r₂ with
          | false => exact hpost _ _
          | true =>
              -- Only now is the session opened.
              refine sessionFor_credentials (provenBy_row (saw_push hl₂ (saw_now hmem))
                ⟨hlower, ?_⟩) hpost
              rw [hhash]
              exact hx₂.1

/-- An OAuth login opens a session for the row of its identity, on each of the
    ways to it. What the call needs besides is true of it by then. -/
theorem findOrCreate_credentials {provider oauthId email : String} {verified : Bool}
    {Post : Except Err Session → Hist → Prop} (hpost : ∀ r st', Post r st')
    (hv : ∀ (row : UserRow) (st' : Hist), (∀ e ∈ st.mine i, e ∈ st'.mine i) → verified = true →
      row.oauthProvider = some provider → row.oauthId = some oauthId →
      Vouches P (fun x => x ∈ trace (st'.mine i)) row call) :
    Sat (clickScope P) (vouching P) i call Post
      (findOrCreateOAuthUser P provider oauthId email verified) st := by
  cases verified with
  | false => exact hpost _ _
  | true =>
      -- What the call was told before, it was told at the end.
      have hpush : ∀ {st₁ st₂ : Hist} {op : Op} {ch : Choice} {r : op.Res} {w : World},
          Later (fun _ _ => ()) i st₁ st₂ → (∀ e ∈ st.mine i, e ∈ st₁.mine i) →
            ∀ e ∈ st.mine i, e ∈ (st₂.push i call op ch r w).mine i := by
        intro st₁ st₂ op ch r w hl hsub e he
        rw [State.push_mine, hl.mine_eq]
        exact List.mem_cons_of_mem _ (hsub e he)
      have hself : ∀ e ∈ st.mine i, e ∈ st.mine i := fun _ he => he
      refine sat_bind _ st (sat_read rfl fun st₁ hl₁ _ =>
        ⟨fun _ h => (by cases h), fun ch r hx => ?_⟩)
      simp only [Db.exec, Option.some.injEq, Prod.mk.injEq, and_true] at hx
      have hsub₁ : ∀ e ∈ st.mine i,
          e ∈ (st₁.push i call (.db (.userByOAuth provider oauthId)) ch r st₁.world).mine i :=
        hpush hl₁ hself
      cases r with
      | error e => exact hpost _ _
      | ok rows =>
          simp only [Except.mapError, thenSat_ok]
          rcases hrow : rows.head? with _ | row
          · refine sat_bind _ _ (sat_query fun st₂ hl₂ _ _ =>
              ⟨fun _ h => (by cases h), fun ch₂ r₂ db₂ _ _ => ?_⟩)
            cases r₂ with
            | error e => exact hpost _ _
            | ok ids =>
                simp only [Except.mapError, thenSat_ok]
                cases ids.head? with
                | some _ => exact hpost _ _
                | none =>
                    refine sat_bind _ _ (sat_tryCatch _ _
                      (insertAccount_sat (fun _ _ h => (by cases h)) ?_ ?_))
                    · intro st₃ ch₃ db₃ row hl₃ _ hmem hnew _
                      refine sessionFor_credentials (provenBy_row (saw_now hmem) ?_) hpost
                      exact hv row _ (hpush hl₃ (hpush hl₂ hsub₁)) rfl (by rw [hnew]; rfl)
                        (by rw [hnew]; rfl)
                    · intro st₃ ch₃ db₃ e hl₃ _ _ _
                      simp only [catchSat_error, recoverInsert]
                      by_cases huv : (Err.db e).isUniqueViolation = true
                      · -- The race was lost, and the identity is looked up again.
                        rw [if_pos huv]
                        refine sat_bind _ _ (sat_read rfl fun st₄ hl₄ _ =>
                          ⟨fun _ h => (by cases h), fun ch₄ r₄ hx₄ => ?_⟩)
                        simp only [Db.exec, Option.some.injEq, Prod.mk.injEq, and_true] at hx₄
                        cases r₄ with
                        | error e => exact hpost _ _
                        | ok rows₄ =>
                            simp only [Except.mapError, thenSat_ok]
                            rcases hrow₄ : rows₄.head? with _ | row₄
                            · exact hpost _ _
                            · rcases usersByOAuth_head hx₄ hrow₄ with ⟨hmem, hp, ho⟩
                              refine sessionFor_credentials (provenBy_row (saw_now hmem) ?_) hpost
                              exact hv row₄ _ (hpush hl₄ (hpush hl₃ (hpush hl₂ hsub₁))) rfl hp ho
                      · rw [if_neg huv]
                        exact hpost _ _
          · rcases usersByOAuth_head hx hrow with ⟨hmem, hp, ho⟩
            exact sessionFor_credentials (provenBy_row (saw_now hmem) (hv row _ hsub₁ rfl hp ho))
              hpost

/-- What Google answered, when the exchange of a code ends with an identity. -/
theorem exchange_credentials {code : String} {Post : Except Err GoogleIdentity → Hist → Prop}
    (herr : ∀ e st', Post (.error e) st')
    (hok : ∀ idToken payload identity (st' : Hist), (∀ e ∈ st.mine i, e ∈ st'.mine i) →
      ⟨.getToken code, .ok (some idToken)⟩ ∈ trace (st'.mine i) →
      ⟨.verifyIdToken idToken, .ok payload⟩ ∈ trace (st'.mine i) →
      identityOf payload = some identity → Post (.ok identity) st') :
    Sat (clickScope P) (vouching P) i call Post (exchangeCodeForIdentity code) st := by
  refine sat_bind _ st (fun st₁ hl₁ _ _ => ⟨trivial, fun ch₁ r₁ w₁ _ _ => ?_⟩)
  cases r₁ with
  | error e => exact herr _ _
  | ok answer =>
      show Sat (clickScope P) (vouching P) i call Post _ _
      rcases htoken : truthy answer with _ | idToken
      · simp only [htoken]
        exact herr _ _
      · simp only [htoken]
        obtain rfl := truthy_some htoken
        refine sat_bind _ _ (fun st₂ hl₂ _ _ => ⟨trivial, fun ch₂ r₂ w₂ _ _ => ?_⟩)
        cases r₂ with
        | error e => exact herr _ _
        | ok payload =>
            show Sat (clickScope P) (vouching P) i call Post _ _
            rcases hid : identityOf payload with _ | identity
            · simp only [hid]
              exact herr _ _
            · simp only [hid]
              refine hok idToken payload identity _ ?_ ?_ ?_ hid
              all_goals rw [State.push_mine, hl₂.mine_eq, State.push_mine, hl₁.mine_eq]
              · exact fun e he => List.mem_cons_of_mem _ (List.mem_cons_of_mem _ he)
              · exact List.mem_cons_of_mem _ List.mem_cons_self
              · exact List.mem_cons_self

/-- The callback: by the time it opens a session it was told whose it is. -/
theorem googleCallback_credentials {req : GoogleRequest}
    {Post : Except Err GoogleReply → Hist → Prop} (hpost : ∀ r st', Post r st') :
    Sat (clickScope P) (vouching P) i (.googleCallback req) Post (googleCallback P req) st := by
  refine sat_bind _ _ (sat_bind _ _ (sat_redis fun st₁ _ _ _ => ⟨trivial, fun ch r s _ _ => ?_⟩))
  cases r with
  | error e => exact hpost _ _
  | ok value =>
      change Sat _ _ _ _ _ (if value.isSome then acceptCallback P req
        else .throw (.app (badRequest "Invalid or expired OAuth state"))) _
      cases value with
      | none => exact hpost _ _
      | some value =>
          simp only [Option.isSome_some, if_true, acceptCallback]
          cases truthy req.error with
          | some _ => exact hpost _ _
          | none =>
              rcases hcode : truthy req.code with _ | code
              · exact hpost _ _
              · refine sat_bind _ _ (exchange_credentials (fun _ _ => hpost _ _)
                  fun idToken payload identity st' hsub htoken hpayload hid => ?_)
                refine sat_bind _ _ (findOrCreate_credentials (fun r st'' => ?_)
                  fun row st'' hsub' hverified hp ho => ?_)
                · cases r <;> exact hpost _ _
                · refine ⟨identity, ⟨value, code, idToken, payload, ?_, truthy_some hcode,
                    trace_subset hsub' _ htoken, trace_subset hsub' _ hpayload, hid⟩, hverified,
                    hp, ho⟩
                  refine trace_subset hsub' _ (trace_subset hsub _ ?_)
                  rw [State.push_mine]
                  exact List.mem_cons_self

end Programs

section Owners

variable {P : Platform} {userId : String} {op : Op}

theorem ofOwner_credentials {i : Nat} {call : Call} {st : Hist} (h : ofOwner call.actsFor op) :
    credentialsPre P st i call op := by
  cases op with
  | db s => exact h
  | jwtSign claims ttl => exact h.elim
  | _ => trivial

/-- The statements of a creation are its owner's. -/
theorem insertLink_ofOwner (shortCode : String) (input : CreateLinkInput)
    (passwordHash : Option String) :
    (insertLink userId shortCode input passwordHash).Only (ofOwner (some userId)) := by
  refine Prog.only_tryCatch (fun err => ?_) _ ?_
  · cases err.isUniqueViolation <;> trivial
  · refine Prog.only_bind (fun rows => ?_) _ (query_only _ _ fun u hu => hu)
    cases rows.head? <;> trivial

theorem createGenerated_ofOwner (input : CreateLinkInput) (passwordHash : Option String)
    (attempts : Nat) :
    (createGenerated userId input passwordHash attempts).Only (ofOwner (some userId)) := by
  induction attempts with
  | zero => trivial
  | succ n ih =>
      refine Prog.only_bind (fun code => ?_) _ ⟨trivial, fun _ => trivial⟩
      refine Prog.only_bind (fun row => ?_) _ (insertLink_ofOwner _ _ _)
      cases row with
      | some row => trivial
      | none => exact ih

theorem createAliased_ofOwner (customAlias : String) (input : CreateLinkInput)
    (passwordHash : Option String) :
    (createAliased userId customAlias input passwordHash).Only (ofOwner (some userId)) := by
  refine Prog.only_bind (fun existing => ?_) _ (query_only _ _ fun u hu => by cases hu)
  cases existing.head? with
  | some _ => trivial
  | none =>
      refine Prog.only_bind (fun row => ?_) _ (insertLink_ofOwner _ _ _)
      cases row with
      | none => trivial
      | some row => exact Prog.only_map _ (invalidateLinkCache_only _ trivial)

theorem createLink_ofOwner (input : CreateLinkInput) :
    (createLink userId input).Only (ofOwner (some userId)) := by
  refine Prog.only_bind (fun hash => ?_) _ (Prog.only_mono (fun op hop => ?_) _ (hashGiven_only _))
  · cases truthy input.customAlias with
    | some customAlias => exact createAliased_ofOwner _ _ _
    | none => exact createGenerated_ofOwner _ _ _
  · cases op with
    | bcryptHash plain => trivial
    | _ => exact hop.elim

/-- An invalidation is no statement. -/
theorem invalidateOp_ofOwner {owner : Option String} (h : invalidateOp op) : ofOwner owner op := by
  rcases h with ⟨shortCode, rfl⟩
  trivial

theorem lookupOp_ofOwner {owner : Option String} {shortCode : String} (h : lookupOp shortCode op) :
    ofOwner owner op := by
  cases op with
  | db s =>
      cases s with
      | redirectLookup code => exact fun u hu => by cases hu
      | _ => exact h.elim
  | redis c => trivial
  | _ => exact h.elim

theorem ownReadOp_ofOwner (h : ownReadOp userId op) : ofOwner (some userId) op := by
  cases op with
  | db s =>
      cases s with
      | listLinks u limit offset => exact fun v hv => h ▸ hv
      | countLinks u => exact fun v hv => h ▸ hv
      | linkById id u => exact fun v hv => h ▸ hv
      | clickStats id u since => exact fun v hv => h ▸ hv
      | _ => exact h.elim
  | _ => exact h.elim

theorem updateOp_ofOwner {linkId : String} {s : SetList} (h : updateOp userId linkId s op) :
    ofOwner (some userId) op := by
  cases op with
  | db stmt =>
      cases stmt with
      | linkById id u => exact fun v hv => h.2 ▸ hv
      | updateLink set idParam userParam values =>
          -- The owner is the last of the values.
          rcases h with ⟨_, hvalues, _, huser⟩
          intro v hv
          have hparam : param values userParam = some (.account userId) := by
            rw [huser, hvalues, List.length_append]
            show (s.values ++ [.uuid linkId, .account userId])[s.values.length + 1]? = _
            rw [List.getElem?_append_right (Nat.le_succ _), Nat.succ_sub (Nat.le_refl _),
              Nat.sub_self]
            rfl
          simp only [Stmt.actsFor, hparam] at hv
          exact hv
      | _ => exact invalidateOp_ofOwner h
  | _ => exact invalidateOp_ofOwner h

theorem deleteOp_ofOwner {linkId : String} (h : deleteOp userId linkId op) :
    ofOwner (some userId) op := by
  cases op with
  | db stmt =>
      cases stmt with
      | deleteLink id u => exact fun v hv => h.2 ▸ hv
      | _ => exact invalidateOp_ofOwner h
  | _ => exact invalidateOp_ofOwner h

theorem workerOp_ofOwner {owner : Option String} {data : ClickJobData} (h : workerOp data op) :
    ofOwner owner op := by
  cases op with
  | db s =>
      cases s with
      | begin | insertClick | incrementClickCount | commit | rollback =>
          exact fun u hu => by cases hu
      | _ => exact h.elim
  | poolConnect => trivial
  | _ => exact h.elim

theorem clickOp_ofOwner {owner : Option String} (h : clickOp op) : ofOwner owner op := by
  cases op with
  | dateNow | randomUUID | enqueue => trivial
  | _ => exact h.elim

theorem hashOp_ofOwner {owner : Option String} (h : hashOp op) : ofOwner owner op := by
  cases op with
  | bcryptHash plain => trivial
  | _ => exact h.elim

theorem issueOp_ofOwner {owner : Option String} (h : issueOp op) : ofOwner owner op := by
  cases op with
  | randomState | redis => trivial
  | _ => exact h.elim

/-- An unlock signs grants. -/
theorem grantOp_credentials {i : Nat} {call : Call} {st : Hist} (h : grantOp op) :
    credentialsPre P st i call op := by
  cases op with
  | jwtSign claims ttl => exact Or.inr ⟨_, h.1.choose_spec, h.2⟩
  | dateNow | bcryptCompare => trivial
  | _ => exact h.elim

end Owners

section Runs

variable {P : Platform} {w₀ : World} {c : Site}

theorem vouching_sound : Sound (clickScope P) (vouching P) where
  env := fun _ _ _ hi _ => ⟨hi.tokens, hi.owners⟩
  env_loc := fun _ _ _ _ _ => rfl
  reap := fun _ _ hi => ⟨hi.tokens, hi.owners⟩
  reap_loc := fun _ _ _ _ => rfl
  exec := fun _ _ _ _ _ _ _ hi _ hpre _ hx => credentialsInv_push hi hpre hx
  exec_loc := fun _ _ _ _ _ _ _ _ _ => rfl
  body := by
    intro st i call _ _ _ _
    -- What the footprint of a call says is enough for most of them.
    have howner : (∀ op, call.performs op → ofOwner call.actsFor op) →
        Sat (clickScope P) (vouching P) i call (fun _ _ => True) (body P call) st := fun h =>
      sat_performs (fun _ op _ hop => ofOwner_credentials (h op hop)) (fun _ _ => trivial)
    have honly : ∀ {x : Api Reply}, x.Only (ofOwner call.actsFor) →
        Sat (clickScope P) (vouching P) i call (fun _ _ => True) x st := fun hx =>
      sat_of_only (fun _ _ _ hop => ofOwner_credentials hop) (fun _ _ => trivial) _ _ hx
    cases call with
    | signup email password => exact sat_map (signup_credentials fun _ _ => trivial)
    | login email password => exact sat_map (login_credentials fun _ _ => trivial)
    | findOrCreateOAuthUser provider oauthId email verified =>
        exact sat_map (findOrCreate_credentials (fun _ _ => trivial)
          fun row st' _ hverified hp ho => ⟨hverified, hp, ho⟩)
    | googleCallback req => exact sat_map (googleCallback_credentials fun _ _ => trivial)
    | getUserById id =>
        exact honly (Prog.only_map _ (Prog.only_map _ (query_only _ _ fun u hu => hu)))
    | createLink userId input => exact honly (Prog.only_map _ (createLink_ofOwner input))
    | unlock req =>
        refine sat_performs (fun _ op _ hop => ?_) (fun _ _ => trivial)
        rcases hop with hop | hop
        · exact ofOwner_credentials (lookupOp_ofOwner hop)
        · exact grantOp_credentials hop
    | googleStart browser => exact howner fun _ h => issueOp_ofOwner h
    | listLinks | getLink | getLinkClickStats => exact howner fun _ h => ownReadOp_ofOwner h
    | updateLink userId linkId input =>
        exact howner fun _ h => h.elim hashOp_ofOwner fun ⟨_, h⟩ => updateOp_ofOwner h
    | deleteLink userId linkId => exact howner fun _ h => deleteOp_ofOwner h
    | getLinkByShortCode shortCode => exact howner fun _ h => lookupOp_ofOwner h
    | visit req => exact howner fun _ h => h.elim lookupOp_ofOwner clickOp_ofOwner
    | processClickJob data => exact howner fun _ h => workerOp_ofOwner h
    | sweepExpiredLinks =>
        refine howner fun op h => ?_
        rw [show op = .db .sweepExpired from h]
        exact fun u hu => by cases hu

/-- Every token of a run is a session token for an account its call had proven,
    or an unlock token, and every statement is one its call may send. -/
theorem run_vouching (hc : Run (clickScope P) Policy.free w₀ c) : CredentialsInv P c.state :=
  run_inv vouching_sound ⟨fun _ he => (by cases he), fun _ he => (by cases he)⟩ hc

end Runs

end ClickScope
