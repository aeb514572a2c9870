import ClickScope.Async.Along
import ClickScope.Theory.Accounts
import ClickScope.Theory.TokenSeparation

/-!
# Sessions Come Back

What an account call returned, and what later calls make of it.

A session token goes through the bearer middleware to the account lookup of
`GET /me`. An account is never changed or removed, so whatever else runs, the
token leads back to the user it was returned with until it expires. That holds
of signups, logins and both ways an OAuth login can end.

A login that starts after a signup reads the row the signup made, under any
spelling of the email the table takes to be the same. What it answers is then
decided by the comparison with the hash of the password of the signup alone.

Statements read one table each, so an answer is a function of the table at the
moment of one event of the call, and `Saw` carries the row that was returned
from one event to the other.

## Main definitions

* `sessionToken?`: The session token of a reply.
* `LoginDecision`: What a login answers, given the row it found.
* `signIns`: The protocol.

## Theorems

* `login_reads`, `getUserById_reads`: Answers as functions of one table.
* `sessions_lead_back`: From a token to its account.
* `login_after_signup`: What decides a login.
-/

namespace ClickScope

open Async

/-- The session token a reply carries, with the user where it carries that. -/
def sessionOf : Reply → Option (String × Option AuthUser)
  | .session s => some (s.token, some s.user)
  | .google (.loggedIn _ token) => some (token, none)
  | _ => none

/-- The calls that open sessions. -/
def Call.opensSession : Call → Bool
  | .signup _ _ | .login _ _ | .findOrCreateOAuthUser _ _ _ _ | .googleCallback _ => true
  | _ => false

/-- What a login answers when it found this row, or none. -/
def LoginDecision (P : Platform) (password : String) (row : Option UserRow)
    (r : Except Err Session) : Prop :=
  match row with
  | none => r = .error (.app (unauthorized INVALID_CREDENTIALS_MESSAGE))
  | some row =>
      if row.passwordHash.any (P.bcrypt.compare password) then
        ∃ s, r = .ok s ∧ Names P s row
      else r = .error (.app (unauthorized INVALID_CREDENTIALS_MESSAGE))

/-- The row a login finds in a table. -/
def accountOf (P : Platform) (email : String) (users : List UserRow) : Option UserRow :=
  (users.filter (fun u => P.pg.lower u.email == P.pg.lower email)).head?

/-- The call read the accounts, and they were these. -/
def Read (l : List Ev) (users : List UserRow) : Prop := ∃ e ∈ l, e.after.db.users = users

/-- What is promised of replies: a session is for a row the call saw, and the
    answers of a login and a lookup are those of a table they read. -/
def credentialPost (P : Platform) (call : Call) (l : List Ev) (r : Except Err Reply) : Prop :=
  match call, r with
  | .signup email password, .ok reply => ∃ s row salt, reply = .session s ∧ Saw l row ∧
      Names P s row ∧ row.email = email ∧ row.passwordHash = some (P.bcrypt.hash password salt)
  | .login email password, r => (textOk email = false ∧ ∃ e, r = .error e) ∨
      ∃ users r', Read l users ∧ r = r'.map .session ∧
        LoginDecision P password (accountOf P email users) r'
  | .findOrCreateOAuthUser _ _ _ _, .ok reply => ∃ s row, reply = .session s ∧ Saw l row ∧
      Names P s row
  | .googleCallback _, .ok reply => ∀ token user, sessionOf reply = some (token, user) →
      ∃ s row, token = s.token ∧ user = none ∧ Saw l row ∧ Names P s row
  | .getUserById id, r => ∃ users, Read l users ∧
      r = .ok (.account ((users.filter (fun u => u.id == id)).head?.map toAuthUser))
  | _, _ => True

def signIns (P : Platform) : Protocol Op Op.Res Err Reply Call Choice World Unit where
  toPolicy := Policy.free
  loc := fun _ _ => ()
  Inv := fun _ => True
  Pre := fun _ _ _ _ => True
  Post := fun i call _ r st => credentialPost P call (st.mine i) r

section Programs

variable {P : Platform} {i : Nat} {call : Call} {st : Hist}

theorem read_now {op : Op} {ch : Choice} {r : op.Res} {w : World} :
    Read ((st.push i call op ch r w).mine i) w.db.users :=
  ⟨_, by rw [State.push_mine]; exact List.mem_cons_self, rfl⟩

theorem read_after {st₁ : Hist} {op : Op} {ch : Choice} {r : op.Res} {w : World}
    {users : List UserRow} (hl : Later (fun _ _ => ()) i st st₁) (h : Read (st.mine i) users) :
    Read ((st₁.push i call op ch r w).mine i) users := by
  rcases h with ⟨e, he, hu⟩
  rw [State.push_mine, hl.mine_eq]
  exact ⟨e, List.mem_cons_of_mem _ he, hu⟩

theorem saw_of_read {row : UserRow} {users : List UserRow} (h : Read (st.mine i) users)
    (hrow : row ∈ users) : Saw (st.mine i) row := by
  rcases h with ⟨e, he, hu⟩
  exact ⟨e, he, by rw [hu]; exact hrow⟩

/-- A session for a row of a table the call read. -/
theorem sessionFor_signIns {row : UserRow} {users : List UserRow}
    {Post : Except Err Session → Hist → Prop} (hread : Read (st.mine i) users)
    (h : ∀ s st', Read (st'.mine i) users → Names P s row → Post (.ok s) st') :
    Sat (clickScope P) (signIns P) i call Post (sessionFor P row) st :=
  sessionFor_sat (fun _ => trivial) fun _ _ _ s hl _ hs => h s _ (read_after hl hread) hs

/-- `login`: the answer is that of the table it read. -/
theorem login_reads {email password : String} {Post : Except Err Session → Hist → Prop}
    (hbad : textOk email = false → ∀ e st', Post (.error e) st')
    (h : ∀ users r st', Read (st'.mine i) users →
      LoginDecision P password (accountOf P email users) r → Post r st') :
    Sat (clickScope P) (signIns P) i call Post (login P email password) st := by
  refine sat_bind _ st (sat_read rfl fun st₁ hl _ => ⟨trivial, fun ch r hx => ?_⟩)
  simp only [Db.exec, Option.some.injEq, Prod.mk.injEq, and_true] at hx
  cases r with
  | error e => exact hbad (usersByEmail_error hx).2 _ _
  | ok rows =>
      have hread : Read ((st₁.push i call (.db (.userByEmail email)) ch (.ok rows)
          st₁.world).mine i) st₁.world.db.users := read_now
      have hrows : accountOf P email st₁.world.db.users = rows.head? := by
        unfold Db.usersByEmail at hx
        split at hx
        · rw [← Except.ok.inj hx]
          rfl
        · cases hx
      have h' := h st₁.world.db.users
      rw [hrows] at h'
      simp only [Except.mapError, thenSat_ok]
      rcases hrow : rows.head? with _ | row <;> rw [hrow] at h'
      · -- The comparison with the dummy hash decides nothing.
        exact sat_bind _ _ (sat_perform fun st₂ hl₂ _ _ =>
          ⟨trivial, fun _ _ _ _ _ => h' _ _ (read_after hl₂ hread) rfl⟩)
      · rcases hhash : row.passwordHash with _ | hash
        · simp only [hhash]
          refine sat_bind _ _ (sat_perform fun st₂ hl₂ _ _ =>
            ⟨trivial, fun _ _ _ _ _ => h' _ _ (read_after hl₂ hread) ?_⟩)
          simp only [LoginDecision, hhash, Option.any_none, Bool.false_eq_true, if_false]
        · simp only [hhash]
          refine sat_bind _ _ (sat_perform fun st₂ hl₂ _ _ => ⟨trivial, fun ch₂ r₂ w₂ _ hx₂ => ?_⟩)
          simp only [exec, Option.some.injEq, Prod.mk.injEq] at hx₂
          rcases hx₂ with ⟨hcmp, rfl⟩
          cases r₂ with
          | false =>
              refine h' _ _ (read_after hl₂ hread) ?_
              simp only [LoginDecision, hhash, Option.any_some, hcmp, Bool.false_eq_true, if_false]
          | true =>
              refine sessionFor_signIns (read_after hl₂ hread) fun s st' hr hs => h' _ _ hr ?_
              simp only [LoginDecision, hhash, Option.any_some, hcmp, if_true]
              exact ⟨s, rfl, hs⟩

/-- `signup`: the session is for the row the insert made. -/
theorem signup_signIns {email password : String} {Post : Except Err Session → Hist → Prop}
    (herr : ∀ e st', Post (.error e) st')
    (h : ∀ s row salt st', Saw (st'.mine i) row → Names P s row → row.email = email →
      row.passwordHash = some (P.bcrypt.hash password salt) → Post (.ok s) st') :
    Sat (clickScope P) (signIns P) i call Post (signup P email password) st := by
  refine sat_bind _ st (sat_query fun st₁ _ _ _ => ⟨trivial, fun ch r db _ _ => ?_⟩)
  cases r with
  | error e => exact herr _ _
  | ok ids =>
      simp only [Except.mapError, thenSat_ok]
      cases ids.head? with
      | some _ => exact herr _ _
      | none =>
          refine sat_bind _ _ (sat_perform fun st₂ _ _ _ => ⟨trivial, fun ch₂ r₂ w₂ _ hx₂ => ?_⟩)
          simp only [exec, Option.some.injEq, Prod.mk.injEq] at hx₂
          rcases hx₂ with ⟨rfl, rfl⟩
          refine sat_bind _ _ (sat_tryCatch _ _ (insertAccount_sat (fun _ => trivial) ?_ ?_))
          · intro st₃ ch₃ db₃ row _ _ hmem hrow _
            refine sessionFor_signIns read_now fun s st' hr hs => ?_
            exact h s row ch₂.draw st' (saw_of_read hr hmem) hs (by rw [hrow]; rfl)
              (by rw [hrow]; rfl)
          · intro st₃ ch₃ db₃ e _ _ _ _
            by_cases hv : (Err.db e).isUniqueViolation = true
            · simp only [catchSat_error, if_pos hv]
              exact herr _ _
            · simp only [catchSat_error, if_neg hv]
              exact herr _ _

/-- `findOrCreateOAuthUser`: the session is for a row the call saw, on each of
    the ways to it. -/
theorem findOrCreate_signIns {provider oauthId email : String} {verified : Bool}
    {Post : Except Err Session → Hist → Prop} (herr : ∀ e st', Post (.error e) st')
    (h : ∀ s row st', Saw (st'.mine i) row → Names P s row → Post (.ok s) st') :
    Sat (clickScope P) (signIns P) i call Post
      (findOrCreateOAuthUser P provider oauthId email verified) st := by
  have hdone : ∀ (row : UserRow) (users : List UserRow) (st' : Hist), row ∈ users →
      Read (st'.mine i) users →
      Sat (clickScope P) (signIns P) i call Post (sessionFor P row) st' :=
    fun row users st' hrow hread => sessionFor_signIns hread fun s st'' hr hs =>
      h s row st'' (saw_of_read hr hrow) hs
  cases verified with
  | false => exact herr _ _
  | true =>
      refine sat_bind _ st (sat_read rfl fun st₁ _ _ => ⟨trivial, fun ch r hx => ?_⟩)
      simp only [Db.exec, Option.some.injEq, Prod.mk.injEq, and_true] at hx
      cases r with
      | error e => exact herr _ _
      | ok rows =>
          simp only [Except.mapError, thenSat_ok]
          rcases hrow : rows.head? with _ | row
          · refine sat_bind _ _ (sat_query fun st₂ _ _ _ => ⟨trivial, fun ch₂ r₂ db₂ _ _ => ?_⟩)
            cases r₂ with
            | error e => exact herr _ _
            | ok ids =>
                simp only [Except.mapError, thenSat_ok]
                cases ids.head? with
                | some _ => exact herr _ _
                | none =>
                    refine sat_bind _ _ (sat_tryCatch _ _
                      (insertAccount_sat (fun _ => trivial) ?_ ?_))
                    · exact fun st₃ ch₃ db₃ row _ _ hmem _ _ => hdone row _ _ hmem read_now
                    · intro st₃ ch₃ db₃ e _ _ _ _
                      simp only [catchSat_error, recoverInsert]
                      by_cases hv : (Err.db e).isUniqueViolation = true
                      · -- The race was lost, and the identity is looked up again.
                        rw [if_pos hv]
                        refine sat_bind _ _ (sat_read rfl fun st₄ _ _ =>
                          ⟨trivial, fun ch₄ r₄ hx₄ => ?_⟩)
                        simp only [Db.exec, Option.some.injEq, Prod.mk.injEq, and_true] at hx₄
                        cases r₄ with
                        | error e => exact herr _ _
                        | ok rows₄ =>
                            simp only [Except.mapError, thenSat_ok]
                            rcases hrow₄ : rows₄.head? with _ | row₄
                            · exact herr _ _
                            · exact hdone row₄ _ _ (usersByOAuth_head hx₄ hrow₄).1 read_now
                      · rw [if_neg hv]
                        exact herr _ _
          · exact hdone row _ _ (usersByOAuth_head hx hrow).1 read_now

/-- `getUserById`: the answer is that of the table it read. -/
theorem getUserById_reads {id : String} {Post : Except Err (Option AuthUser) → Hist → Prop}
    (h : ∀ users st', Read (st'.mine i) users →
      Post (.ok ((users.filter (fun u => u.id == id)).head?.map toAuthUser)) st') :
    Sat (clickScope P) (signIns P) i call Post (getUserById id) st := by
  refine sat_bind _ st (sat_read rfl fun st₁ _ _ => ⟨trivial, fun ch r hx => ?_⟩)
  simp only [Db.exec, Option.some.injEq, Prod.mk.injEq, and_true] at hx
  rw [← hx]
  exact h _ _ read_now

/-- The callback: the session, if it gets that far, is one of the OAuth login. -/
theorem googleCallback_signIns {req : GoogleRequest}
    {Post : Except Err GoogleReply → Hist → Prop} (herr : ∀ e st', Post (.error e) st')
    (hdenied : ∀ location st', Post (.ok (.denied location)) st')
    (h : ∀ location s row st', Saw (st'.mine i) row → Names P s row →
      Post (.ok (.loggedIn location s.token)) st') :
    Sat (clickScope P) (signIns P) i call Post (googleCallback P req) st := by
  refine sat_bind _ _ (sat_bind _ _ (sat_redis fun st₁ _ _ _ => ⟨trivial, fun ch r s _ _ => ?_⟩))
  cases r with
  | error e => exact herr _ _
  | ok value =>
      change Sat _ _ _ _ _ (if value.isSome then acceptCallback P req
        else .throw (.app (badRequest "Invalid or expired OAuth state"))) _
      cases value.isSome with
      | false => exact herr _ _
      | true =>
          rw [if_pos rfl]
          unfold acceptCallback
          cases truthy req.error with
          | some _ => exact hdenied _ _
          | none =>
              cases truthy req.code with
              | none => exact herr _ _
              | some code =>
                  -- Whatever Google answers, the rest goes on from there.
                  refine sat_bind _ _ (sat_of_only (fun _ _ _ _ => trivial) (fun r st' => ?_) _ _
                    (exchangeCodeForIdentity_only req.state code))
                  cases r with
                  | error e => exact herr _ _
                  | ok identity =>
                      exact sat_bind _ _ (findOrCreate_signIns (fun e st'' => herr e st'')
                        fun s row st'' hsaw hs => h _ s row st'' hsaw hs)

end Programs

section Runs

variable {P : Platform} {w₀ : World} {c : Site}

theorem signIns_sound : Sound (clickScope P) (signIns P) where
  env := fun _ _ _ _ _ => trivial
  env_loc := fun _ _ _ _ _ => rfl
  reap := fun _ _ _ => trivial
  reap_loc := fun _ _ _ _ => rfl
  exec := fun _ _ _ _ _ _ _ _ _ _ _ _ => trivial
  exec_loc := fun _ _ _ _ _ _ _ _ _ => rfl
  body := by
    intro st i call _ _ _ _
    cases call with
    | signup email password =>
        exact sat_map (signup_signIns (fun _ _ => trivial)
          fun s row salt st' hsaw hs hemail hhash =>
            ⟨s, row, salt, rfl, hsaw, hs, hemail, hhash⟩)
    | login email password =>
        exact sat_map (login_reads (fun htext e st' => Or.inl ⟨htext, e, rfl⟩)
          fun users r st' hread hans => Or.inr ⟨users, r, hread, rfl, hans⟩)
    | findOrCreateOAuthUser provider oauthId email verified =>
        exact sat_map (findOrCreate_signIns (fun _ _ => trivial)
          fun s row st' hsaw hs => ⟨s, row, rfl, hsaw, hs⟩)
    | getUserById id => exact sat_map (getUserById_reads fun users st' hread => ⟨users, hread, rfl⟩)
    | googleCallback req =>
        refine sat_map (googleCallback_signIns (fun _ _ => trivial)
          (fun _ _ token user h => by cases h) fun location s row st' hsaw hs token user h => ?_)
        rcases Prod.mk.inj (Option.some.inj h) with ⟨rfl, rfl⟩
        exact ⟨s, row, rfl, rfl, hsaw, hs⟩
    | _ => exact sat_performs (fun _ _ _ _ => trivial) (fun r _ => by cases r <;> trivial)

/-- A token that was returned is one of a row the call saw, and so is the user
    that came with it. -/
theorem session_row {call : Call} {l : List Ev} {reply : Reply} {token : String}
    {user : Option AuthUser} (hopens : call.opensSession = true)
    (h : credentialPost P call l (.ok reply)) (htoken : sessionOf reply = some (token, user)) :
    ∃ row iat, Saw l row ∧ token = sessionToken P row.id iat ∧
      ∀ v, user = some v → v = toAuthUser row := by
  -- A session carries the token and the user of its row.
  have hsession : ∀ s row, reply = .session s → Saw l row → Names P s row →
      ∃ row iat, Saw l row ∧ token = sessionToken P row.id iat ∧
        ∀ v, user = some v → v = toAuthUser row := by
    rintro s row rfl hsaw ⟨huser, iat, hiat⟩
    rcases Prod.mk.inj (Option.some.inj htoken) with ⟨rfl, rfl⟩
    exact ⟨row, iat, hsaw, hiat, fun v hv => (Option.some.inj hv).symm.trans huser⟩
  cases call with
  | signup email password =>
      rcases h with ⟨s, row, _, hreply, hsaw, hs, _⟩
      exact hsession s row hreply hsaw hs
  | login email password =>
      rcases h with ⟨_, _, herr⟩ | ⟨users, r', ⟨e, he, husers⟩, hr, hans⟩
      · cases herr
      · unfold LoginDecision at hans
        rcases hrow : accountOf P email users with _ | row
        · rw [hrow] at hans
          simp only at hans
          rw [hans] at hr
          cases hr
        · simp only [hrow] at hans
          split at hans
          · rcases hans with ⟨s, rfl, hs⟩
            have hmem : row ∈ users := (List.mem_filter.mp (List.mem_of_head? hrow)).1
            exact hsession s row (Except.ok.inj hr) ⟨e, he, by rw [husers]; exact hmem⟩ hs
          · rw [hans] at hr
            cases hr
  | findOrCreateOAuthUser provider oauthId email verified =>
      rcases h with ⟨s, row, hreply, hsaw, hs⟩
      exact hsession s row hreply hsaw hs
  | googleCallback req =>
      rcases h token user htoken with ⟨s, row, rfl, rfl, hsaw, _, iat, hiat⟩
      exact ⟨row, iat, hsaw, hiat, fun v hv => by cases hv⟩
  | _ => cases hopens

/-- A row is the first one of its key where keys differ. -/
theorem head?_filter_key {α : Type} (key : α → String) {l : List α}
    (h : l.Pairwise (fun a b => key a ≠ key b)) {a : α} (ha : a ∈ l) {x : String}
    (hx : key a = x) : (l.filter (fun b => key b == x)).head? = some a := by
  rcases hf : l.filter (fun b => key b == x) with _ | ⟨b, rest⟩
  · rw [List.filter_eq_nil_iff] at hf
    exact absurd (beq_iff_eq.mpr hx) (hf a ha)
  · have hb : b ∈ l.filter (fun b => key b == x) := by
      rw [hf]
      exact List.mem_cons_self
    rcases List.mem_filter.mp hb with ⟨hmem, hkey⟩
    rw [key_unique h hmem ha ((beq_iff_eq.mp hkey).trans hx.symm)]
    rfl

/-- The constraints of the accounts hold at every moment of a run. -/
theorem read_usersOk (h₀ : UsersOk P.pg w₀.db) (hc : Run (clickScope P) Policy.free w₀ c) {i : Nat}
    {users : List UserRow} (hread : Read (c.state.mine i) users) :
    users.Pairwise (fun a b => a.id ≠ b.id) ∧
      users.Pairwise (fun a b => P.pg.lower a.email ≠ P.pg.lower b.email) := by
  rcases hread with ⟨e, he, rfl⟩
  have hok := run_after (I := fun w => UsersOk P.pg w.db) (fun d hd => ?_) hc e
    (State.mem_mine.mp he).1
  · exact ⟨hok.idUnique, hok.emailUnique⟩
  · refine run_state_in (I := fun st => UsersOk P.pg st.world.db) h₀ ?_ ?_ ?_ hd
    · exact fun _ _ _ _ _ _ _ _ _ _ _ _ h hx => (exec_usersOk h hx).1
    · intro _ e w _ h hw
      rcases env_inv hw with ⟨ms, rfl⟩
      exact h
    · exact fun _ _ _ h => usersOk_congr h rfl (fun _ hid => hid)

/-- The table only grows between two moments of a run. -/
theorem moves_users : Moves (clickScope P) Policy.free w₀
    (fun w w' => w.db.users <+: w'.db.users) where
  refl := fun _ => List.prefix_refl _
  trans := fun _ _ _ h h' => h.trans h'
  exec := by
    intro d i t op k ch r w _ _ _ _ hx
    have hx' : exec P i op ch d.state.world = some (r, w) := hx
    by_cases hop : ∀ u, op ≠ .db (.insertUser u)
    · rw [exec_users hop hx']
    · push Not at hop
      rcases hop with ⟨u, rfl⟩
      rcases exec_db_inv hx' with ⟨db, hdb, rfl⟩
      rcases Db.insertUser_inv hdb with ⟨_, ⟨_, _, _, _, rfl⟩ | ⟨_, _, ⟨ids, _, rfl⟩, _⟩⟩
      · exact List.prefix_append _ _
      · exact List.prefix_refl _
  env := by
    intro d e w _ h
    rcases env_inv h with ⟨ms, rfl⟩
    exact List.prefix_refl _
  reap := fun _ _ _ => List.prefix_refl _

/-- A row that a call saw is in the table from then on. -/
theorem saw_kept (hc : Run (clickScope P) Policy.free w₀ c) {i : Nat} {row : UserRow}
    (h : Saw (c.state.mine i) row) : row ∈ c.state.world.db.users := by
  rcases h with ⟨e, he, hrow⟩
  exact (((run_chained moves_users hc).since e (State.mem_mine.mp he).1).2).subset hrow

/-- A row that a call saw before another started is in the tables that one
    reads. -/
theorem saw_read (hc : Run (clickScope P) Policy.free w₀ c) {i j n : Nat} {t u : Task}
    (ht : c.threads[i]? = some t) (hu : c.threads[j]? = some u) {r : Except Err Reply}
    (hr : t.result = some r) (hended : t.ended = some n) (hborn : n ≤ u.born) {row : UserRow}
    (hsaw : Saw (c.state.mine i) row) {users : List UserRow} (hread : Read (c.state.mine j) users) :
    row ∈ users := by
  rcases hsaw with ⟨e, he, hrow⟩
  rcases hread with ⟨e', he', rfl⟩
  rcases State.mem_mine.mp he with ⟨hlog, _⟩
  rcases State.mem_mine.mp he' with ⟨hlog', htid'⟩
  -- The first event is one before the first call ended, the second one after the other began.
  have hlt : e.seq < n := by
    rcases run_result signIns_sound trivial hc ht hr with
      ⟨_, st₁, _, hend, _, hle, hmine, _⟩
    rw [hended, Option.some.injEq] at hend
    rw [← hmine] at he
    rw [hend]
    exact run_seq_suffix hc _ hle e (State.mem_mine.mp he).1
  have hge := run_born hc j u hu e' hlog' htid'
  exact ((run_chained moves_users hc).between e hlog e' hlog' (by omega)).subset hrow

end Runs

/-- A session token that was returned goes through the bearer middleware as its
    account for as long as it is valid, and the lookup of that account, started
    at any time after, answers with the user the token was returned with. -/
theorem sessions_lead_back (P : Platform) (w₀ : World) (h₀ : UsersOk P.pg w₀.db) (c : Site)
    (hc : Run (clickScope P) Policy.free w₀ c) (i : Nat) (t : Task) (reply : Reply)
    (token : String) (user : Option AuthUser) (n : Nat) (ht : c.threads[i]? = some t)
    (hopens : t.call.opensSession = true) (hr : t.result = some (.ok reply))
    (htoken : sessionOf reply = some (token, user)) (hended : t.ended = some n) :
    ∃ row ∈ c.state.world.db.users, ∃ iat,
      (∀ v, user = some v → v = toAuthUser row) ∧
      (∀ now, requireAuth P now (bearerHeader token) =
        if iat + P.jwtExpiresIn ≤ now then .error (unauthorized "Invalid or expired token")
        else .ok (some (.str row.id))) ∧
      ∀ (j : Nat) (u : Task) (r : Except Err Reply), c.threads[j]? = some u →
        u.call = .getUserById row.id → n ≤ u.born → u.result = some r →
        r = .ok (.account (some (toAuthUser row))) := by
  rcases run_result signIns_sound trivial hc ht hr with ⟨_, st₁, _, _, _, _, hmine, hpost⟩
  rcases session_row hopens hpost htoken with ⟨row, iat, hsaw, rfl, huser⟩
  rw [hmine] at hsaw
  refine ⟨row, saw_kept hc hsaw, iat, huser, fun now => ?_, ?_⟩
  · unfold requireAuth verifyToken sessionToken
    simp only [bearerToken_bearerHeader, verify_issue]
    by_cases hexp : iat + P.jwtExpiresIn ≤ now
    · simp only [if_pos hexp]
    · simp only [if_neg hexp]
      rw [stamped_claim _ _ _ _ (by decide) (by decide)]
      rfl
  · intro j u r hu hcall hborn hur
    rcases run_result signIns_sound trivial hc hu hur with ⟨_, st₂, _, _, _, _, hmine₂, hpost₂⟩
    rw [hcall] at hpost₂
    rcases hpost₂ with ⟨users, hread, rfl⟩
    rw [hmine₂] at hread
    have hmem := saw_read hc ht hu hr hended hborn hsaw hread
    rw [head?_filter_key _ (read_usersOk h₀ hc hread).1 hmem rfl]
    rfl

/-- The signup leaves a row with a hash of its password in the table. A login that
    starts after it returned, with an email the table takes to be the same, opens
    a session of that account if bcrypt accepts its password for the stored hash,
    and is refused if not. -/
theorem login_after_signup (P : Platform) (w₀ : World) (h₀ : UsersOk P.pg w₀.db) (c : Site)
    (hc : Run (clickScope P) Policy.free w₀ c) (i j : Nat) (t u : Task)
    (email password email' password' : String) (s : Session) (r : Except Err Reply) (n : Nat)
    (ht : c.threads[i]? = some t) (hsignup : t.call = .signup email password)
    (hr : t.result = some (.ok (.session s))) (hended : t.ended = some n)
    (hu : c.threads[j]? = some u) (hlogin : u.call = .login email' password')
    (hur : u.result = some r) (hborn : n ≤ u.born) (htext : textOk email' = true)
    (hsame : P.pg.lower email' = P.pg.lower email) :
    ∃ row ∈ c.state.world.db.users, ∃ hash salt, s.user = toAuthUser row ∧
      row.email = email ∧ row.passwordHash = some hash ∧ hash = P.bcrypt.hash password salt ∧
      if P.bcrypt.compare password' hash then
        ∃ iat, r = .ok (.session { user := s.user, token := sessionToken P s.user.id iat })
      else r = .error (.app (unauthorized INVALID_CREDENTIALS_MESSAGE)) := by
  rcases run_result signIns_sound trivial hc ht hr with ⟨_, st₁, _, _, _, _, hmine, hpost⟩
  rcases run_result signIns_sound trivial hc hu hur with ⟨_, st₂, _, _, _, _, hmine₂, hpost₂⟩
  rw [hsignup] at hpost
  rw [hlogin] at hpost₂
  rcases hpost with ⟨s', row, salt, hreply, hsaw, hs, hemail, hhash⟩
  rw [← Reply.session.inj hreply] at hs
  rcases hpost₂ with ⟨hbad, _⟩ | ⟨users, r', hread, rfl, hans⟩
  · rw [htext] at hbad
    cases hbad
  · rw [hmine] at hsaw
    rw [hmine₂] at hread
    -- The login reads the row of the signup, and no other has its email.
    have hmem := saw_read hc ht hu hr hended hborn hsaw hread
    have hrow : accountOf P email' users = some row :=
      head?_filter_key (fun v : UserRow => P.pg.lower v.email) (read_usersOk h₀ hc hread).2
        hmem (by rw [hemail, hsame])
    refine ⟨row, saw_kept hc hsaw, _, salt, hs.1, hemail, hhash, rfl, ?_⟩
    simp only [LoginDecision, hrow, hhash, Option.any_some] at hans
    by_cases hcmp : P.bcrypt.compare password' (P.bcrypt.hash password salt) = true
    · rw [if_pos hcmp] at hans ⊢
      rcases hans with ⟨⟨user₂, token₂⟩, rfl, huser, iat, htoken⟩
      refine ⟨iat, ?_⟩
      simp only at huser htoken
      rw [hs.1, huser, htoken]
      rfl
    · rw [if_neg hcmp] at hans ⊢
      rw [hans]
      rfl

/-- A signup, a login with another password after it, and a lookup. -/
def sampleSessions : List (Action Call EnvStep Choice) :=
  [.spawn (.signup "a@b.c" "password"), .run 0 {}, .run 0 {}, .run 0 { draw := "1" }, .run 0 {},
    .env (.tick 2000), .spawn (.login "a@b.c" "passwort"), .spawn (.getUserById "1"), .run 1 {},
    .run 2 {}, .run 1 {}]

/-- Thread 0 is a signup that returned, and thread 1 a login that was refused
    after it. -/
def refusedAfterSignup (c : Site) : Bool :=
  match c.threads[0]?, c.threads[1]? with
  | some t, some u =>
      (match t.call, t.result with
        | .signup email password, some (.ok (.session _)) =>
            decide (email = "a@b.c") && decide (password = "password")
        | _, _ => false) &&
      decide (t.ended = some 4) && decide (u.born = 4) &&
      (match u.call, u.result with
        | .login email password, some (.error _) =>
            decide (email = "a@b.c") && decide (password = "passwort")
        | _, _ => false)
  | _, _ => false

theorem sampleSessions_run : ∃ (c : Site) (t u : Task) (s : Session) (e : Err),
    Run (clickScope samplePlatform) Policy.free emptyWorld c ∧
    c.threads[0]? = some t ∧ t.call = .signup "a@b.c" "password" ∧
    t.result = some (.ok (.session s)) ∧ t.ended = some 4 ∧ c.threads[1]? = some u ∧
    u.call = .login "a@b.c" "passwort" ∧ u.result = some (.error e) ∧ u.born = 4 := by
  have hrun := exists_run (clickScope samplePlatform) emptyWorld sampleSessions refusedAfterSignup
    (by decide)
  rcases hrun with ⟨c, hc, htest⟩
  unfold refusedAfterSignup at htest
  split at htest
  · rename_i t u ht hu
    simp only [Bool.and_eq_true, decide_eq_true_eq] at htest
    rcases htest with ⟨⟨⟨h₁, hended⟩, hborn⟩, h₂⟩
    split at h₁
    · rename_i email password s hcall hr
      split at h₂
      · rename_i email' password' e hcall' hr'
        simp only [Bool.and_eq_true, decide_eq_true_eq] at h₁ h₂
        exact ⟨c, t, u, s, e, hc, ht, by rw [hcall, h₁.1, h₁.2], hr, hended, hu,
          by rw [hcall', h₂.1, h₂.2], hr', hborn⟩
      · cases h₂
    · cases h₁
  · cases htest

/-- The token of the sample signup. -/
theorem sessions_lead_back_signup : ∃ (c : Site) (t : Task) (s : Session),
    Run (clickScope samplePlatform) Policy.free emptyWorld c ∧ c.threads[0]? = some t ∧
    t.result = some (.ok (.session s)) ∧
    ∃ row ∈ c.state.world.db.users, ∃ iat,
      (∀ v, some s.user = some v → v = toAuthUser row) ∧
      (∀ now, requireAuth samplePlatform now (bearerHeader s.token) =
        if iat + samplePlatform.jwtExpiresIn ≤ now then
          .error (unauthorized "Invalid or expired token")
        else .ok (some (.str row.id))) ∧
      ∀ (j : Nat) (u : Task) (r : Except Err Reply), c.threads[j]? = some u →
        u.call = .getUserById row.id → 4 ≤ u.born → u.result = some r →
        r = .ok (.account (some (toAuthUser row))) := by
  rcases sampleSessions_run with ⟨c, t, u, s, e, hc, ht, hcall, hr, hended, _⟩
  exact ⟨c, t, s, hc, ht, hr, sessions_lead_back samplePlatform emptyWorld (usersOk_empty _) c hc 0
    t (.session s) s.token (some s.user) 4 ht (by rw [hcall]; rfl) hr rfl hended⟩

/-- The login with another password. -/
theorem login_after_signup_refused : ∃ (c : Site) (s : Session) (r : Except Err Reply),
    Run (clickScope samplePlatform) Policy.free emptyWorld c ∧
    samplePlatform.bcrypt.compare "passwort" (samplePlatform.bcrypt.hash "password" "") = false ∧
    ∃ row ∈ c.state.world.db.users, ∃ hash salt, s.user = toAuthUser row ∧
      row.email = "a@b.c" ∧ row.passwordHash = some hash ∧
      hash = samplePlatform.bcrypt.hash "password" salt ∧
      if samplePlatform.bcrypt.compare "passwort" hash then
        ∃ iat, r = .ok (.session { user := s.user,
                                   token := sessionToken samplePlatform s.user.id iat })
      else r = .error (.app (unauthorized INVALID_CREDENTIALS_MESSAGE)) := by
  rcases sampleSessions_run with ⟨c, t, u, s, e, hc, ht, hcall, hr, hended, hu, hlogin, hur, hborn⟩
  exact ⟨c, s, .error e, hc, by decide, login_after_signup samplePlatform emptyWorld
    (usersOk_empty _) c hc 0 1 t u "a@b.c" "password" "a@b.c" "passwort" s (.error e) 4 ht hcall hr
    hended hu hlogin hur (by omega) (by decide) rfl⟩

end ClickScope
