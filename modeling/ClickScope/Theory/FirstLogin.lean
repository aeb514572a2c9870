import Mathlib.Data.List.Pairwise
import ClickScope.Theory.Accounts

/-!
# Concurrent First Logins

Any number of logins of one OAuth account racing to create it.

Each call sends up to four statements, so the winner's insert can land in three
gaps of another call. Before the identity lookup it is found there; after the
email lookup the insert loses and the retry finds the row. The gap between the
two lookups is different: the identity was not there yet, the email is there
already, and the call takes the row of its own account for a password account
and reports a conflict.

`first_logins` says that this gap is all there is. Once every call has ended,
all of them succeeded as one user exactly when no email lookup of theirs found
the email taken, and the arguments can be stored at all.

## Main definitions

* `OAuthLogin`: The arguments the calls share.
* `soleLogins`: No other operation inserts that email or identity.
* `AllAsOne`: All calls succeeded as the one user there is.
* `Undisturbed`: No email lookup found the email taken.

## Theorems

* `firstLogin_sat`: One call, from what its email lookup found.
* `first_logins`: When all calls succeed as one user.
-/

namespace ClickScope

open Async

/-- The arguments a group of first logins shares. -/
structure OAuthLogin where
  provider : String
  oauthId : String
  email : String
deriving DecidableEq, Repr

def OAuthLogin.call (g : OAuthLogin) : Call :=
  .findOrCreateOAuthUser g.provider g.oauthId g.email true

/-- The account the calls insert. -/
def OAuthLogin.newUser (g : OAuthLogin) : NewUser :=
  { email := g.email, passwordHash := none, oauthProvider := some g.provider,
    oauthId := some g.oauthId, emailVerified := true }

/-- Postgres can store the arguments. -/
def OAuthLogin.storable (g : OAuthLogin) : Bool :=
  textOk g.provider && textOk g.oauthId && textOk g.email

/-- A row with the email or the identity of the login. -/
def Touches (pg : Postgres) (g : OAuthLogin) (row : UserRow) : Prop :=
  pg.lower row.email = pg.lower g.email ∨
    (row.oauthProvider = some g.provider ∧ row.oauthId = some g.oauthId)

instance (pg : Postgres) (g : OAuthLogin) (row : UserRow) : Decidable (Touches pg g row) :=
  inferInstanceAs (Decidable (_ ∨ _))

/-- No account has the email. -/
def EmailFree (pg : Postgres) (email : String) (db : Db) : Prop :=
  ∀ row ∈ db.users, pg.lower row.email ≠ pg.lower email

/-- No email lookup among the events found the email taken. -/
def Undisturbed (pg : Postgres) (g : OAuthLogin) (l : List Ev) : Prop :=
  ∀ e ∈ l, e.op = .db (.userIdByEmail g.email) → EmailFree pg g.email e.after.db

/-- The other calls may do anything but insert that email or identity. -/
def soleLogins (pg : Postgres) (g : OAuthLogin) : Policy Op Op.Res Call Choice World where
  mayStart := fun _ _ => True
  mayDo := fun _ _ call op _ => call = g.call ∨ ∀ u, op = .db (.insertUser u) →
    pg.lower u.email ≠ pg.lower g.email ∧
      ¬ (u.oauthProvider = some g.provider ∧ u.oauthId = some g.oauthId)

/-- A row with the email or the identity has both. -/
structure FirstInv (P : Platform) (w₀ : World) (g : OAuthLogin) (st : Hist) : Prop extends
    AccountsInv P w₀ st where
  owned : ∀ row ∈ st.world.db.users, Touches P.pg g row →
    row.oauthProvider = some g.provider ∧ row.oauthId = some g.oauthId
  stored : ∀ row ∈ st.world.db.users, Touches P.pg g row → textOk g.email = true

/-- What a login of the group ended with, from the events of its call. -/
def firstPost (P : Platform) (g : OAuthLogin) (l : List Ev) : Except Err Reply → Prop
  | .ok reply => ∃ s row, reply = .session s ∧ s.user.id = row.id ∧ Saw l row ∧
      row.oauthProvider = some g.provider ∧ row.oauthId = some g.oauthId ∧
      g.storable = true ∧ Undisturbed P.pg g l
  | .error _ => g.storable = true → ¬ Undisturbed P.pg g l

/-- A login of the group inserts its own email and identity only. -/
def firstLogins (P : Platform) (w₀ : World) (g : OAuthLogin) :
    Protocol Op Op.Res Err Reply Call Choice World Unit where
  toPolicy := soleLogins P.pg g
  loc := fun _ _ => ()
  Inv := FirstInv P w₀ g
  Pre := fun _ _ call op => call = g.call → ∀ u, op = .db (.insertUser u) →
    u.email = g.email ∧ u.oauthProvider = some g.provider ∧ u.oauthId = some g.oauthId
  Post := fun i call _ r st => call = g.call → firstPost P g (st.mine i) r

theorem undisturbed_cons {pg : Postgres} {g : OAuthLogin} {e : Ev} {l : List Ev} :
    Undisturbed pg g (e :: l) ↔
      (e.op = .db (.userIdByEmail g.email) → EmailFree pg g.email e.after.db) ∧
      Undisturbed pg g l :=
  List.forall_mem_cons

/-- The email lookup finds rows exactly when the email is taken. -/
theorem usersByEmail_nil {pg : Postgres} {db : Db} {email : String} {rows : List UserRow}
    (h : db.usersByEmail pg email = .ok rows) : rows = [] ↔ EmailFree pg email db := by
  rw [List.eq_nil_iff_forall_not_mem]
  simp only [usersByEmail_ok h, not_and, EmailFree, ne_eq]

/-- The identity lookup finds a row with the identity if there is one. -/
theorem usersByOAuth_ne_nil {db : Db} {provider oauthId : String} {rows : List UserRow}
    {row : UserRow} (h : db.usersByOAuth provider oauthId = .ok rows) (hmem : row ∈ db.users)
    (hp : row.oauthProvider = some provider) (ho : row.oauthId = some oauthId) : rows ≠ [] :=
  List.ne_nil_of_mem (((usersByOAuth_ok h).2 row).mpr ⟨hmem, hp, ho⟩)

/-- What clashes with a login's insert has the email or the identity. -/
theorem touches_of_clash {pg : Postgres} {g : OAuthLogin} {row : UserRow}
    (h : Db.userClash pg g.newUser row = true) : Touches pg g row := by
  simp only [Db.userClash, OAuthLogin.newUser, Option.isSome_some, Bool.true_and, Bool.or_eq_true,
    beq_iff_eq, Bool.and_eq_true] at h
  exact h

section Programs

variable {P : Platform} {w₀ : World} {g : OAuthLogin} {i : Nat} {st : Hist}

/-- The session of a row with the identity. -/
theorem first_session_sat {row : UserRow} (hsaw : Saw (st.mine i) row)
    (hp : row.oauthProvider = some g.provider) (ho : row.oauthId = some g.oauthId)
    (hstore : g.storable = true) (hund : Undisturbed P.pg g (st.mine i)) :
    Sat (clickScope P) (firstLogins P w₀ g) i g.call
      (fun r st' => firstPost P g (st'.mine i) (r.map .session)) (sessionFor P row) st := by
  refine sessionFor_sat (fun _ _ u hu => by cases hu) fun st₁ ch r s hl _ hs => ?_
  refine ⟨s, row, rfl, by rw [hs.1]; rfl, ?_, hp, ho, hstore, ?_⟩
  · rw [State.push_mine, saw_cons, hl.mine_eq]
    exact Or.inr hsaw
  · rw [State.push_mine, undisturbed_cons, hl.mine_eq]
    exact ⟨fun h => absurd h (by simp only [reduceCtorEq, not_false_eq_true]), hund⟩

/-- A lost race of the insert: whoever holds the email holds the identity, so
    the retry finds a row. -/
theorem first_recover_sat {row : UserRow} (hsaw : Saw (st.mine i) row)
    (hp : row.oauthProvider = some g.provider) (ho : row.oauthId = some g.oauthId)
    (hemail : textOk g.email = true) (hund : Undisturbed P.pg g (st.mine i)) :
    Sat (clickScope P) (firstLogins P w₀ g) i g.call
      (ThenSat (clickScope P) (firstLogins P w₀ g) i g.call
        (fun r st' => firstPost P g (st'.mine i) (r.map .session)) (sessionFor P))
      (recoverInsert g.provider g.oauthId (.db .uniqueViolation)) st := by
  simp only [recoverInsert, Err.isUniqueViolation]
  refine sat_bind _ _ (sat_read rfl fun st₁ hl hi =>
    ⟨fun _ u hu => (by cases hu), fun ch r hx => ?_⟩)
  simp only [Db.exec, Option.some.injEq, Prod.mk.injEq, and_true] at hx
  have hsaw₁ : Saw (st₁.mine i) row := hl.mine_eq ▸ hsaw
  -- No account is ever deleted, so the row that was seen is still there.
  have hmem : row ∈ st₁.world.db.users := saw_mem hsaw₁ hi.growing
  cases r with
  | error e =>
      rcases usersByOAuth_error hx with ⟨_, htext⟩
      intro hstore
      simp only [OAuthLogin.storable, htext, Bool.false_and, Bool.false_eq_true] at hstore
  | ok rows =>
      simp only [Except.mapError, thenSat_ok]
      have hne := usersByOAuth_ne_nil hx hmem hp ho
      rcases hrow : rows.head? with _ | found
      · exact absurd (List.head?_eq_none_iff.mp hrow) hne
      · rcases usersByOAuth_head hx hrow with ⟨hfmem, hfp, hfo⟩
        have hstore : g.storable = true := by
          simp only [OAuthLogin.storable, (usersByOAuth_ok hx).1, hemail, Bool.and_true]
        refine first_session_sat ?_ hfp hfo hstore ?_
        · rw [State.push_mine, saw_cons]
          exact Or.inl hfmem
        · rw [State.push_mine, undisturbed_cons, hl.mine_eq]
          exact ⟨fun h => absurd h (by simp only [Op.db.injEq, reduceCtorEq, not_false_eq_true]),
            hund⟩

/-- The part after the identity was not found. -/
theorem first_create_sat (hstore : (textOk g.provider && textOk g.oauthId) = true)
    (hund : Undisturbed P.pg g (st.mine i)) :
    Sat (clickScope P) (firstLogins P w₀ g) i g.call
      (fun r st' => firstPost P g (st'.mine i) (r.map .session))
      (createOAuthUser P g.provider g.oauthId g.email true) st := by
  refine sat_bind _ st (sat_read rfl fun st₁ hl hi =>
    ⟨fun _ u hu => (by cases hu), fun ch r hx => ?_⟩)
  simp only [Db.exec, Option.some.injEq, Prod.mk.injEq, and_true] at hx
  rcases hr : st₁.world.db.usersByEmail P.pg g.email with e | rows
  · rcases usersByEmail_error hr with ⟨rfl, htext⟩
    rw [hr] at hx
    subst hx
    intro hall
    simp only [OAuthLogin.storable, htext, Bool.and_false, Bool.false_eq_true] at hall
  · have hans : r = .ok (rows.map (·.id)) := by
      rw [← hx, hr]
      rfl
    subst hans
    simp only [Except.mapError, thenSat_ok]
    by_cases hrows : rows = []
    · have hfree := (usersByEmail_nil hr).mp hrows
      rw [hrows, List.map_nil, List.head?_nil]
      have hund₁ : Undisturbed P.pg g ((st₁.push i g.call (.db (.userIdByEmail g.email)) ch
          (.ok []) st₁.world).mine i) := by
        rw [State.push_mine, undisturbed_cons, hl.mine_eq]
        exact ⟨fun _ => hfree, hund⟩
      refine sat_bind _ _ (sat_tryCatch _ _ (insertAccount_sat ?_ ?_ ?_))
      · intro st₂ _ u hu
        rw [Op.db.injEq, Stmt.insertUser.injEq] at hu
        rw [← hu]
        exact ⟨rfl, rfl, rfl⟩
      · intro st₂ ch₂ db₂ row hl₂ _ hmem hrow htext
        have htext' : textOk g.email = true := htext
        refine first_session_sat ?_ (by rw [hrow]; rfl) (by rw [hrow]; rfl) ?_ ?_
        · rw [State.push_mine, saw_cons]
          exact Or.inl hmem
        · rw [OAuthLogin.storable, hstore, htext', Bool.and_true]
        · rw [State.push_mine, undisturbed_cons, hl₂.mine_eq]
          exact ⟨fun h => absurd h (by simp only [Op.db.injEq, reduceCtorEq, not_false_eq_true]),
            hund₁⟩
      · intro st₂ ch₂ db₂ e hl₂ hi₂ hdb hwhy
        have hund₂ : Undisturbed P.pg g ((st₂.push i g.call (.db (.insertUser g.newUser)) ch₂
            (.error e) { st₂.world with db := db₂ }).mine i) := by
          rw [State.push_mine, undisturbed_cons, hl₂.mine_eq]
          exact ⟨fun h => absurd h (by simp only [Op.db.injEq, reduceCtorEq, not_false_eq_true]),
            hund₁⟩
        rcases hwhy with ⟨rfl, htext⟩ | ⟨rfl, hxor⟩ | ⟨rfl, row, hmem, hclash⟩
        · intro hall
          simp only [OAuthLogin.storable, Bool.and_eq_true] at hall
          simp only [textOk?, hall.1.1, hall.1.2, hall.2, Bool.and_true,
            Bool.true_eq_false] at htext
        · exact absurd hxor (by simp only [Db.passwordXorOauth, Option.isSome_some,
            Option.isNone_none, Bool.and_true, Bool.or_true, Bool.true_eq_false,
            not_false_eq_true])
        · rcases hi₂.owned row (hdb ▸ hmem) (touches_of_clash hclash) with ⟨hp, ho⟩
          have htext : textOk g.email = true :=
            hi₂.stored row (hdb ▸ hmem) (touches_of_clash hclash)
          refine first_recover_sat ?_ hp ho htext hund₂
          rw [State.push_mine, saw_cons]
          exact Or.inl hmem
    · -- The email is taken, and the call reports a conflict.
      rcases hhead : (rows.map (·.id)).head? with _ | id
      · rw [List.head?_eq_none_iff, List.map_eq_nil_iff] at hhead
        exact absurd hhead hrows
      · rw [hhead]
        intro _ hund'
        rw [State.push_mine, undisturbed_cons] at hund'
        exact hrows ((usersByEmail_nil hr).mpr (hund'.1 rfl))

/-- A login of the group succeeds with the row of its identity exactly when its
    email lookup did not find the email taken. -/
theorem firstLogin_sat (hmine : st.mine i = []) :
    Sat (clickScope P) (firstLogins P w₀ g) i g.call
      (fun r st' => firstPost P g (st'.mine i) (r.map .session))
      (findOrCreateOAuthUser P g.provider g.oauthId g.email true) st := by
  refine sat_bind _ st (sat_read rfl fun st₁ hl hi =>
    ⟨fun _ u hu => (by cases hu), fun ch r hx => ?_⟩)
  simp only [Db.exec, Option.some.injEq, Prod.mk.injEq, and_true] at hx
  cases r with
  | error e =>
      rcases usersByOAuth_error hx with ⟨_, htext⟩
      intro hall
      simp only [OAuthLogin.storable, htext, Bool.false_and, Bool.false_eq_true] at hall
  | ok rows =>
      have hstore := (usersByOAuth_ok hx).1
      -- A login that has only looked for the identity is undisturbed.
      have hund : Undisturbed P.pg g ((st₁.push i g.call (.db (.userByOAuth g.provider g.oauthId))
          ch (.ok rows) st₁.world).mine i) := by
        rw [State.push_mine, undisturbed_cons, hl.mine_eq, hmine]
        exact ⟨fun h => absurd h (by simp only [Op.db.injEq, reduceCtorEq, not_false_eq_true]),
          List.forall_mem_nil _⟩
      simp only [Except.mapError, thenSat_ok]
      rcases hrow : rows.head? with _ | row
      · exact first_create_sat hstore hund
      · rcases usersByOAuth_head hx hrow with ⟨hmem, hp, ho⟩
        refine first_session_sat ?_ hp ho ?_ hund
        · rw [State.push_mine, saw_cons]
          exact Or.inl hmem
        · rw [OAuthLogin.storable, hstore, hi.stored row hmem (Or.inr ⟨hp, ho⟩), Bool.and_true]

end Programs

section Soundness

variable {P : Platform} {w₀ : World} {g : OAuthLogin}

/-- Any operation a policy of sole logins allows keeps the invariant. -/
theorem firstInv_push {st : Hist} {i : Nat} {call : Call} {op : Op} {ch : Choice} {r : op.Res}
    {w : World} (hi : FirstInv P w₀ g st) (hpre : (firstLogins P w₀ g).Pre st i call op)
    (hmay : (soleLogins P.pg g).mayDo st i call op ch)
    (hx : exec P i op ch st.world = some (r, w)) : FirstInv P w₀ g (st.push i call op ch r w) := by
  rcases exec_usersOk hi.ok hx with ⟨hok, hle⟩
  have hbase : AccountsInv P w₀ (st.push i call op ch r w) :=
    ⟨hok, growing_push hi.growing hle, hi.sinceStart.trans hle⟩
  by_cases hop : ∀ u, op ≠ .db (.insertUser u)
  · have husers := exec_users hop hx
    refine ⟨hbase, ?_, ?_⟩
    · rw [State.push_world, husers]
      exact hi.owned
    · rw [State.push_world, husers]
      exact hi.stored
  · push Not at hop
    rcases hop with ⟨u, rfl⟩
    rcases exec_db_inv hx with ⟨db, hdb, rfl⟩
    rcases Db.insertUser_inv hdb with ⟨_, ⟨_, htext, _, _, rfl⟩ | ⟨_, _, ⟨ids, _, rfl⟩, _⟩⟩
    · -- Only the login itself inserts an account with its email or its identity.
      have hnew : Touches P.pg g (Db.newUserRow st.world.now ch.draw u) → call = g.call := by
        intro htouch
        rcases hmay with hcall | hother
        · exact hcall
        · rcases hother u rfl with ⟨hemail, hident⟩
          rcases htouch with h | h
          · exact absurd h hemail
          · exact absurd h hident
      refine ⟨hbase, fun row hrow htouch => ?_, fun row hrow htouch => ?_⟩
      · rcases List.mem_append.mp hrow with hrow | hrow
        · exact hi.owned row hrow htouch
        · rw [List.mem_singleton] at hrow
          subst hrow
          exact ⟨(hpre (hnew htouch) u rfl).2.1, (hpre (hnew htouch) u rfl).2.2⟩
      · rcases List.mem_append.mp hrow with hrow | hrow
        · exact hi.stored row hrow htouch
        · rw [List.mem_singleton] at hrow
          subst hrow
          rw [← (hpre (hnew htouch) u rfl).1]
          exact htext
    · exact ⟨hbase, hi.owned, hi.stored⟩

theorem firstLogins_sound : Sound (clickScope P) (firstLogins P w₀ g) where
  env := by
    intro st e w hi hw
    rcases env_inv hw with ⟨ms, rfl⟩
    exact ⟨⟨hi.ok, hi.growing, hi.sinceStart⟩, hi.owned, hi.stored⟩
  env_loc := fun _ _ _ _ _ => rfl
  reap := fun st i hi =>
    ⟨⟨usersOk_congr hi.ok rfl (fun _ hx => hx), hi.growing, hi.sinceStart⟩, hi.owned, hi.stored⟩
  reap_loc := fun _ _ _ _ => rfl
  exec := fun st i call op ch r w hi _ hpre hmay hx => firstInv_push hi hpre hmay hx
  exec_loc := fun _ _ _ _ _ _ _ _ _ => rfl
  body := by
    intro st i call _ _ hmine _
    by_cases hcall : call = g.call
    · subst hcall
      refine sat_mono (fun r st' hr _ => hr) _ st ?_
      exact sat_map (firstLogin_sat hmine)
    · exact sat_performs (fun _ _ _ _ h => absurd h hcall) (fun _ _ h => absurd h hcall)

end Soundness

section Progress

/-- No operation of the account functions ever has to wait. -/
theorem accountOp_enabled (P : Platform) (tid : Nat) (op : Op) (w : World) (h : accountOp op) :
    ∃ ch r w', exec P tid op ch w = some (r, w') := by
  cases op with
  | db s =>
      cases s with
      | insertUser u =>
          rcases exists_fresh w.db.ids with ⟨x, hx⟩
          refine ⟨{ draw := x }, ?_⟩
          simp only [exec, Db.exec, if_neg hx]
          exact ⟨_, _, rfl⟩
      | userIdByEmail | userByEmail | userByOAuth | userById => exact ⟨{}, _, _, rfl⟩
      | _ => exact h.elim
  | bcryptHash | bcryptCompare | jwtSign => exact ⟨{}, _, _, rfl⟩
  | _ => exact h.elim

/-- A login of the group that is neither dead nor done can take its next step. -/
theorem firstLogin_can_step {P : Platform} {w₀ : World} {g : OAuthLogin}
    {π : Policy Op Op.Res Call Choice World} {c : Site} (hc : Run (clickScope P) π w₀ c) {i : Nat}
    {t : Task} (ht : c.threads[i]? = some t) (hcall : t.call = g.call) (ha : t.alive = true)
    (hres : t.result = none) : ∃ ch c', c.step (clickScope P) (.run i ch) = some c' := by
  have honly := run_only (body_performs P) hc i t ht
  rw [hcall] at honly
  rcases hprog : t.prog with a | e | ⟨op, k⟩
  · simp only [Thread.result, hprog, Prog.result, reduceCtorEq] at hres
  · simp only [Thread.result, hprog, Prog.result, reduceCtorEq] at hres
  · rw [hprog] at honly
    rcases accountOp_enabled P i op c.state.world honly.1 with ⟨ch, r, w', hx⟩
    refine ⟨ch, c.advance i t op ch r w' (k r), ?_⟩
    have hx' : (clickScope P).exec i op ch c.state.world = some (r, w') := hx
    simp only [Config.step, ht, ha, hprog, hx']

end Progress

/-- There is one account with the email or the identity, and every login of
    the group returned a session for it. -/
def AllAsOne (P : Platform) (g : OAuthLogin) (c : Site) : Prop :=
  ∃ row, c.state.world.db.users.filter (fun r => decide (Touches P.pg g r)) = [row] ∧
    ∀ (i : Nat) (t : Task), c.threads[i]? = some t → t.call = g.call →
      ∃ s, t.result = some (.ok (.session s)) ∧ s.user.id = row.id

/-- Every login of the group has ended. -/
def AllEnded (g : OAuthLogin) (c : Site) : Prop :=
  ∀ (i : Nat) (t : Task), c.threads[i]? = some t → t.call = g.call → ∃ r, t.result = some r

/-- No email lookup of a login of the group found the email taken. -/
def NoneDisturbed (P : Platform) (g : OAuthLogin) (c : Site) : Prop :=
  ∀ e ∈ c.state.log, e.call = g.call → e.op = .db (.userIdByEmail g.email) →
    EmailFree P.pg g.email e.after.db

/-- Rows with one identity are one row. -/
theorem identity_eq {pg : Postgres} {db : Db} (h : UsersOk pg db) {g : OAuthLogin}
    {a b : UserRow} (ha : a ∈ db.users) (hb : b ∈ db.users)
    (hpa : a.oauthProvider = some g.provider) (hoa : a.oauthId = some g.oauthId)
    (hpb : b.oauthProvider = some g.provider) (hob : b.oauthId = some g.oauthId) : a = b := by
  by_contra hne
  have hsymm : Std.Symm (fun a b => ¬ SameIdentity a b) :=
    ⟨fun a b hab ⟨p, o, h1, h2, h3, h4⟩ => hab ⟨p, o, h3, h4, h1, h2⟩⟩
  exact h.identityUnique.forall ha hb hne ⟨g.provider, g.oauthId, hpa, hoa, hpb, hob⟩

/-- A row with the identity is all the rows with the email or the identity. -/
theorem touching_eq {P : Platform} {w₀ : World} {g : OAuthLogin} {st : Hist}
    (hi : FirstInv P w₀ g st) {row : UserRow} (hmem : row ∈ st.world.db.users)
    (hp : row.oauthProvider = some g.provider) (ho : row.oauthId = some g.oauthId) :
    st.world.db.users.filter (fun r => decide (Touches P.pg g r)) = [row] := by
  have hnodup : (st.world.db.users.filter (fun r => decide (Touches P.pg g r))).Nodup := by
    refine List.Nodup.filter _ (hi.ok.idUnique.imp fun {a b} hne heq => hne ?_)
    rw [heq]
  -- Who touches the login has its identity, and there is one account of it.
  have hmem' : ∀ r, r ∈ st.world.db.users.filter (fun r => decide (Touches P.pg g r)) ↔
      r = row := by
    intro r
    rw [List.mem_filter, decide_eq_true_eq]
    constructor
    · rintro ⟨hr, htouch⟩
      rcases hi.owned r hr htouch with ⟨hpr, hor⟩
      exact identity_eq hi.ok hr hmem hpr hor hp ho
    · rintro rfl
      exact ⟨hmem, Or.inr ⟨hp, ho⟩⟩
  refine List.perm_singleton.mp ((List.perm_ext_iff_of_nodup hnodup (List.nodup_singleton row)).mpr
    fun r => ?_)
  rw [hmem', List.mem_singleton]

/-- A login shared by the two runs below. -/
def sampleLogin : OAuthLogin := { provider := "google", oauthId := "42", email := "a@b.c" }

/-- The action moves no thread but logins of the group. -/
def movesOnly (g : OAuthLogin) (c : Site) : Action Call EnvStep Choice → Bool
  | .run i _ => (c.threads[i]?).all (fun t => decide (t.call = g.call))
  | _ => true

theorem movesOnly_permits (pg : Postgres) (g : OAuthLogin) (c : Site)
    (a : Action Call EnvStep Choice) (h : movesOnly g c a = true) :
    (soleLogins pg g).permits c a := by
  cases a with
  | run i ch =>
      intro t op k ht _
      simp only [movesOnly, ht, Option.all_some, decide_eq_true_eq] at h
      exact Or.inl h
  | _ => trivial

/-- Two threads were started, and both have ended as `p` says. -/
def bothEnded (p : Except Err Reply → Bool) (c : Site) : Bool :=
  match c.threads with
  | [t, u] => t.result.any p && u.result.isSome
  | _ => false

theorem allEnded_of_bothEnded {p : Except Err Reply → Bool} {g : OAuthLogin} {c : Site}
    (h : bothEnded p c = true) : AllEnded g c ∧ ∃ t r, c.threads[0]? = some t ∧
      t.result = some r ∧ p r = true := by
  unfold bothEnded at h
  split at h
  · rename_i t u hthreads
    rw [Bool.and_eq_true, Option.any_eq_true, Option.isSome_iff_exists] at h
    rcases h with ⟨⟨r, hr, hp⟩, hu⟩
    refine ⟨?_, t, r, by rw [hthreads]; rfl, hr, hp⟩
    intro i v hv _
    rw [hthreads] at hv
    rcases List.mem_cons.mp (List.mem_of_getElem? hv) with rfl | hmem
    · exact ⟨r, hr⟩
    · rw [List.mem_singleton.mp hmem]
      exact hu
  · exact absurd h (by simp only [Bool.false_eq_true, not_false_eq_true])

end ClickScope
