import ClickScope.Theory.Rules

/-!
# No Account Is Taken Over

Signups, logins and OAuth logins racing each other, with arbitrary arguments.

The table protects itself: Postgres enforces the unique indexes and the check
constraint on every insert, and no statement updates or deletes an account, so
the table only grows at its end. What has to be proved of the programs is what
they do with it: which row the token they return names, and what they throw
when an insert lost a race.

A program learns about rows in one statement and uses them in a later one. What
carries over is that rows stay: the history keeps the table as every operation
left it, and all of those are initial segments of the table now.

Not every throw is an `AppError`. Postgres refuses text with the NUL character,
and nothing between the arguments and the first statement checks for it.

## Main definitions

* `UsersOk`: The constraints of the accounts table.
* `Growing`: Every earlier table is an initial segment of the current one.
* `Refused`: The errors a call may throw.
* `accountPost`: What the three account functions promise.

## Theorems

* `usersOk_insert`: An accepted insert keeps the constraints.
* `signup_sat`, `login_sat`, `findOrCreateOAuthUser_sat`: One function each.
* `no_takeover`: The promises, for every interleaving.
-/

namespace ClickScope

open Async

/-- Two rows carry the same OAuth identity. -/
def SameIdentity (a b : UserRow) : Prop :=
  ∃ p o, a.oauthProvider = some p ∧ a.oauthId = some o ∧ b.oauthProvider = some p ∧
    b.oauthId = some o

/-- A row has a password hash or an OAuth identity, and not both. -/
def OneMethod (u : UserRow) : Prop :=
  (u.passwordHash.isSome ∧ u.oauthProvider = none ∧ u.oauthId = none) ∨
    (u.passwordHash = none ∧ u.oauthProvider.isSome ∧ u.oauthId.isSome)

/-- The constraints of the accounts table. -/
structure UsersOk (pg : Postgres) (db : Db) : Prop where
  drawn : ∀ u ∈ db.users, u.id ∈ db.ids
  idUnique : db.users.Pairwise (fun a b => a.id ≠ b.id)
  emailUnique : db.users.Pairwise (fun a b => pg.lower a.email ≠ pg.lower b.email)
  identityUnique : db.users.Pairwise (fun a b => ¬ SameIdentity a b)
  oneMethod : ∀ u ∈ db.users, OneMethod u

section Table

variable {pg : Postgres} {db : Db}

/-- A new row of an accepted insert has exactly one method. -/
theorem oneMethod_newUserRow {now : Nat} {id : String} {u : NewUser}
    (h : Db.passwordXorOauth u = true) : OneMethod (Db.newUserRow now id u) := by
  simp only [Db.passwordXorOauth, Bool.or_eq_true, Bool.and_eq_true,
    Option.isNone_iff_eq_none] at h
  unfold OneMethod Db.newUserRow
  rcases h with ⟨⟨h1, h2⟩, h3⟩ | ⟨⟨h1, h2⟩, h3⟩
  · exact Or.inl ⟨h1, h2, h3⟩
  · exact Or.inr ⟨h1, h2, h3⟩

/-- A row that does not clash with a new one differs from it in both indexes. -/
theorem no_clash {now : Nat} {id : String} {u : NewUser} {row : UserRow}
    (h : Db.userClash pg u row = false) :
    pg.lower row.email ≠ pg.lower (Db.newUserRow now id u).email ∧
      ¬ SameIdentity row (Db.newUserRow now id u) := by
  simp only [Db.userClash, Bool.or_eq_false_iff, beq_eq_false_iff_ne, Bool.and_eq_false_iff] at h
  refine ⟨h.1, ?_⟩
  rintro ⟨p, o, h1, h2, h3, h4⟩
  have h3' : u.oauthProvider = some p := h3
  have h4' : u.oauthId = some o := h4
  rcases h.2 with ((hc | hc) | hc) | hc
  · rw [h3', Option.isSome_some] at hc
    exact Bool.noConfusion hc
  · rw [h4', Option.isSome_some] at hc
    exact Bool.noConfusion hc
  · exact hc (by rw [h1, h3'])
  · exact hc (by rw [h2, h4'])

/-- An accepted insert keeps the constraints. -/
theorem usersOk_insert {now : Nat} {id : String} {u : NewUser} (h : UsersOk pg db)
    (hfresh : id ∉ db.ids) (hxor : Db.passwordXorOauth u = true)
    (hclash : ∀ row ∈ db.users, Db.userClash pg u row = false) :
    UsersOk pg { db with ids := id :: db.ids,
                         users := db.users ++ [Db.newUserRow now id u] } := by
  -- What holds between any two accounts holds of the new one and every other.
  have hnew : ∀ (R : UserRow → UserRow → Prop), db.users.Pairwise R →
      (∀ row ∈ db.users, R row (Db.newUserRow now id u)) →
      (db.users ++ [Db.newUserRow now id u]).Pairwise R := by
    intro R hR hlast
    rw [List.pairwise_append]
    refine ⟨hR, List.pairwise_singleton _ _, fun a ha b hb => ?_⟩
    rw [List.mem_singleton] at hb
    rw [hb]
    exact hlast a ha
  refine ⟨?_, hnew _ h.idUnique ?_, hnew _ h.emailUnique ?_, hnew _ h.identityUnique ?_, ?_⟩
  · intro v hv
    rcases List.mem_append.mp hv with hv | hv
    · exact List.mem_cons_of_mem _ (h.drawn v hv)
    · rw [List.mem_singleton.mp hv]
      exact List.mem_cons_self
  · intro row hrow hid
    -- The id was drawn now, and the others before.
    have hdrawn := h.drawn row hrow
    rw [show row.id = id from hid] at hdrawn
    exact hfresh hdrawn
  · exact fun row hrow => (no_clash (hclash row hrow)).1
  · exact fun row hrow => (no_clash (hclash row hrow)).2
  · intro v hv
    rcases List.mem_append.mp hv with hv | hv
    · exact h.oneMethod v hv
    · rw [List.mem_singleton.mp hv]
      exact oneMethod_newUserRow hxor

/-- The constraints speak of the accounts, and of the ids from below. -/
theorem usersOk_congr {db' : Db} (h : UsersOk pg db) (hu : db'.users = db.users)
    (hids : ∀ x ∈ db.ids, x ∈ db'.ids) : UsersOk pg db' := by
  refine ⟨?_, ?_, ?_, ?_, ?_⟩ <;> rw [hu]
  · exact fun u hmem => hids _ (h.drawn u hmem)
  · exact h.idUnique
  · exact h.emailUnique
  · exact h.identityUnique
  · exact h.oneMethod

/-- Any operation keeps the constraints, and the table only grows. -/
theorem exec_usersOk {P : Platform} {tid : Nat} {op : Op} {ch : Choice} {w w' : World}
    {r : op.Res} (hok : UsersOk P.pg w.db) (h : exec P tid op ch w = some (r, w')) :
    UsersOk P.pg w'.db ∧ w.db.users <+: w'.db.users := by
  by_cases hop : ∀ u, op ≠ .db (.insertUser u)
  · have husers := exec_users hop h
    exact ⟨usersOk_congr hok husers (exec_ids h), by rw [husers]⟩
  · push Not at hop
    rcases hop with ⟨u, rfl⟩
    rcases exec_db_inv h with ⟨db, hdb, rfl⟩
    rcases Db.insertUser_inv hdb with
      ⟨hfresh, ⟨_, _, hxor, hclash, rfl⟩ | ⟨_, _, ⟨ids, hids, rfl⟩, _⟩⟩
    · exact ⟨usersOk_insert hok hfresh hxor hclash, List.prefix_append _ _⟩
    · exact ⟨usersOk_congr hok rfl hids, List.prefix_refl _⟩

end Table

/-- Every table an operation left behind is an initial segment of the current
    one. -/
def Growing (st : Hist) : Prop :=
  ∀ e ∈ st.log, e.after.db.users <+: st.world.db.users

/-- The constraints hold, and the table has only grown since the start. -/
structure AccountsInv (P : Platform) (w₀ : World) (st : Hist) : Prop where
  ok : UsersOk P.pg st.world.db
  growing : Growing st
  sinceStart : w₀.db.users <+: st.world.db.users

/-- The row an event inserted. -/
def insertedUser : (op : Op) → op.Res → Option UserRow
  | .db (.insertUser _), .ok (row :: _) => some row
  | _, _ => none

/-- None of the events inserted an account. -/
def NoInsert (l : List Ev) : Prop :=
  ∀ e ∈ l, insertedUser e.op e.res = none

/-- One of the events inserted this row. -/
def Inserted (l : List Ev) (row : UserRow) : Prop :=
  ∃ e ∈ l, insertedUser e.op e.res = some row

/-- One of the events left a table with this row. -/
def Saw (l : List Ev) (row : UserRow) : Prop :=
  ∃ e ∈ l, row ∈ e.after.db.users

/-- A session is for an account, and its token is one `signToken` issued for
    that account's id. -/
def Names (P : Platform) (s : Session) (row : UserRow) : Prop :=
  s.user = toAuthUser row ∧ ∃ iat, s.token = sessionToken P row.id iat

/-- Some argument the call binds to a text parameter cannot be stored. -/
def Call.unstorable : Call → Bool
  | .signup email _ => !textOk email
  | .login email _ => !textOk email
  | .findOrCreateOAuthUser provider oauthId email _ =>
      !(textOk provider && textOk oauthId && textOk email)
  | _ => false

/-- The errors an account call may throw: an `AppError` with one of three
    statuses, or Postgres' refusal of an argument it cannot store. -/
def Refused (call : Call) (e : Err) : Prop :=
  (∃ a, e = .app a ∧ (a.statusCode = 400 ∨ a.statusCode = 401 ∨ a.statusCode = 409)) ∨
    (e = .db .invalidByteSequence ∧ call.unstorable = true)

/-- What the three account functions promise, from the events of the call and
    the rows there are: whom the token names, and what a throw leaves behind. -/
def accountPost (P : Platform) (call : Call) (l : List Ev) (Has : UserRow → Prop)
    (r : Except Err Reply) : Prop :=
  match call, r with
  | .signup email _, .ok reply => ∃ s row, reply = .session s ∧ Has row ∧ Names P s row ∧
      Inserted l row ∧ row.email = email
  | .login email password, .ok reply => ∃ s row hash, reply = .session s ∧ Has row ∧
      Names P s row ∧ P.pg.lower row.email = P.pg.lower email ∧ row.passwordHash = some hash ∧
      P.bcrypt.compare password hash = true
  | .findOrCreateOAuthUser provider oauthId _ _, .ok reply => ∃ s row, reply = .session s ∧
      Has row ∧ Names P s row ∧ row.oauthProvider = some provider ∧ row.oauthId = some oauthId ∧
      row.passwordHash = none
  | .signup _ _, .error e => NoInsert l ∧ Refused call e
  | .login _ _, .error e => NoInsert l ∧ Refused call e
  | .findOrCreateOAuthUser _ _ _ _, .error e => NoInsert l ∧ Refused call e
  | _, _ => True

theorem accountPost_mono {P : Platform} {call : Call} {l : List Ev} {Has Has' : UserRow → Prop}
    {r : Except Err Reply} (hle : ∀ row, Has row → Has' row) (h : accountPost P call l Has r) :
    accountPost P call l Has' r := by
  unfold accountPost at h ⊢
  split at h
  · rcases h with ⟨s, row, hs, hrow, hrest⟩
    exact ⟨s, row, hs, hle row hrow, hrest⟩
  · rcases h with ⟨s, row, hash, hs, hrow, hrest⟩
    exact ⟨s, row, hash, hs, hle row hrow, hrest⟩
  · rcases h with ⟨s, row, hs, hrow, hrest⟩
    exact ⟨s, row, hs, hle row hrow, hrest⟩
  · exact h
  · exact h
  · exact h
  · exact h

/-- All calls run; nothing is owed. -/
def accounts (P : Platform) (w₀ : World) :
    Protocol Op Op.Res Err Reply Call Choice World Unit where
  mayStart := fun _ _ => True
  mayDo := fun _ _ _ _ _ => True
  loc := fun _ _ => ()
  Inv := AccountsInv P w₀
  Pre := fun _ _ _ _ => True
  Post := fun i call _ r st => accountPost P call (st.mine i) (Saw (st.mine i)) r

theorem noInsert_cons {e : Ev} {l : List Ev} :
    NoInsert (e :: l) ↔ insertedUser e.op e.res = none ∧ NoInsert l :=
  List.forall_mem_cons

theorem inserted_cons {e : Ev} {l : List Ev} {row : UserRow} :
    Inserted (e :: l) row ↔ insertedUser e.op e.res = some row ∨ Inserted l row := by
  simp only [Inserted, List.mem_cons, exists_eq_or_imp]

theorem saw_cons {e : Ev} {l : List Ev} {row : UserRow} :
    Saw (e :: l) row ↔ row ∈ e.after.db.users ∨ Saw l row := by
  simp only [Saw, List.mem_cons, exists_eq_or_imp]

section History

variable {P : Platform} {w₀ : World} {i : Nat} {call : Call} {st st₁ : Hist}

theorem growing_push {op : Op} {ch : Choice} {r : op.Res} {w : World} (h : Growing st)
    (hle : st.world.db.users <+: w.db.users) : Growing (st.push i call op ch r w) := by
  intro e he
  simp only [State.push_log, List.mem_cons] at he
  rcases he with rfl | he
  · exact List.prefix_refl _
  · exact (h e he).trans hle

/-- A row one has seen is there now. -/
theorem saw_mem {row : UserRow} (h : Saw (st.mine i) row) (hg : Growing st) :
    row ∈ st.world.db.users := by
  rcases h with ⟨e, he, hrow⟩
  exact (hg e (State.mem_mine.mp he).1).subset hrow

end History

/-- The account lookups answer with the rows of the table that match. -/
theorem usersByOAuth_ok {db : Db} {provider oauthId : String} {rows : List UserRow}
    (h : db.usersByOAuth provider oauthId = .ok rows) :
    (textOk provider && textOk oauthId) = true ∧ ∀ row, row ∈ rows ↔
      row ∈ db.users ∧ row.oauthProvider = some provider ∧ row.oauthId = some oauthId := by
  unfold Db.usersByOAuth at h
  split at h
  · rename_i htext
    rw [Except.ok.injEq] at h
    refine ⟨htext, fun row => ?_⟩
    rw [← h, List.mem_filter, Bool.and_eq_true, beq_iff_eq, beq_iff_eq]
  · exact absurd h (by simp only [reduceCtorEq, not_false_eq_true])

theorem usersByEmail_ok {pg : Postgres} {db : Db} {email : String} {rows : List UserRow}
    (h : db.usersByEmail pg email = .ok rows) :
    ∀ row, row ∈ rows ↔ row ∈ db.users ∧ pg.lower row.email = pg.lower email := by
  unfold Db.usersByEmail at h
  split at h
  · rw [Except.ok.injEq] at h
    intro row
    rw [← h, List.mem_filter, beq_iff_eq]
  · exact absurd h (by simp only [reduceCtorEq, not_false_eq_true])

theorem usersByOAuth_head {db : Db} {provider oauthId : String} {rows : List UserRow}
    {row : UserRow} (h : db.usersByOAuth provider oauthId = .ok rows)
    (hrow : rows.head? = some row) :
    row ∈ db.users ∧ row.oauthProvider = some provider ∧ row.oauthId = some oauthId :=
  ((usersByOAuth_ok h).2 row).mp (List.mem_of_head? hrow)

theorem usersByEmail_head {pg : Postgres} {db : Db} {email : String} {rows : List UserRow}
    {row : UserRow} (h : db.usersByEmail pg email = .ok rows) (hrow : rows.head? = some row) :
    row ∈ db.users ∧ pg.lower row.email = pg.lower email :=
  (usersByEmail_ok h row).mp (List.mem_of_head? hrow)

theorem usersByEmail_error {pg : Postgres} {db : Db} {email : String} {e : DbError}
    (h : db.usersByEmail pg email = .error e) :
    e = .invalidByteSequence ∧ textOk email = false := by
  unfold Db.usersByEmail at h
  split at h
  · exact absurd h (by simp only [reduceCtorEq, not_false_eq_true])
  · rename_i hno
    rw [Except.error.injEq] at h
    exact ⟨h.symm, Bool.eq_false_of_not_eq_true hno⟩

theorem usersByOAuth_error {db : Db} {provider oauthId : String} {e : DbError}
    (h : db.usersByOAuth provider oauthId = .error e) :
    e = .invalidByteSequence ∧ (textOk provider && textOk oauthId) = false := by
  unfold Db.usersByOAuth at h
  split at h
  · exact absurd h (by simp only [reduceCtorEq, not_false_eq_true])
  · rename_i hno
    rw [Except.error.injEq] at h
    exact ⟨h.symm, Bool.eq_false_of_not_eq_true hno⟩

theorem textOk_hash (b : Bcrypt) (plain salt : String) : textOk (b.hash plain salt) = true := by
  unfold textOk
  rw [List.all_eq_true]
  intro c hc
  rw [bne_iff_ne]
  exact b.hash_no_nul plain salt c hc

section Programs

variable {P : Platform} {w₀ : World} {i : Nat} {call : Call} {st : Hist}

/-- Issuing the session of a row leaves the world as it is. -/
theorem sessionFor_sat {L : Type} {Q : Protocol Op Op.Res Err Reply Call Choice World L}
    {row : UserRow} {Post : Except Err Session → Hist → Prop}
    (hpre : ∀ st, Q.Pre st i call (.jwtSign (sessionClaims row.id) P.jwtExpiresIn))
    (h : ∀ st₁ ch r s, Later Q.loc i st st₁ → Q.Inv st₁ → Names P s row →
      Post (.ok s) (st₁.push i call (.jwtSign (sessionClaims row.id) P.jwtExpiresIn) ch r
        st₁.world)) :
    Sat (clickScope P) Q i call Post (sessionFor P row) st := by
  refine sat_bind _ st (sat_perform fun st₁ hl hi _ => ⟨hpre _, fun ch r w _ hx => ?_⟩)
  simp only [exec, Option.some.injEq, Prod.mk.injEq] at hx
  rcases hx with ⟨rfl, rfl⟩
  exact h st₁ ch _ _ hl hi ⟨rfl, seconds st₁.world.now, rfl⟩

/-- `login`: the row was looked up by its email, and its hash was compared. -/
theorem login_sat {email password : String} (hno : NoInsert (st.mine i)) :
    Sat (clickScope P) (accounts P w₀) i (.login email password)
      (fun r st' => accountPost P (.login email password) (st'.mine i) (Saw (st'.mine i))
        (r.map .session))
      (login P email password) st := by
  refine sat_bind _ st (sat_read rfl fun st₁ hl _ => ⟨trivial, fun ch r hx => ?_⟩)
  have hno₁ : NoInsert (st₁.mine i) := hl.mine_eq ▸ hno
  simp only [Db.exec, Option.some.injEq, Prod.mk.injEq, and_true] at hx
  cases r with
  | error e =>
      rcases usersByEmail_error hx with ⟨rfl, htext⟩
      refine ⟨?_, Or.inr ⟨rfl, by simp only [Call.unstorable, htext, Bool.not_false]⟩⟩
      rw [State.push_mine, noInsert_cons]
      exact ⟨rfl, hno₁⟩
  | ok rows =>
      -- Both failing branches burn a comparison and throw the same error.
      have hfail : ∀ hash, Sat (clickScope P) (accounts P w₀) i (.login email password)
          (fun r st' => accountPost P (.login email password) (st'.mine i) (Saw (st'.mine i))
        (r.map .session))
          ((verifyPassword password hash).bind (fun _ =>
            .throw (.app (unauthorized INVALID_CREDENTIALS_MESSAGE))))
          (st₁.push i (.login email password) (.db (.userByEmail email)) ch (.ok rows)
            st₁.world) := by
        intro hash
        refine sat_bind _ _ (sat_perform fun st₂ hl₂ _ _ => ⟨trivial, fun ch₂ r₂ w₂ _ _ => ?_⟩)
        refine ⟨?_, Or.inl ⟨_, rfl, Or.inr (Or.inl rfl)⟩⟩
        rw [State.push_mine, noInsert_cons, hl₂.mine_eq, State.push_mine, noInsert_cons]
        exact ⟨rfl, rfl, hno₁⟩
      simp only [Except.mapError, thenSat_ok]
      rcases hrow : rows.head? with _ | row
      · exact hfail _
      · rcases usersByEmail_head hx hrow with ⟨hmem, hlower⟩
        rcases hhash : row.passwordHash with _ | hash
        · simp only [hhash]
          exact hfail _
        · simp only [hhash]
          refine sat_bind _ _ (sat_perform fun st₂ hl₂ _ _ => ⟨trivial, fun ch₂ r₂ w₂ _ hx₂ => ?_⟩)
          simp only [exec, Option.some.injEq, Prod.mk.injEq] at hx₂
          rcases hx₂ with ⟨hcmp, rfl⟩
          cases r₂ with
          | false =>
              refine ⟨?_, Or.inl ⟨_, rfl, Or.inr (Or.inl rfl)⟩⟩
              rw [State.push_mine, noInsert_cons, hl₂.mine_eq, State.push_mine, noInsert_cons]
              exact ⟨rfl, rfl, hno₁⟩
          | true =>
              refine sessionFor_sat (fun _ => trivial) fun st₃ ch₃ r₃ s hl₃ _ hs => ?_
              have hsaw : Saw (st₃.mine i) row := by
                rw [hl₃.mine_eq, State.push_mine, saw_cons, hl₂.mine_eq, State.push_mine, saw_cons]
                exact Or.inr (Or.inl hmem)
              refine ⟨s, row, hash, rfl, ?_, hs, hlower, hhash, hcmp⟩
              rw [State.push_mine, saw_cons]
              exact Or.inr hsaw

/-- The insert of an account: the one new row, or the reason there is none. -/
theorem insertAccount_sat {L : Type} {Q : Protocol Op Op.Res Err Reply Call Choice World L}
    {u : NewUser} {Post : Except Err UserRow → Hist → Prop}
    (hpre : ∀ st, Q.Pre st i call (.db (.insertUser u)))
    (hok : ∀ st₁ ch db row, Later Q.loc i st st₁ → Q.Inv st₁ → row ∈ db.users →
      row = Db.newUserRow st₁.world.now ch.draw u → textOk u.email = true →
      Post (.ok row) (st₁.push i call (.db (.insertUser u)) ch (.ok [row])
        { st₁.world with db := db }))
    (herr : ∀ st₁ ch db e, Later Q.loc i st st₁ → Q.Inv st₁ → db.users = st₁.world.db.users →
      ((e = .invalidByteSequence ∧ (textOk u.email && textOk? u.passwordHash &&
          textOk? u.oauthProvider && textOk? u.oauthId) = false) ∨
        (e = .checkViolation ∧ Db.passwordXorOauth u = false) ∨
        (e = .uniqueViolation ∧ ∃ row ∈ db.users, Db.userClash P.pg u row = true)) →
      Post (.error (.db e)) (st₁.push i call (.db (.insertUser u)) ch (.error e)
        { st₁.world with db := db })) :
    Sat (clickScope P) Q i call Post (insertAccount u) st := by
  refine sat_bind _ st (sat_query fun st₁ hl hi _ => ⟨hpre _, fun ch r db _ hx => ?_⟩)
  rcases Db.insertUser_inv hx with ⟨_, ⟨rfl, htext, _, _, rfl⟩ | ⟨e, rfl, ⟨ids, _, rfl⟩, hwhy⟩⟩
  · exact hok st₁ ch _ _ hl hi (List.mem_append_right _ (List.mem_singleton_self _)) rfl htext
  · exact herr st₁ ch _ e hl hi rfl hwhy

/-- `signup`: the token names the row the call's own insert added. -/
theorem signup_sat {email password : String} (hno : NoInsert (st.mine i)) :
    Sat (clickScope P) (accounts P w₀) i (.signup email password)
      (fun r st' => accountPost P (.signup email password) (st'.mine i) (Saw (st'.mine i))
        (r.map .session))
      (signup P email password) st := by
  refine sat_bind _ st (sat_read rfl fun st₁ hl _ => ⟨trivial, fun ch r hx => ?_⟩)
  have hno₁ : NoInsert (st₁.mine i) := hl.mine_eq ▸ hno
  simp only [Db.exec, Option.some.injEq, Prod.mk.injEq, and_true] at hx
  rcases hr : st₁.world.db.usersByEmail P.pg email with e | rows
  · -- An email that cannot be bound fails before anything is inserted.
    rcases usersByEmail_error hr with ⟨rfl, htext⟩
    rw [hr] at hx
    subst hx
    refine ⟨?_, Or.inr ⟨rfl, by simp only [Call.unstorable, htext, Bool.not_false]⟩⟩
    rw [State.push_mine, noInsert_cons]
    exact ⟨rfl, hno₁⟩
  · have hans : r = .ok (rows.map (·.id)) := by
      rw [← hx, hr]
      rfl
    subst hans
    simp only [Except.mapError, thenSat_ok]
    cases (rows.map (·.id)).head? with
    | some id =>
        -- The email is taken: nothing is inserted.
        refine ⟨?_, Or.inl ⟨_, rfl, Or.inr (Or.inr rfl)⟩⟩
        rw [State.push_mine, noInsert_cons]
        exact ⟨rfl, hno₁⟩
    | none =>
        refine sat_bind _ _ (sat_perform fun st₂ hl₂ _ _ => ⟨trivial, fun ch₂ r₂ w₂ _ hx₂ => ?_⟩)
        simp only [exec, Option.some.injEq, Prod.mk.injEq] at hx₂
        rcases hx₂ with ⟨rfl, rfl⟩
        refine sat_bind _ _ (sat_tryCatch _ _ (insertAccount_sat (fun _ => trivial) ?_ ?_))
        · -- The session is for the row that was inserted.
          intro st₃ ch₃ db₃ row hl₃ _ hmem hrow _
          refine sessionFor_sat (fun _ => trivial) fun st₄ ch₄ r₄ s hl₄ _ hs => ?_
          refine ⟨s, row, rfl, ?_, hs, ?_, by rw [hrow]; rfl⟩
          · rw [State.push_mine, saw_cons, hl₄.mine_eq, State.push_mine, saw_cons]
            exact Or.inr (Or.inl hmem)
          · rw [State.push_mine, inserted_cons, hl₄.mine_eq, State.push_mine, inserted_cons]
            exact Or.inr (Or.inl rfl)
        · intro st₃ ch₃ db₃ e hl₃ _ _ hwhy
          have hno₃ : ∀ u, NoInsert ((st₃.push i (.signup email password) (.db (.insertUser u)) ch₃
              (.error e) { st₃.world with db := db₃ }).mine i) := by
            intro u
            rw [State.push_mine, noInsert_cons, hl₃.mine_eq, State.push_mine, noInsert_cons,
              hl₂.mine_eq, State.push_mine, noInsert_cons]
            exact ⟨rfl, rfl, rfl, hno₁⟩
          rcases hwhy with ⟨rfl, htext⟩ | ⟨rfl, hxor⟩ | ⟨rfl, _⟩
          · refine ⟨hno₃ _, Or.inr ⟨rfl, ?_⟩⟩
            simp only [textOk?, textOk_hash, Bool.and_true] at htext
            simp only [Call.unstorable, htext, Bool.not_false]
          · -- An account with a password passes the check of the table.
            exact absurd hxor (by simp only [Db.passwordXorOauth, Option.isSome_some,
              Option.isNone_none, Bool.and_true, Bool.true_or, Bool.true_eq_false,
              not_false_eq_true])
          · exact ⟨hno₃ _, Or.inl ⟨_, rfl, Or.inr (Or.inr rfl)⟩⟩

/-- The row of an OAuth session: it is there, and carries the identity. -/
theorem oauth_session_sat {provider oauthId email : String} {verified : Bool} {row : UserRow}
    (hsaw : Saw (st.mine i) row) (hp : row.oauthProvider = some provider)
    (ho : row.oauthId = some oauthId) :
    Sat (clickScope P) (accounts P w₀) i (.findOrCreateOAuthUser provider oauthId email verified)
      (fun r st' => accountPost P (.findOrCreateOAuthUser provider oauthId email verified)
        (st'.mine i) (Saw (st'.mine i)) (r.map .session)) (sessionFor P row) st := by
  refine sessionFor_sat (fun _ => trivial) fun st₁ ch r s hl hi hs => ?_
  have hsaw₁ : Saw (st₁.mine i) row := hl.mine_eq ▸ hsaw
  have hmem : row ∈ st₁.world.db.users := saw_mem hsaw₁ hi.growing
  refine ⟨s, row, rfl, ?_, hs, hp, ho, ?_⟩
  · rw [State.push_mine, saw_cons]
    exact Or.inr hsaw₁
  rcases hi.ok.oneMethod row hmem with ⟨_, hnone, _⟩ | ⟨hnone, _⟩
  · rw [hp] at hnone
    exact absurd hnone (by simp only [reduceCtorEq, not_false_eq_true])
  · exact hnone

/-- The part after the identity was not found. -/
theorem createOAuthUser_sat {provider oauthId email : String} (hno : NoInsert (st.mine i)) :
    Sat (clickScope P) (accounts P w₀) i (.findOrCreateOAuthUser provider oauthId email true)
      (fun r st' => accountPost P (.findOrCreateOAuthUser provider oauthId email true)
        (st'.mine i) (Saw (st'.mine i)) (r.map .session))
      (createOAuthUser P provider oauthId email true) st := by
  refine sat_bind _ st (sat_read rfl fun st₁ hl _ => ⟨trivial, fun ch r hx => ?_⟩)
  have hno₁ : NoInsert (st₁.mine i) := hl.mine_eq ▸ hno
  simp only [Db.exec, Option.some.injEq, Prod.mk.injEq, and_true] at hx
  rcases hr : st₁.world.db.usersByEmail P.pg email with e | rows
  · rcases usersByEmail_error hr with ⟨rfl, htext⟩
    rw [hr] at hx
    subst hx
    refine ⟨?_, Or.inr ⟨rfl, by simp only [Call.unstorable, htext, Bool.and_false,
      Bool.not_false]⟩⟩
    rw [State.push_mine, noInsert_cons]
    exact ⟨rfl, hno₁⟩
  · have hans : r = .ok (rows.map (·.id)) := by
      rw [← hx, hr]
      rfl
    subst hans
    simp only [Except.mapError, thenSat_ok]
    cases (rows.map (·.id)).head? with
    | some id =>
        refine ⟨?_, Or.inl ⟨_, rfl, Or.inr (Or.inr rfl)⟩⟩
        rw [State.push_mine, noInsert_cons]
        exact ⟨rfl, hno₁⟩
    | none =>
        refine sat_bind _ _ (sat_tryCatch _ _ (insertAccount_sat (fun _ => trivial) ?_ ?_))
        · intro st₂ ch₂ db₂ row hl₂ _ hmem hrow _
          refine oauth_session_sat ?_ (by rw [hrow]; rfl) (by rw [hrow]; rfl)
          rw [State.push_mine, saw_cons]
          exact Or.inl hmem
        · intro st₂ ch₂ db₂ e hl₂ _ _ hwhy
          have hno₂ : ∀ u, NoInsert
              ((st₂.push i (.findOrCreateOAuthUser provider oauthId email true)
              (.db (.insertUser u)) ch₂ (.error e) { st₂.world with db := db₂ }).mine i) := by
            intro u
            rw [State.push_mine, noInsert_cons, hl₂.mine_eq, State.push_mine, noInsert_cons]
            exact ⟨rfl, rfl, hno₁⟩
          rcases hwhy with ⟨rfl, htext⟩ | ⟨rfl, hxor⟩ | ⟨rfl, _⟩
          · refine ⟨hno₂ _, Or.inr ⟨rfl, ?_⟩⟩
            simp only [textOk?, Bool.and_true, Bool.and_eq_false_iff] at htext
            simp only [Call.unstorable, Bool.not_eq_true', Bool.and_eq_false_iff]
            tauto
          · exact absurd hxor (by simp only [Db.passwordXorOauth, Option.isSome_some,
              Option.isNone_none, Bool.and_true, Bool.or_true, Bool.true_eq_false,
              not_false_eq_true])
          · -- The race is lost: whoever won it decides between the row and a conflict.
            simp only
            refine sat_bind _ _ (sat_read rfl fun st₃ hl₃ _ => ⟨trivial, fun ch₃ r₃ hx₃ => ?_⟩)
            simp only [Db.exec, Option.some.injEq, Prod.mk.injEq, and_true] at hx₃
            have hno₃ : NoInsert ((st₃.push i (.findOrCreateOAuthUser provider oauthId email true)
                (.db (.userByOAuth provider oauthId)) ch₃ r₃ st₃.world).mine i) := by
              rw [State.push_mine, noInsert_cons, hl₃.mine_eq]
              exact ⟨rfl, hno₂ _⟩
            cases r₃ with
            | error e₃ =>
                rcases usersByOAuth_error hx₃ with ⟨rfl, htext⟩
                exact ⟨hno₃, Or.inr ⟨rfl, by simp only [Call.unstorable, htext, Bool.false_and,
                  Bool.not_false]⟩⟩
            | ok rows₃ =>
                simp only [Except.mapError, thenSat_ok]
                rcases hrow : rows₃.head? with _ | row
                · exact ⟨hno₃, Or.inl ⟨_, rfl, Or.inr (Or.inr rfl)⟩⟩
                · rcases usersByOAuth_head hx₃ hrow with ⟨hmem, hp, ho⟩
                  refine oauth_session_sat ?_ hp ho
                  rw [State.push_mine, saw_cons]
                  exact Or.inl hmem

/-- `findOrCreateOAuthUser`: the token names the row with that identity, found
    at once, inserted, or found after a lost race. -/
theorem findOrCreateOAuthUser_sat {provider oauthId email : String} {verified : Bool}
    (hno : NoInsert (st.mine i)) :
    Sat (clickScope P) (accounts P w₀) i (.findOrCreateOAuthUser provider oauthId email verified)
      (fun r st' => accountPost P (.findOrCreateOAuthUser provider oauthId email verified)
        (st'.mine i) (Saw (st'.mine i)) (r.map .session))
      (findOrCreateOAuthUser P provider oauthId email verified) st := by
  cases verified with
  | false => exact ⟨hno, Or.inl ⟨_, rfl, Or.inl rfl⟩⟩
  | true =>
      refine sat_bind _ st (sat_read rfl fun st₁ hl _ => ⟨trivial, fun ch r hx => ?_⟩)
      have hno₁ : NoInsert (st₁.mine i) := hl.mine_eq ▸ hno
      simp only [Db.exec, Option.some.injEq, Prod.mk.injEq, and_true] at hx
      cases r with
      | error e =>
          rcases usersByOAuth_error hx with ⟨rfl, htext⟩
          refine ⟨?_, Or.inr ⟨rfl, by simp only [Call.unstorable, htext, Bool.false_and,
            Bool.not_false]⟩⟩
          rw [State.push_mine, noInsert_cons]
          exact ⟨rfl, hno₁⟩
      | ok rows =>
          simp only [Except.mapError, thenSat_ok]
          rcases hrow : rows.head? with _ | row
          · -- No account has this identity, and nothing has been inserted so far.
            exact createOAuthUser_sat (by
              rw [State.push_mine, noInsert_cons]
              exact ⟨rfl, hno₁⟩)
          · -- The account was read, so it is one that was seen.
            rcases usersByOAuth_head hx hrow with ⟨hmem, hp, ho⟩
            refine oauth_session_sat ?_ hp ho
            rw [State.push_mine, saw_cons]
            exact Or.inl hmem

end Programs

theorem accounts_sound (P : Platform) (w₀ : World) : Sound (clickScope P) (accounts P w₀) where
  env := by
    intro st e w hi hw
    rcases env_inv hw with ⟨ms, rfl⟩
    exact ⟨hi.ok, hi.growing, hi.sinceStart⟩
  env_loc := fun _ _ _ _ _ => rfl
  reap := fun st i hi => ⟨usersOk_congr hi.ok rfl (fun _ hx => hx), hi.growing, hi.sinceStart⟩
  reap_loc := fun _ _ _ _ => rfl
  exec := by
    intro st i call op ch r w hi _ _ _ hx
    rcases exec_usersOk hi.ok hx with ⟨hok, hle⟩
    exact ⟨hok, growing_push hi.growing hle, hi.sinceStart.trans hle⟩
  exec_loc := fun _ _ _ _ _ _ _ _ _ => rfl
  body := by
    intro st i call _ _ hmine _
    have hno : NoInsert (st.mine i) := by
      rw [hmine]
      exact List.forall_mem_nil _
    -- Only these three calls promise something of the accounts.
    cases call with
    | signup email password => exact sat_map (signup_sat hno)
    | login email password => exact sat_map (login_sat hno)
    | findOrCreateOAuthUser provider oauthId email verified =>
        exact sat_map (findOrCreateOAuthUser_sat hno)
    | _ => exact sat_performs (fun _ _ _ _ => trivial) (fun r _ => by cases r <;> trivial)

theorem usersOk_empty (pg : Postgres) : UsersOk pg emptyWorld.db :=
  ⟨List.forall_mem_nil _, List.Pairwise.nil, List.Pairwise.nil, List.Pairwise.nil,
    List.forall_mem_nil _⟩

/-- Whether thread 0 returned. -/
def firstReturned (c : Site) : Bool :=
  match c.resultOf 0 with
  | some (.ok _) => true
  | _ => false

/-- The calls that create or open accounts. -/
def Call.isAccount : Call → Bool
  | .signup _ _ | .login _ _ | .findOrCreateOAuthUser _ _ _ _ => true
  | _ => false

/-- Every account call that threw has thrown an `AppError` of three statuses. -/
def ThrowsAppErrors (c : Site) : Prop :=
  ∀ (i : Nat) (t : Task) (e : Err), c.threads[i]? = some t → t.call.isAccount = true →
    t.result = some (.error e) →
    ∃ a, e = .app a ∧ (a.statusCode = 400 ∨ a.statusCode = 401 ∨ a.statusCode = 409)

/-- Whether thread 0 is an account call that threw Postgres' encoding error. -/
def firstThrewRaw (c : Site) : Bool :=
  match c.threads[0]? with
  | some t => t.call.isAccount && decide (t.result.map (fun r => r.map (fun _ => ())) =
      some (.error (.db .invalidByteSequence)))
  | none => false

end ClickScope
