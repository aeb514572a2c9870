import ClickScope.Async.Among
import ClickScope.Core.System
import ClickScope.Theory.Accounts
import ClickScope.Theory.Patch
import ClickScope.Theory.ShortCodes

/-!
# Bound Values

What the link service binds into its statements, against the types of the
parameters.

A value outside its type fails its statement before the statement looks at a
row, and a column with a check fails it at the row. `Stmt.fits` says that
neither can happen, of the statements the service sends for its owners. The
one value that is not bound is the cap of a row that an update leaves alone; it
satisfies the check since every row does, committed or not, and no operation of
any program changes that (`exec_moves`, `run_moves`).

A program that only ever binds values that fit throws no error about a value,
whatever other programs run beside it. `Fitting` is that, and every function
of the service has it if its input fits.

## Main definitions

* `DbError.isDataError`: The errors about a value.
* `SqlValue.fits`, `Stmt.fits`: Values within their types.
* `checksOk`, `moves`: What other programs leave intact.
* `generating`: Operations with short codes drawn from the alphabet.
* `Fitting`: A program that binds what fits.

## Theorems

* `exec_moves`, `run_moves`: Every operation, and every run, leaves the checks
  intact.
* `exec_fits`: A statement that fits fails for no value.
* `createLink_fitting`, `listLinks_fitting`, `updateLink_fitting`: The functions.
-/

namespace ClickScope

open Async Zod

/-- The errors about a bound value: out of the range of its type, not a text of
    it, not in the encoding, or refused by a check. -/
def DbError.isDataError : DbError → Bool
  | .numericValueOutOfRange | .datetimeFieldOverflow | .invalidTextRepresentation
  | .invalidByteSequence | .invalidRowCount | .checkViolation => true
  | _ => false

def Err.isDataError : Err → Bool
  | .db e => e.isDataError
  | _ => false

/-- The value is one of its type. The only integer is the cap, which also has
    a check. -/
def SqlValue.fits : SqlValue → Bool
  | .text s => textOk? s
  | .timestamp t => timestampOk? t
  | .integer n => int4Ok? n && maxClicksCheck n
  | .boolean _ => true
  | .uuid s => (Uuid.read s).isSome
  | .account _ => true

/-- A `LIMIT` or an `OFFSET`. -/
def rowCountOk (n : Int) : Bool := int8Ok n && decide (0 ≤ n)

/-- The texts and numbers of an insert. -/
def NewLink.values (l : NewLink) : List SqlValue :=
  [.text (some l.shortCode), .text (some l.destinationUrl), .text l.passwordHash,
    .timestamp l.expiresAt, .integer l.maxClicks]

/-- A statement the link service sends for an owner, with values of their
    types. -/
def Stmt.fits : Stmt → Bool
  | .linkIdByCode code => textOk code
  | .insertLink l => l.values.all SqlValue.fits
  | .listLinks _ limit offset => rowCountOk limit && rowCountOk offset
  | .countLinks _ => true
  | .linkById id _ => (Uuid.read id).isSome
  | .updateLink _ _ _ values => values.all SqlValue.fits
  | _ => false

def Op.fits : Op → Bool
  | .db s => s.fits
  | _ => true

/-- Every row of the links satisfies the check, the uncommitted ones included. -/
def checksOk (db : Db) : Bool :=
  db.links.all (fun r => maxClicksCheck r.maxClicks) &&
    db.txs.all (fun t => t.bumped.all (fun r => maxClicksCheck r.maxClicks))

/-- What other programs may do to the world: the clock moves forward, and the
    checks stay satisfied. -/
def moves (w w' : World) : Bool :=
  decide (w.now ≤ w'.now) && (!checksOk w.db || checksOk w'.db)

/-- A code as `customAlphabet` draws it. -/
def drawsCode (code : String) : Bool :=
  decide (code.toList.length = DEFAULT_SHORT_CODE_LENGTH) &&
    code.toList.all (fun c => ALPHABET.contains c)

/-- The operations, with short codes drawn from the alphabet. -/
def generating (P : Platform) (tid : Nat) (op : Op) (ch : Choice) (w : World) :
    Option (op.Res × World) :=
  if op ≠ .generateId ∨ drawsCode ch.draw then exec P tid op ch w else none

/-- Whatever runs beside it, the program binds only what fits, and throws no
    error about a value. -/
def Fitting {α : Type} (P : Platform) (tid : Nat) (x : Api α) : Prop :=
  x.Safe (generating P tid) (fun w => checksOk w.db = true) (fun op => op.fits = true)
    (fun e => e.isDataError = false)

section Values

theorem bindError_fits {v : SqlValue} (h : v.fits = true) : v.bindError = none := by
  cases v with
  | text s => exact if_pos h
  | timestamp t => exact if_pos h
  | integer n =>
      rw [SqlValue.fits, Bool.and_eq_true] at h
      exact if_pos h.1
  | boolean b => rfl
  | uuid s => exact uuidError_eq_none.mpr h
  | account id => rfl

theorem rangeError_data (n : Int) : (rangeError n).isDataError = true := by
  unfold rangeError
  split_ifs <;> rfl

theorem uuidError_data {s : String} {e : DbError} (h : uuidError s = some e) :
    e.isDataError = true := by
  unfold uuidError at h
  split at h
  · cases h
  · split_ifs at h <;> rw [← Option.some.inj h] <;> rfl

/-- A value that cannot be bound raises an error about a value. -/
theorem bindError_data {v : SqlValue} {e : DbError} (h : v.bindError = some e) :
    e.isDataError = true := by
  cases v with
  | text s =>
      simp only [SqlValue.bindError] at h
      split_ifs at h
      rw [← Option.some.inj h]
      rfl
  | timestamp t =>
      simp only [SqlValue.bindError] at h
      split_ifs at h
      rw [← Option.some.inj h]
      rfl
  | integer n =>
      simp only [SqlValue.bindError] at h
      split_ifs at h
      rw [← Option.some.inj h]
      exact rangeError_data _
  | boolean b => cases h
  | uuid s => exact uuidError_data h
  | account id => cases h

theorem findSome_fits {values : List SqlValue} (h : values.all SqlValue.fits = true) :
    values.findSome? SqlValue.bindError = none := by
  rw [List.findSome?_eq_none_iff]
  exact fun v hv => bindError_fits (List.all_eq_true.mp h v hv)

/-- Assigning a value that fits keeps the check of the row, and what it raises
    is not about the value. -/
theorem assign_fits {row : LinkRow} {col : LinkColumn} {v : SqlValue} (hv : v.fits = true)
    (hrow : maxClicksCheck row.maxClicks = true) :
    (∀ row', assign row col v = .ok row' → maxClicksCheck row'.maxClicks = true) ∧
      ∀ e, assign row col v = .error e → e.isDataError = false := by
  constructor
  · intro row' h
    cases col <;> cases v <;> simp only [assign, reduceCtorEq, Except.ok.injEq] at h
    case destinationUrl.text s =>
      cases s with
      | none => cases h
      | some u =>
          rw [← Except.ok.inj h]
          exact hrow
    case expiresAt.timestamp t =>
      rw [← h]
      exact hrow
    case maxClicks.integer n =>
      -- Only the click limit is checked, and a bound number is checked already.
      rw [SqlValue.fits, Bool.and_eq_true] at hv
      rw [← h]
      exact hv.2
    case isActive.boolean b =>
      rw [← h]
      exact hrow
    case passwordHash.text s =>
      rw [← h]
      exact hrow
  · intro e h
    cases col <;> cases v <;> simp only [assign, reduceCtorEq, Except.error.injEq] at h <;>
      try (rw [← h]; rfl)
    case destinationUrl.text s =>
      cases s with
      | none =>
          rw [← Except.error.inj h]
          rfl
      | some u => cases h

/-- So does a whole `SET` list. Induction on the list. -/
theorem applySet_fits {now : Nat} {values : List SqlValue}
    (hvalues : values.all SqlValue.fits = true) {set : List SetClause} {row : LinkRow}
    (hrow : maxClicksCheck row.maxClicks = true) :
    (∀ row', applySet now values set row = .ok row' → maxClicksCheck row'.maxClicks = true) ∧
      ∀ e, applySet now values set row = .error e → e.isDataError = false := by
  induction set generalizing row with
  | nil =>
      refine ⟨fun row' h => ?_, fun e h => by cases h⟩
      rw [← Except.ok.inj h]
      exact hrow
  | cons c cs ih =>
      cases c with
      | updatedAtNow => exact @ih { row with updatedAt := now } hrow
      | param col n =>
          rcases hparam : param values n with _ | v
          · simp only [applySet, hparam]
            refine ⟨fun row' h => (by cases h), fun e h => ?_⟩
            rw [← Except.error.inj h]
            rfl
          · -- A parameter is one of the values, all of which fit.
            have hv : v.fits = true := by
              refine List.all_eq_true.mp hvalues v ?_
              cases n with
              | zero => cases hparam
              | succ k => exact List.mem_of_getElem? hparam
            have hassign := @assign_fits row col v hv hrow
            rcases hset : assign row col v with e | row'
            · simp only [applySet, hparam, hset]
              refine ⟨fun row' h => (by cases h), fun e' h => ?_⟩
              rw [← Except.error.inj h]
              exact hassign.2 e hset
            · simp only [applySet, hparam, hset]
              exact ih (hassign.1 row' hset)

end Values

section Statements

variable {pg : Postgres} {now tid : Nat} {ch : Choice} {db db' : Db}

theorem checksOk_iff : checksOk db = true ↔
    (∀ r ∈ db.links, maxClicksCheck r.maxClicks = true) ∧
      ∀ t ∈ db.txs, ∀ b, t.bumped = some b → maxClicksCheck b.maxClicks = true := by
  unfold checksOk
  rw [Bool.and_eq_true, List.all_eq_true, List.all_eq_true]
  simp only [Option.all_eq_true]

/-- An insert of a row without the check inserts nothing. -/
theorem insertLink_checks {l : NewLink} {r : Except DbError (List LinkRow)}
    (h : Db.exec pg now tid (.insertLink l) ch db = some (r, db')) {row : LinkRow}
    (hrow : row ∈ db'.links) : row ∈ db.links ∨ maxClicksCheck row.maxClicks = true := by
  simp only [Db.exec, Db.insertLink] at h
  split_ifs at h with hdrawn htext hint htime hcheck <;> rw [Option.some.injEq, Prod.mk.injEq] at h
    <;> rw [← h.2] at hrow
  -- The last branch is the only one that adds a row.
  all_goals try exact Or.inl hrow
  rcases List.mem_append.mp hrow with hold | hnew
  · exact Or.inl hold
  · rw [List.mem_singleton.mp hnew]
    exact Or.inr (Bool.eq_true_of_not_eq_false hcheck)

theorem updateLink_checks {set : List SetClause} {i u : Nat} {values : List SqlValue}
    {r : Except DbError (List LinkRow)}
    (h : Db.exec pg now tid (.updateLink set i u values) ch db = some (r, db')) {row : LinkRow}
    (hrow : row ∈ db'.links) : row ∈ db.links ∨ maxClicksCheck row.maxClicks = true := by
  rcases Db.updateLink_inv h with ⟨_, _, rfl⟩ | ⟨_, rfl⟩ |
    ⟨id, userId, old, row', _, _, _, _, _, _, _, hcheck, _, rfl⟩
  · exact Or.inl hrow
  · exact Or.inl hrow
  · rcases List.mem_map.mp hrow with ⟨x, hx, hxrow⟩
    by_cases hown : Db.ownedBy id userId x = true
    · rw [if_pos hown] at hxrow
      rw [← hxrow]
      exact Or.inr hcheck
    · rw [if_neg hown] at hxrow
      rw [← hxrow]
      exact Or.inl hx

/-- No statement breaks the check. One that would is refused. -/
theorem exec_checks {s : Stmt} {r : Except DbError s.Rows}
    (h : Db.exec pg now tid s ch db = some (r, db')) (hok : checksOk db = true) :
    checksOk db' = true := by
  rw [checksOk_iff] at hok ⊢
  rcases hok with ⟨hlinks, htxs⟩
  refine ⟨fun row hrow => ?_, fun t ht b hb => ?_⟩
  · rcases Db.exec_links_mem h hrow with hold | ⟨l, id, rfl, _⟩ | ⟨set, i, u, values, old, rfl, _⟩ |
      ⟨old, hold, _, rfl⟩ | ⟨t, ht, hb⟩
    · exact hlinks row hold
    · exact (insertLink_checks h hrow).elim (hlinks row) (fun hcheck => hcheck)
    · exact (updateLink_checks h hrow).elim (hlinks row) (fun hcheck => hcheck)
    · exact hlinks old hold
    · exact htxs t ht row hb
  · rcases Db.exec_bumped_mem h ht hb with ⟨t', ht', hb'⟩ | ⟨row, hrow, rfl⟩
    · exact htxs t' ht' b hb'
    · exact hlinks row hrow

/-- A statement that fits fails for no value. -/
theorem exec_fits {s : Stmt} {e : DbError} (hs : s.fits = true) (hok : checksOk db = true)
    (h : Db.exec pg now tid s ch db = some (.error e, db')) : e.isDataError = false := by
  have hlinks := (checksOk_iff.mp hok).1
  cases s with
  | linkIdByCode code =>
      have htext : textOk code = true := hs
      simp only [Db.exec, htext, if_true, Option.some.injEq, Prod.mk.injEq, reduceCtorEq,
        false_and] at h
  | countLinks userId => cases h
  | linkById id userId =>
      simp only [Db.exec, Db.linkById, uuidError_eq_none.mpr hs, Option.some.injEq, Prod.mk.injEq,
        reduceCtorEq, false_and] at h
  | listLinks userId limit offset =>
      simp only [Stmt.fits, rowCountOk, Bool.and_eq_true, decide_eq_true_eq] at hs
      have hcount : ¬ (limit < 0 ∨ offset < 0) := by omega
      simp only [Db.exec, Db.listLinks, hs, hcount, if_false, Bool.true_eq_false,
        Option.some.injEq, Prod.mk.injEq, reduceCtorEq, false_and] at h
  | insertLink l =>
      simp only [Stmt.fits, NewLink.values, List.all_cons, List.all_nil, SqlValue.fits,
        Bool.and_eq_true, and_true] at hs
      rcases hs with ⟨hcode, hurl, hhash, htime, hint, hcheck⟩
      rw [textOk?] at hcode hurl
      simp only [Db.exec, Db.insertLink, hcode, hurl, hhash, htime, hint, hcheck, Bool.and_self,
        Bool.true_eq_false, if_false] at h
      -- What is left are the constraints between rows.
      split_ifs at h <;> rw [Option.some.injEq, Prod.mk.injEq] at h
      · rw [← Except.error.inj h.1]
        rfl
      · rw [← Except.error.inj h.1]
        rfl
      · cases h.1
  | updateLink set i u values =>
      have hvalues : values.all SqlValue.fits = true := hs
      simp only [Db.exec, Db.updateLink, findSome_fits hvalues] at h
      split at h
      · split at h
        · rw [Option.some.injEq, Prod.mk.injEq] at h
          cases h.1
        · rename_i row hrow
          -- The row that is rewritten passed the checks, and the values fit, so it still does.
          have hset := @applySet_fits (now - ch.waited) values hvalues set row
            (hlinks row (List.mem_of_find?_eq_some hrow))
          split_ifs at h
          rcases happly : applySet (now - ch.waited) values set row with e' | row'
          · simp only [happly, Option.some.injEq, Prod.mk.injEq, Except.error.injEq] at h
            rw [← h.1]
            exact hset.2 e' happly
          · simp only [happly, hset.1 row' happly, Bool.true_eq_false, if_false, Option.some.injEq,
              Prod.mk.injEq, reduceCtorEq, false_and] at h
      · rw [Option.some.injEq, Prod.mk.injEq] at h
        rw [← Except.error.inj h.1]
        rfl
  | _ => cases hs

end Statements

section Worlds

variable {P : Platform} {tid : Nat} {op : Op} {ch : Choice} {w w' : World}

theorem exec_checksOk {r : op.Res} (h : exec P tid op ch w = some (r, w'))
    (hok : checksOk w.db = true) : checksOk w'.db = true := by
  by_cases hs : ∀ s, op ≠ .db s
  · rw [exec_db_eq hs h]
    exact hok
  · push Not at hs
    rcases hs with ⟨s, rfl⟩
    rcases exec_db_inv h with ⟨db, hdb, rfl⟩
    exact exec_checks hdb hok

theorem moves_iff : moves w w' = true ↔
    w.now ≤ w'.now ∧ (checksOk w.db = true → checksOk w'.db = true) := by
  unfold moves
  rw [Bool.and_eq_true, decide_eq_true_eq, Bool.or_eq_true, Bool.not_eq_true', ← Bool.not_eq_true,
    imp_iff_not_or]

theorem moves_refl (w : World) : moves w w = true := moves_iff.mpr ⟨Nat.le_refl _, fun h => h⟩

theorem moves_trans {w₁ w₂ w₃ : World} (h : moves w₁ w₂ = true) (h' : moves w₂ w₃ = true) :
    moves w₁ w₃ = true := by
  rw [moves_iff] at h h' ⊢
  exact ⟨Nat.le_trans h.1 h'.1, fun hok => h'.2 (h.2 hok)⟩

/-- Whatever a program of the pool performs is a move. -/
theorem exec_moves {r : op.Res} (h : exec P tid op ch w = some (r, w')) : moves w w' = true :=
  moves_iff.mpr ⟨Nat.le_of_eq (exec_now_eq h).symm, exec_checksOk h⟩

/-- And so is a step of the environment, and the death of a program. -/
theorem env_moves {e : EnvStep} (h : (clickScope P).env e w = some w') : moves w w' = true := by
  rcases env_inv h with ⟨ms, rfl⟩
  exact moves_iff.mpr ⟨Nat.le_add_right _ _, fun hok => hok⟩

theorem reap_moves (i : Nat) : moves w ((clickScope P).reap i w) = true := by
  refine moves_iff.mpr ⟨Nat.le_refl _, fun hok => ?_⟩
  rw [checksOk_iff] at hok ⊢
  exact ⟨hok.1, fun t ht b hb => hok.2 t (List.mem_filter.mp ht).1 b hb⟩

/-- So the pool as a whole makes nothing but moves. -/
theorem run_moves {π : Policy Op Op.Res Call Choice World} {w₀ : World} {c : Site}
    (hc : Run (clickScope P) π w₀ c) : moves w₀ c.state.world = true :=
  (run_state (I := fun st => moves w₀ st.world = true) (moves_refl w₀)
    (fun _ _ _ _ _ _ _ _ h hx => moves_trans h (exec_moves hx))
    (fun _ _ _ h hw => moves_trans h (env_moves hw))
    (fun _ i h => moves_trans h (reap_moves (P := P) i)) hc).2

theorem generating_exec {out : op.Res × World} (h : generating P tid op ch w = some out) :
    exec P tid op ch w = some out := by
  unfold generating at h
  split_ifs at h
  exact h

/-- A drawn code is one a link can have. -/
theorem drawsCode_storable {code : String} (h : drawsCode code = true) : Storable code := by
  unfold drawsCode at h
  rw [Bool.and_eq_true, decide_eq_true_eq, List.all_eq_true] at h
  exact Or.inr ⟨h.1, fun c hc => List.contains_iff_mem.mp (h.2 c hc)⟩

end Worlds

section Functions

variable {α β : Type} {P : Platform} {tid : Nat}

theorem fitting_bind {x : Api α} {f : α → Api β} (hx : Fitting P tid x)
    (hf : ∀ a, Fitting P tid (f a)) : Fitting P tid (x.bind f) :=
  Prog.safe_bind hf x hx

/-- An operation that fits keeps the checks, so the rest decides. -/
theorem fitting_await {op : Op} {k : op.Res → Api α} (hop : op.fits = true)
    (hk : ∀ ch w r w', checksOk w.db = true → generating P tid op ch w = some (r, w') →
      Fitting P tid (k r)) : Fitting P tid (.await op k) :=
  ⟨hop, fun ch w r w' hok hx => ⟨exec_checksOk (generating_exec hx) hok, hk ch w r w' hok hx⟩⟩

theorem fitting_query {s : Stmt} (hs : s.fits = true) : Fitting P tid (query s) := by
  refine fitting_await hs (fun ch w r w' hok hx => ?_)
  rcases r with e | rows
  · rcases exec_db_inv (generating_exec hx) with ⟨db, hdb, _⟩
    exact exec_fits hs hok hdb
  · trivial

theorem fitting_redis (c : RedisCmd) : Fitting P tid (redis c) := by
  refine fitting_await rfl (fun ch w r w' _ _ => ?_)
  rcases r with e | reply
  · exact rfl
  · trivial

theorem invalidateLinkCache_fitting (shortCode : String) :
    Fitting P tid (invalidateLinkCache shortCode) := by
  refine Prog.safe_tryCatch (fun _ _ => ?_) _ (fitting_redis _)
  trivial

/-- A hash has no NUL, so it is a text of the column. -/
theorem hashGiven_fitting {password : Option String} {f : Option String → Api α}
    (hf : ∀ h, textOk? h = true → Fitting P tid (f h)) :
    Fitting P tid ((hashGiven password).bind f) := by
  cases password with
  | none => exact hf none rfl
  | some plain =>
      refine fitting_await rfl (fun ch w r w' _ hx => hf (some r) ?_)
      have hr := generating_exec hx
      simp only [exec, Option.some.injEq, Prod.mk.injEq] at hr
      rw [← hr.1]
      exact textOk_hash P.bcrypt plain ch.draw

theorem hashField_fitting {password : Option (Option String)}
    {f : Option (Option String) → Api α}
    (hf : ∀ h, (∀ s, h = some s → textOk? s = true) → Fitting P tid (f h)) :
    Fitting P tid ((hashField password).bind f) := by
  rcases password with _ | _ | plain
  · exact hf none (fun s hs => by cases hs)
  · refine hf (some none) (fun s hs => ?_)
    rw [← Option.some.inj hs]
    rfl
  · refine fitting_await rfl (fun ch w r w' _ hx => hf (some (some r)) (fun s hs => ?_))
    have hr := generating_exec hx
    simp only [exec, Option.some.injEq, Prod.mk.injEq] at hr
    rw [← Option.some.inj hs, ← hr.1]
    exact textOk_hash P.bcrypt plain ch.draw

/-- The values of a creation, but for its short code and its hash. -/
def CreateLinkInput.fits (input : CreateLinkInput) : Bool :=
  textOk input.destinationUrl && timestampOk? input.expiresAt &&
    (int4Ok? input.maxClicks && maxClicksCheck input.maxClicks)

theorem insertLink_fitting {userId shortCode : String} {input : CreateLinkInput}
    {passwordHash : Option String} (hcode : textOk shortCode = true) (hinput : input.fits = true)
    (hhash : textOk? passwordHash = true) :
    Fitting P tid (insertLink userId shortCode input passwordHash) := by
  simp only [CreateLinkInput.fits, Bool.and_eq_true] at hinput
  refine Prog.safe_tryCatch (fun err herr => ?_) _
    (fitting_bind (fitting_query ?_) (fun rows => ?_))
  · cases err.isUniqueViolation with
    | true => trivial
    | false => exact herr
  · simp only [Stmt.fits, NewLink.values, List.all_cons, List.all_nil, SqlValue.fits, textOk?,
      Bool.and_eq_true, and_true]
    exact ⟨hcode, hinput.1.1, hhash, hinput.1.2, hinput.2.1, hinput.2.2⟩
  · cases rows.head? with
    | none => exact rfl
    | some row => trivial

/-- The generation loop. Induction on the attempts that are left. -/
theorem createGenerated_fitting {userId : String} {input : CreateLinkInput}
    {passwordHash : Option String} (hinput : input.fits = true)
    (hhash : textOk? passwordHash = true) (attempts : Nat) :
    Fitting P tid (createGenerated userId input passwordHash attempts) := by
  induction attempts with
  | zero => exact rfl
  | succ attempts ih =>
      refine fitting_await rfl (fun ch w code w' _ hx => ?_)
      have hdraw : drawsCode ch.draw = true := by
        unfold generating at hx
        simp only [ne_eq, not_true_eq_false, false_or] at hx
        split_ifs at hx with hdraw
        exact hdraw
      -- The code is the draw, which is of the alphabet.
      have hcode : code = ch.draw := by
        have hr := generating_exec hx
        simp only [exec, Option.some.injEq, Prod.mk.injEq] at hr
        exact hr.1.symm
      have htext : textOk code = true := by
        rw [hcode]
        exact textOk_storable (drawsCode_storable hdraw)
      rw [Prog.ret_bind]
      refine fitting_bind (insertLink_fitting htext hinput hhash) (fun row => ?_)
      cases row with
      | some row => trivial
      | none => exact ih

theorem createAliased_fitting {userId customAlias : String} {input : CreateLinkInput}
    {passwordHash : Option String} (halias : textOk customAlias = true)
    (hinput : input.fits = true) (hhash : textOk? passwordHash = true) :
    Fitting P tid (createAliased userId customAlias input passwordHash) := by
  refine fitting_bind (fitting_query halias) (fun existing => ?_)
  cases existing.head? with
  | some _ => exact rfl
  | none =>
      refine fitting_bind (insertLink_fitting halias hinput hhash) (fun row => ?_)
      cases row with
      | none => exact rfl
      | some row => exact fitting_bind (invalidateLinkCache_fitting _) (fun _ => by trivial)

theorem createLink_fitting {userId : String} {input : CreateLinkInput}
    (halias : ∀ a, truthy input.customAlias = some a → textOk a = true)
    (hinput : input.fits = true) : Fitting P tid (createLink userId input) := by
  refine hashGiven_fitting (fun hash hhash => ?_)
  rcases hcustom : truthy input.customAlias with _ | customAlias
  · exact createGenerated_fitting hinput hhash _
  · exact createAliased_fitting (halias customAlias hcustom) hinput hhash

theorem listLinks_fitting {countFirst : Bool} {userId : String} {options : ListLinksOptions}
    (hlimit : rowCountOk options.limit = true) (hoffset : rowCountOk options.offset = true) :
    Fitting P tid (listLinks countFirst userId options) := by
  have hrows : (Stmt.listLinks userId options.limit options.offset).fits = true := by
    rw [Stmt.fits, hlimit, hoffset]
    rfl
  have hcount : (Stmt.countLinks userId).fits = true := rfl
  cases countFirst with
  | true =>
      refine fitting_bind (fitting_query hcount) (fun total => ?_)
      exact fitting_bind (fitting_query hrows) (fun rows => by trivial)
  | false =>
      refine fitting_bind (fitting_query hrows) (fun rows => ?_)
      exact fitting_bind (fitting_query hcount) (fun total => by trivial)

/-- The values of an update, but for its hash. -/
def UpdateLinkInput.fits (input : UpdateLinkInput) : Bool :=
  input.destinationUrl.all textOk && input.expiresAt.all timestampOk? &&
    input.maxClicks.all (fun n => int4Ok? n && maxClicksCheck n)

theorem setListOf_fits {input : UpdateLinkInput} {passwordHash : Option (Option String)} :
    (setListOf input passwordHash).values.all SqlValue.fits
      = (input.fits && passwordHash.all textOk?) := by
  have hactive : input.isActive.all (fun b => (SqlValue.boolean b).fits) = true := by
    cases input.isActive <;> rfl
  rw [setListOf_all, hactive, Bool.and_true]
  rfl

theorem getLink_fitting {userId linkId : String} (hid : (Uuid.read linkId).isSome = true) :
    Fitting P tid (getLink userId linkId) := by
  refine fitting_bind (fitting_query ?_) (fun rows => by trivial)
  exact hid

theorem sendUpdate_fitting {userId linkId : String} {s : SetList}
    (hid : (Uuid.read linkId).isSome = true) (hs : s.values.all SqlValue.fits = true) :
    Fitting P tid (sendUpdate userId linkId s) := by
  unfold sendUpdate
  by_cases hempty : s.setClauses.length = 0
  · rw [if_pos hempty]
    exact getLink_fitting hid
  · rw [if_neg hempty]
    refine fitting_bind (fitting_query ?_) (fun rows => ?_)
    · simp only [Stmt.fits, List.all_append, hs, hid, List.all_cons, List.all_nil, SqlValue.fits,
        Bool.and_true]
    · cases rows.head? with
      | none => trivial
      | some row => exact fitting_bind (invalidateLinkCache_fitting _) (fun _ => by trivial)

theorem updateLink_fitting {userId linkId : String} {input : UpdateLinkInput}
    (hid : (Uuid.read linkId).isSome = true) (hinput : input.fits = true) :
    Fitting P tid (updateLink userId linkId input) := by
  refine hashField_fitting (fun hash hhash => sendUpdate_fitting hid ?_)
  rw [setListOf_fits, hinput, Bool.true_and, Option.all_eq_true]
  exact hhash

end Functions

end ClickScope
