import ClickScope.Core.Errors
import ClickScope.Core.Rows
import ClickScope.Uuid.Reading
import Mathlib.Data.List.Sort

/-!
# Postgres

The tables, the statements the services send, and what Postgres does with
each of them.

Outside the worker every statement runs in autocommit, so it is one atomic
step on the committed tables. The worker's click transaction is the one place
several statements belong together. Its uncommitted work is kept apart, in
`ClickTx`, and reaches the tables only when the transaction commits. Until
then it holds the locks Postgres would hold: the new click row blocks another
insert of the same `job_id` and, through the foreign key, a delete of its link;
the new version of the link row blocks every other write to that row. A
statement that would have to wait is not enabled, and `exec` answers `none`.
Only the worker's statements can lose their connection; a statement of the
pool is taken to reach the server, which may still refuse it.

`now()` is the moment a transaction began, and outside the worker a statement is
a transaction. One that had to wait for a lock is executed later than that, and
sees no row that was made in between. `Choice.waited` says how long ago the
moment was. The sweep locks its rows one by one; here it takes all of them at
once, when it can have them.

An update installs the row version it computed when it ran, so a lost update
is expressible here; that it does not happen is the locks' doing and is
proved, not assumed.

`gen_random_uuid` never returns an id twice: a statement that draws one is
enabled only for an id outside `Db.ids`, which lists all ids drawn so far.

The statement of a partial update is the one the service assembles at run
time: a list of set clauses naming parameters by number, and the values.

The id of a link that a request names is read as a `uuid`, and compared as one.
All other ids come from the tables, by a token or by a job, so they are texts of
the one form in which Postgres shows a `uuid`, and are compared as they are.

Two statements cast a count to `integer`. No table is taken to be so large that
a count overflows it.

## Main definitions

* `Postgres`: What the tables' meaning takes from the server's locale and
  session time zone.
* `Fault`: How the delivery of a command can fail.
* `Choice`: What the environment supplies to one operation.
* `Db`: The committed tables and the open click transactions.
* `Stmt`, `Stmt.Rows`: The statements and their results.
* `Db.exec`: What a statement does.
-/

namespace ClickScope

/-- What the server's settings contribute: the locale's `lower`, and
    `date_trunc('day', _)` in the session time zone. The start of a day can
    lie before the epoch where no click does. -/
structure Postgres where
  lower : String → String
  dateTrunc : Nat → Int

/-- How a command can fail: not at all, before taking effect, or after it,
    with only the acknowledgement lost. -/
inductive Fault : Type
  | none
  | lost
  | unacknowledged
deriving DecidableEq, Repr

/-- The identity claims of a Google token payload. -/
structure IdTokenPayload where
  sub : Option String
  email : Option String
  emailVerified : Option Bool
deriving DecidableEq, Repr

/-- What the environment supplies to one operation: a random draw, a fault, how
    long ago `now()` was, and Google's answer where Google is asked. -/
structure Choice where
  draw : String := ""
  fault : Fault := .none
  waited : Nat := 0
  idToken : Option String := none
  payload : Option IdTokenPayload := none
deriving DecidableEq, Repr

/-- The columns an account is inserted with; the others take their default. -/
structure NewUser where
  email : String
  passwordHash : Option String
  oauthProvider : Option String
  oauthId : Option String
  emailVerified : Bool
deriving DecidableEq, Repr

/-- The columns a link is inserted with. -/
structure NewLink where
  userId : String
  shortCode : String
  destinationUrl : String
  passwordHash : Option String
  expiresAt : Option Int
  maxClicks : Option Int
deriving DecidableEq, Repr

/-- The columns a partial update can assign. -/
inductive LinkColumn : Type
  | destinationUrl
  | expiresAt
  | maxClicks
  | isActive
  | passwordHash
deriving DecidableEq, Repr

/-- One item of a `SET` list: `column = $n`, or `updated_at = now()`. -/
inductive SetClause : Type
  | param (col : LinkColumn) (n : Nat)
  | updatedAtNow
deriving DecidableEq, Repr

/-- A value bound to a parameter. An account is named by its id as the tables
    have it. -/
inductive SqlValue : Type
  | text (s : Option String)
  | timestamp (t : Option Int)
  | integer (n : Option Int)
  | boolean (b : Bool)
  | uuid (s : String)
  | account (id : String)
deriving DecidableEq, Repr

/-- The uncommitted work of one click transaction. The worker inserts at most
    one click and updates at most one link in it. -/
structure ClickTx where
  tid : Nat
  aborted : Bool
  inserted : Option ClickRow
  bumped : Option LinkRow
deriving DecidableEq, Repr

/-- The committed tables, the open click transactions, and every id
    `gen_random_uuid` has returned. -/
structure Db where
  users : List UserRow
  links : List LinkRow
  clicks : List ClickRow
  txs : List ClickTx
  ids : List String
deriving DecidableEq, Repr

/-- The statements of the services and the worker. -/
inductive Stmt : Type
  /-- `SELECT id FROM users WHERE lower(email) = lower($1)` -/
  | userIdByEmail (email : String)
  /-- The login lookup: the same condition, with `password_hash`. -/
  | userByEmail (email : String)
  /-- `... FROM users WHERE oauth_provider = $1 AND oauth_id = $2` -/
  | userByOAuth (provider oauthId : String)
  /-- `INSERT INTO users ... RETURNING ...` -/
  | insertUser (u : NewUser)
  /-- `... FROM users WHERE id = $1` -/
  | userById (id : String)
  /-- `SELECT id FROM links WHERE short_code = $1` -/
  | linkIdByCode (shortCode : String)
  /-- `INSERT INTO links ... RETURNING ...` -/
  | insertLink (l : NewLink)
  /-- `... WHERE user_id = $1 ORDER BY created_at DESC, id DESC LIMIT $2 OFFSET $3` -/
  | listLinks (userId : String) (limit offset : Int)
  /-- `SELECT count(*)::int AS count FROM links WHERE user_id = $1` -/
  | countLinks (userId : String)
  /-- `... FROM links WHERE id = $1 AND user_id = $2` -/
  | linkById (id userId : String)
  /-- `UPDATE links SET ... WHERE id = $i AND user_id = $u RETURNING ...` -/
  | updateLink (set : List SetClause) (idParam userParam : Nat) (values : List SqlValue)
  /-- `DELETE FROM links WHERE id = $1 AND user_id = $2 RETURNING id, short_code` -/
  | deleteLink (id userId : String)
  /-- `SELECT <redirect columns> FROM links WHERE short_code = $1` -/
  | redirectLookup (shortCode : String)
  /-- The daily aggregation over one owned link's clicks. -/
  | clickStats (id userId : String) (since : Int)
  /-- `UPDATE links SET is_active = false ... WHERE ... expires_at <= now()` -/
  | sweepExpired
  | begin
  /-- `INSERT INTO clicks ... ON CONFLICT (job_id) DO NOTHING RETURNING id` -/
  | insertClick (data : ClickJobData)
  /-- `UPDATE links SET click_count = click_count + 1 WHERE id = $1` -/
  | incrementClickCount (linkId : String)
  | commit
  | rollback
deriving DecidableEq, Repr

/-- The rows, or the row count, a statement answers with. -/
@[reducible] def Stmt.Rows : Stmt → Type
  | .userIdByEmail _ => List String
  | .userByEmail _ => List UserRow
  | .userByOAuth _ _ => List UserRow
  | .insertUser _ => List UserRow
  | .userById _ => List UserRow
  | .linkIdByCode _ => List String
  | .insertLink _ => List LinkRow
  | .listLinks _ _ _ => List LinkRow
  | .countLinks _ => Nat
  | .linkById _ _ => List LinkRow
  | .updateLink _ _ _ _ => List LinkRow
  | .deleteLink _ _ => List (String × String)
  | .redirectLookup _ => List LinkRow
  | .clickStats _ _ _ => List (Int × Nat)
  | .sweepExpired => Nat
  | .begin => Unit
  | .insertClick _ => Nat
  | .incrementClickCount _ => Nat
  | .commit => Unit
  | .rollback => Unit

/-- The largest value of the `integer` type. -/
def INT4_MAX : Int := 2147483647

/-- The smallest value of the `integer` type. -/
def INT4_MIN : Int := -2147483648

/-- The largest value of the `bigint` type. -/
def INT8_MAX : Int := 9223372036854775807

/-- The smallest value of the `bigint` type. -/
def INT8_MIN : Int := -9223372036854775808

/-- The error of a number outside its integer type. It is bound as text, and
    from `1e21` on the text has an exponent, which is no integer literal. -/
def rangeError (n : Int) : DbError :=
  if n.natAbs < 10 ^ 21 then .numericValueOutOfRange else .invalidTextRepresentation

theorem rangeError_ne_uniqueViolation (n : Int) : rangeError n ≠ .uniqueViolation := by
  unfold rangeError
  split_ifs <;> simp only [ne_eq, reduceCtorEq, not_false_eq_true]

/-- Postgres text cannot hold the NUL character. -/
def textOk (s : String) : Bool :=
  s.toList.all (fun c => c != Char.ofNat 0)

def textOk? : Option String → Bool
  | none => true
  | some s => textOk s

def int4Ok? : Option Int → Bool
  | none => true
  | some n => decide (INT4_MIN ≤ n) && decide (n ≤ INT4_MAX)

def int8Ok (n : Int) : Bool := decide (INT8_MIN ≤ n) && decide (n ≤ INT8_MAX)

/-- The first instant of the `timestamptz` type, in the year 4714 BC. -/
def TIMESTAMP_MIN : Int := -210866803200000

/-- The end of the `timestamptz` type, the beginning of the year 294277. -/
def TIMESTAMP_END : Int := 9224318016000000

def timestampOk? : Option Int → Bool
  | none => true
  | some t => decide (TIMESTAMP_MIN ≤ t) && decide (t < TIMESTAMP_END)

/-- `links_max_clicks_positive_check` -/
def maxClicksCheck : Option Int → Bool
  | none => true
  | some n => decide (0 < n)

/-- The error of a text that is to be read as a `uuid`, if it says none. -/
def uuidError (s : String) : Option DbError :=
  match Uuid.read s with
  | some _ => none
  | none => if textOk s then some .invalidTextRepresentation else some .invalidByteSequence

theorem uuidError_eq_none {s : String} : uuidError s = none ↔ (Uuid.read s).isSome = true := by
  unfold uuidError
  cases Uuid.read s with
  | some _ => exact ⟨fun _ => rfl, fun _ => rfl⟩
  | none => cases textOk s <;> exact ⟨fun h => (by cases h), fun h => (by cases h)⟩

/-- The error a bound value raises before the statement runs, if any. -/
def SqlValue.bindError : SqlValue → Option DbError
  | .text s => if textOk? s then none else some .invalidByteSequence
  | .integer n => if int4Ok? n then none else some (rangeError (n.getD 0))
  | .timestamp t => if timestampOk? t then none else some .datetimeFieldOverflow
  | .boolean _ => none
  | .uuid s => uuidError s
  | .account _ => none

/-- The value of parameter `$n`. -/
def param (values : List SqlValue) (n : Nat) : Option SqlValue :=
  match n with
  | 0 => none
  | k + 1 => values[k]?

/-- Assign a value to a column of a row. -/
def assign (row : LinkRow) : LinkColumn → SqlValue → Except DbError LinkRow
  | .destinationUrl, .text (some u) => .ok { row with destinationUrl := u }
  | .destinationUrl, .text none => .error .notNullViolation
  | .expiresAt, .timestamp t => .ok { row with expiresAt := t }
  | .maxClicks, .integer n => .ok { row with maxClicks := n }
  | .isActive, .boolean b => .ok { row with isActive := b }
  | .passwordHash, .text h => .ok { row with passwordHash := h }
  | _, _ => .error .datatypeMismatch

/-- Apply a `SET` list to a row, clause by clause. -/
def applySet (now : Nat) (values : List SqlValue) :
    List SetClause → LinkRow → Except DbError LinkRow
  | [], row => .ok row
  | .updatedAtNow :: cs, row => applySet now values cs { row with updatedAt := now }
  | .param col n :: cs, row =>
      match param values n with
      | none => .error .datatypeMismatch
      | some v =>
          match assign row col v with
          | .error e => .error e
          | .ok row' => applySet now values cs row'

namespace Db

/-- Some open transaction holds an uncommitted new version of the link row. -/
def rowLocked (db : Db) (linkId : String) : Bool :=
  db.txs.any (fun t => t.bumped.any (fun r => r.id == linkId))

/-- Some open transaction holds an uncommitted click on the link, and with it
    a key-share lock on the link row. -/
def keyShared (db : Db) (linkId : String) : Bool :=
  db.txs.any (fun t => t.inserted.any (fun r => r.linkId == linkId))

/-- Another open transaction holds an uncommitted click with this job id. -/
def jobPending (db : Db) (tid : Nat) (jobId : String) : Bool :=
  db.txs.any (fun t => t.tid != tid && t.inserted.any (fun r => r.jobId == jobId))

/-- The open transaction of a worker attempt. -/
def txOf (db : Db) (tid : Nat) : Option ClickTx :=
  db.txs.find? (fun t => t.tid == tid)

/-- Replace the open transaction of `tid`. -/
def setTx (db : Db) (tid : Nat) (f : ClickTx → ClickTx) : Db :=
  { db with txs := db.txs.map (fun t => if t.tid == tid then f t else t) }

/-- Close the open transaction of `tid`, dropping its uncommitted work. -/
def closeTx (db : Db) (tid : Nat) : Db :=
  { db with txs := db.txs.filter (fun t => t.tid != tid) }

/-- `users_password_xor_oauth_check` -/
def passwordXorOauth (u : NewUser) : Bool :=
  (u.passwordHash.isSome && u.oauthProvider.isNone && u.oauthId.isNone) ||
    (u.passwordHash.isNone && u.oauthProvider.isSome && u.oauthId.isSome)

/-- A row that one of the unique constraints on `users` compares equal. Null
    identities never compare equal. -/
def userClash (pg : Postgres) (u : NewUser) (row : UserRow) : Bool :=
  pg.lower row.email == pg.lower u.email ||
    (u.oauthProvider.isSome && u.oauthId.isSome &&
      row.oauthProvider == u.oauthProvider && row.oauthId == u.oauthId)

def newUserRow (now : Nat) (id : String) (u : NewUser) : UserRow :=
  { id := id, email := u.email, passwordHash := u.passwordHash,
    oauthProvider := u.oauthProvider, oauthId := u.oauthId, emailVerified := u.emailVerified,
    createdAt := now, updatedAt := now }

def insertUser (pg : Postgres) (now : Nat) (id : String) (u : NewUser) (db : Db) :
    Except DbError (List UserRow) × Db :=
  let drawn := { db with ids := id :: db.ids }
  if (textOk u.email && textOk? u.passwordHash && textOk? u.oauthProvider
      && textOk? u.oauthId) = false then (.error .invalidByteSequence, db)
  else if passwordXorOauth u = false then (.error .checkViolation, drawn)
  else if db.users.any (userClash pg u) then (.error .uniqueViolation, drawn)
  else
    let row := newUserRow now id u
    (.ok [row], { drawn with users := db.users ++ [row] })

/-- The accounts the `WHERE lower(email) = lower($1)` condition selects. -/
def usersByEmail (pg : Postgres) (email : String) (db : Db) : Except DbError (List UserRow) :=
  if textOk email then .ok (db.users.filter (fun u => pg.lower u.email == pg.lower email))
  else .error .invalidByteSequence

/-- The accounts the `WHERE oauth_provider = $1 AND oauth_id = $2` condition selects. -/
def usersByOAuth (provider oauthId : String) (db : Db) : Except DbError (List UserRow) :=
  if textOk provider && textOk oauthId then
    .ok (db.users.filter (fun u => u.oauthProvider == some provider && u.oauthId == some oauthId))
  else .error .invalidByteSequence

def newLinkRow (now : Nat) (id : String) (l : NewLink) : LinkRow :=
  { id := id, userId := l.userId, shortCode := l.shortCode, destinationUrl := l.destinationUrl,
    passwordHash := l.passwordHash, expiresAt := l.expiresAt, maxClicks := l.maxClicks,
    clickCount := 0, isActive := true, createdAt := now, updatedAt := now }

def insertLink (now : Nat) (id : String) (l : NewLink) (db : Db) :
    Except DbError (List LinkRow) × Db :=
  let drawn := { db with ids := id :: db.ids }
  if (textOk l.shortCode && textOk l.destinationUrl && textOk? l.passwordHash) = false then
    (.error .invalidByteSequence, db)
  else if int4Ok? l.maxClicks = false then (.error (rangeError (l.maxClicks.getD 0)), db)
  else if timestampOk? l.expiresAt = false then (.error .datetimeFieldOverflow, db)
  else if maxClicksCheck l.maxClicks = false then (.error .checkViolation, drawn)
  else if db.links.any (fun r => r.shortCode == l.shortCode) then (.error .uniqueViolation, drawn)
  else if db.users.any (fun u => u.id == l.userId) = false then (.error .foreignKeyViolation, drawn)
  else
    let row := newLinkRow now id l
    (.ok [row], { drawn with links := db.links ++ [row] })

/-- Newest first, ties broken by the larger id. -/
def newerFirst (a b : LinkRow) : Prop :=
  b.createdAt < a.createdAt ∨ (a.createdAt = b.createdAt ∧ b.id ≤ a.id)

instance : DecidableRel newerFirst := fun _ _ => inferInstanceAs (Decidable (_ ∨ _))

def listLinks (userId : String) (limit offset : Int) (db : Db) : Except DbError (List LinkRow) :=
  if int8Ok limit = false then .error (rangeError limit)
  else if int8Ok offset = false then .error (rangeError offset)
  else if limit < 0 ∨ offset < 0 then .error .invalidRowCount
  else .ok ((((db.links.filter (fun r => r.userId == userId)).insertionSort newerFirst).drop
    offset.toNat).take limit.toNat)

def countLinks (userId : String) (db : Db) : Nat :=
  (db.links.filter (fun r => r.userId == userId)).length

/-- The `WHERE id = $1 AND user_id = $2` condition. The first parameter is
    compared as the `uuid` it says. -/
def ownedBy (id userId : String) (r : LinkRow) : Bool :=
  Uuid.read id == some r.id && r.userId == userId

def linkById (id userId : String) (db : Db) : Except DbError (List LinkRow) :=
  match uuidError id with
  | some e => .error e
  | none => .ok (db.links.filter (ownedBy id userId))

/-- A statement that began at `start` and went on now sees the row. -/
def sees (now start : Nat) (r : LinkRow) : Bool :=
  decide (now ≤ start) || decide (r.createdAt ≤ start)

/-- A partial update: bind errors come first, then the rows the condition
    selects are rewritten and checked. It has only waited for a row it sees. -/
def updateLink (now start : Nat) (set : List SetClause) (idParam userParam : Nat)
    (values : List SqlValue) (db : Db) : Option (Except DbError (List LinkRow) × Db) :=
  match values.findSome? SqlValue.bindError with
  | some e => some (.error e, db)
  | none =>
      match param values idParam, param values userParam with
      | some (.uuid id), some (.account userId) =>
          match db.links.find? (ownedBy id userId) with
          | none => some (.ok [], db)
          | some row =>
              if db.rowLocked row.id || !sees now start row then none
              else
                match applySet start values set row with
                | .error e => some (.error e, db)
                | .ok row' =>
                    if maxClicksCheck row'.maxClicks = false then some (.error .checkViolation, db)
                    else some (.ok [row'], { db with
                      links := db.links.map (fun r => if ownedBy id userId r then row' else r) })
      | _, _ => some (.error .datatypeMismatch, db)

/-- A delete, with the clicks that go with the link. -/
def deleteLink (id userId : String) (db : Db) :
    Option (Except DbError (List (String × String)) × Db) :=
  match uuidError id with
  | some e => some (.error e, db)
  | none =>
      match db.links.find? (ownedBy id userId) with
      | none => some (.ok [], db)
      | some row =>
          if db.rowLocked row.id || db.keyShared row.id then none
          else some (.ok [(row.id, row.shortCode)], { db with
            links := db.links.filter (fun r => !ownedBy id userId r),
            clicks := db.clicks.filter (fun c => c.linkId != row.id) })

def redirectLookup (shortCode : String) (db : Db) : Except DbError (List LinkRow) :=
  if textOk shortCode then .ok (db.links.filter (fun r => r.shortCode == shortCode))
  else .error .invalidByteSequence

/-- The clicks of an owned link since an instant, counted per day bucket. -/
def dailyCounts (pg : Postgres) (id userId : String) (since : Int) (db : Db) : List (Int × Nat) :=
  let joined := db.clicks.filter (fun c => Uuid.read id == some c.linkId &&
    decide (since ≤ (c.clickedAt : Int)) && db.links.any (ownedBy id userId))
  let days := joined.map (fun c => pg.dateTrunc c.clickedAt)
  (days.dedup.insertionSort (· ≤ ·)).map (fun d => (d, days.count d))

def clickStats (pg : Postgres) (id userId : String) (since : Int) (db : Db) :
    Except DbError (List (Int × Nat)) :=
  match uuidError id with
  | some e => .error e
  | none =>
      if timestampOk? (some since) = false then .error .datetimeFieldOverflow
      else .ok (db.dailyCounts pg id userId since)

/-- The condition of the expiry sweep, for one that began at `start`. -/
def sweepMatches (now start : Nat) (r : LinkRow) : Bool :=
  r.isActive && r.expiresAt.any (fun t => decide (t ≤ (start : Int))) && sees now start r

def deactivate (now : Nat) (r : LinkRow) : LinkRow :=
  { r with isActive := false, updatedAt := now }

def sweepExpired (now start : Nat) (db : Db) : Option (Nat × Db) :=
  if db.links.any (fun r => sweepMatches now start r && db.rowLocked r.id) then none
  else some ((db.links.filter (sweepMatches now start)).length, { db with
    links := db.links.map (fun r => if sweepMatches now start r then deactivate start r else r) })

def newClickRow (now : Nat) (id : String) (data : ClickJobData) : ClickRow :=
  { id := id, linkId := data.linkId, clickedAt := now, referrer := data.referrer,
    userAgent := data.userAgent, jobId := data.clickId }

/-- `BEGIN`, on the attempt's own connection. -/
def beginTx (tid : Nat) (fault : Fault) (db : Db) : Except DbError Unit × Db :=
  match fault with
  | .none =>
      match db.txOf tid with
      | some _ => (.ok (), db)
      | none => (.ok (), { db with
          txs := { tid := tid, aborted := false, inserted := none, bumped := none } :: db.txs })
  | _ => (.error .connectionFailure, db)

/-- A failing statement aborts its transaction and gives up its work. -/
def abortTx (tid : Nat) (e : DbError) (db : Db) : Option (Except DbError Nat × Db) :=
  some (.error e, db.setTx tid
    (fun t => { t with aborted := true, inserted := none, bumped := none }))

/-- The idempotent click insert. A conflicting uncommitted insert makes it
    wait; a conflicting committed one makes it insert nothing. -/
def insertClick (now : Nat) (tid : Nat) (ch : Choice) (data : ClickJobData) (db : Db) :
    Option (Except DbError Nat × Db) :=
  match db.txOf tid with
  | none => some (.error .noActiveTransaction, db)
  | some t =>
      if t.aborted then some (.error .noActiveTransaction, db)
      else if t.inserted.isSome then none
      else if ch.fault ≠ .none then abortTx tid .connectionFailure db
      else if (textOk? data.referrer && textOk? data.userAgent) = false then
        abortTx tid .invalidByteSequence db
      else if db.jobPending tid data.clickId then none
      else if db.clicks.any (fun c => c.jobId == data.clickId) then some (.ok 0, db)
      else if db.links.any (fun r => r.id == data.linkId) = false then
        abortTx tid .foreignKeyViolation db
      else if ch.draw ∈ db.ids then none
      else
        let row := newClickRow (now - ch.waited) ch.draw data
        some (.ok 1, { db.setTx tid (fun t => { t with inserted := some row }) with
          ids := ch.draw :: db.ids })

/-- The counter update: the new version of the row is computed here, and
    installed when the transaction commits. -/
def incrementClickCount (tid : Nat) (ch : Choice) (linkId : String) (db : Db) :
    Option (Except DbError Nat × Db) :=
  match db.txOf tid with
  | none => some (.error .noActiveTransaction, db)
  | some t =>
      if t.aborted then some (.error .noActiveTransaction, db)
      else if t.bumped.isSome then none
      else if ch.fault ≠ .none then abortTx tid .connectionFailure db
      else
        match db.links.find? (fun r => r.id == linkId) with
        | none => some (.ok 0, db)
        | some row =>
            if db.rowLocked row.id then none
            else if INT4_MAX < (row.clickCount : Int) + 1 then
              abortTx tid .numericValueOutOfRange db
            else some (.ok 1, db.setTx tid (fun t =>
              { t with bumped := some { row with clickCount := row.clickCount + 1 } }))

/-- Move a transaction's uncommitted work into the tables. -/
def applyTx (t : ClickTx) (db : Db) : Db :=
  { db with
    clicks := db.clicks ++ t.inserted.toList,
    links := db.links.map (fun r =>
      match t.bumped with
      | some b => if r.id == b.id then b else r
      | none => r) }

/-- `COMMIT`. When only the acknowledgement is lost the work is committed. -/
def commitTx (tid : Nat) (fault : Fault) (db : Db) : Except DbError Unit × Db :=
  match db.txOf tid with
  | none => (.ok (), db)
  | some t =>
      match fault with
      | .none => (.ok (), (if t.aborted then db else db.applyTx t).closeTx tid)
      | .lost => (.error .connectionFailure, db.closeTx tid)
      | .unacknowledged =>
          (.error .connectionFailure, (if t.aborted then db else db.applyTx t).closeTx tid)

/-- `ROLLBACK`. A failure means the connection is gone, which aborts too. -/
def rollbackTx (tid : Nat) (fault : Fault) (db : Db) : Except DbError Unit × Db :=
  match fault with
  | .none => (.ok (), db.closeTx tid)
  | _ => (.error .connectionFailure, db.closeTx tid)

/-- What a statement sent by thread `tid` does, if it does not have to wait. -/
def exec (pg : Postgres) (now : Nat) (tid : Nat) :
    (s : Stmt) → Choice → Db → Option (Except DbError s.Rows × Db)
  | .userIdByEmail email, _, db => some ((db.usersByEmail pg email).map (·.map (·.id)), db)
  | .userByEmail email, _, db => some (db.usersByEmail pg email, db)
  | .userByOAuth provider oauthId, _, db => some (db.usersByOAuth provider oauthId, db)
  | .insertUser u, ch, db =>
      if ch.draw ∈ db.ids then none else some (db.insertUser pg now ch.draw u)
  | .userById id, _, db => some (.ok (db.users.filter (fun u => u.id == id)), db)
  | .linkIdByCode code, _, db =>
      if textOk code then
        some (.ok ((db.links.filter (fun r => r.shortCode == code)).map (·.id)), db)
      else some (.error .invalidByteSequence, db)
  | .insertLink l, ch, db =>
      if ch.draw ∈ db.ids then none else some (db.insertLink now ch.draw l)
  | .listLinks userId limit offset, _, db => some (db.listLinks userId limit offset, db)
  | .countLinks userId, _, db => some (.ok (db.countLinks userId), db)
  | .linkById id userId, _, db => some (db.linkById id userId, db)
  | .updateLink set i u values, ch, db => db.updateLink now (now - ch.waited) set i u values
  | .deleteLink id userId, _, db => db.deleteLink id userId
  | .redirectLookup code, _, db => some (db.redirectLookup code, db)
  | .clickStats id userId since, _, db => some (db.clickStats pg id userId since, db)
  | .sweepExpired, ch, db =>
      match db.sweepExpired now (now - ch.waited) with
      | none => none
      | some (n, db') => some (.ok n, db')
  | .begin, ch, db => some (db.beginTx tid ch.fault)
  | .insertClick data, ch, db => db.insertClick now tid ch data
  | .incrementClickCount linkId, ch, db => db.incrementClickCount tid ch linkId
  | .commit, ch, db => some (db.commitTx tid ch.fault)
  | .rollback, ch, db => some (db.rollbackTx tid ch.fault)

end Db

end ClickScope
