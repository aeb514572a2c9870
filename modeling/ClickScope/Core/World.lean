import ClickScope.Async.Pool
import ClickScope.Core.Redis
import ClickScope.Core.Jwt

/-!
# The World and its Operations

Everything the service's programs share, and the operations they await.

`World` is the database, the shared Redis, the click queue, the clock and the
random values drawn so far. An `Op` is one awaited call to one of them, so the
programs of the service are `Prog`s over `Op`, and two programs can interleave
between any two of their operations.

`Platform` collects what the code takes from outside the repository: Postgres'
locale and time zone, the token and hash libraries, and the configured token
lifetime.

Reading the clock is an operation of its own. The code reads it inside
synchronous stretches too, where no other program runs in between; allowing
one there only adds interleavings.

## Main definitions

* `Platform`: What the code takes from outside.
* `World`: The shared state of all processes.
* `Op`, `Op.Res`: The awaited operations and their results.
* `exec`: What an operation does.
* `Api`: The type of the service's programs.

## Theorems

* `exec_db_inv`, `exec_redis_inv`, `exec_other_inv`: What each kind of
  operation can change.
* `exec_db_eq`, `exec_redis_eq`, `exec_now_eq`: What it leaves alone.
* `exec_db_matches`: A statement in two worlds at once.
-/

namespace ClickScope

open Async

/-- What the code takes from outside the repository: the database server's
    settings, the two libraries, what Express makes of the address of a redirect,
    the configured session lifetime in seconds and frontend address, and the salt
    of the hash made at startup. -/
structure Platform where
  pg : Postgres
  jwt : Jwt
  bcrypt : Bcrypt
  encodeUrl : String → String
  jwtExpiresIn : Int
  frontendUrl : String
  dummySalt : String

/-- A platform on the sample libraries, with UTC days and a session lifetime
    of a week. Its addresses need no encoding. -/
def samplePlatform : Platform :=
  { pg := { lower := id, dateTrunc := fun t => (t : Int) / 86400000 * 86400000 },
    jwt := sampleJwt, bcrypt := sampleBcrypt, encodeUrl := id, jwtExpiresIn := 604800,
    frontendUrl := "http://localhost:5173", dummySalt := "" }

/-- The shared state: the database, Redis, the jobs the click queue holds, the
    values `randomUUID` and `randomBytes` have returned, and the clock in
    milliseconds. -/
structure World where
  db : Db
  redis : Redis
  queue : List ClickJobData
  drawn : List String
  now : Nat

/-- Two ids, as the tables have them. -/
def firstId : String := "6f1c0a52-7c53-4a67-9d5c-0b8f6f8f7e01"

def secondId : String := "6f1c0a52-7c53-4a67-9d5c-0b8f6f8f7e02"

/-- The first of them, as a client may write it. -/
def firstIdWritten : String := "6F1C0A52-7C53-4A67-9D5C-0B8F6F8F7E01"

/-- Empty tables, an empty Redis and an empty queue. -/
def emptyWorld : World :=
  { db := { users := [], links := [], clicks := [], txs := [], ids := [] },
    redis := Redis.empty, queue := [], drawn := [], now := 0 }

/-- The empty world with one account, whose id is `u`. -/
def ownerWorld : World :=
  { emptyWorld with db := { emptyWorld.db with users := [
      { id := "u", email := "a@b.c", passwordHash := some "$", oauthProvider := none,
        oauthId := none, emailVerified := false, createdAt := 0, updatedAt := 0 }] } }

/-- One awaited operation. -/
inductive Op : Type
  /-- A statement through the pool, or on a worker attempt's connection. -/
  | db (s : Stmt)
  /-- `pool.connect()`: a connection for a worker attempt. -/
  | poolConnect
  | redis (c : RedisCmd)
  /-- `clickQueue.add('record-click', data, { jobId: data.clickId })` -/
  | enqueue (data : ClickJobData)
  /-- `Date.now()` -/
  | dateNow
  | randomUUID
  /-- `randomBytes(32).toString('base64url')` -/
  | randomState
  /-- `customAlphabet(ALPHABET, DEFAULT_SHORT_CODE_LENGTH)()` -/
  | generateId
  | bcryptHash (plain : String)
  | bcryptCompare (plain hash : String)
  /-- `jwt.sign(claims, JWT_SECRET, { expiresIn })` -/
  | jwtSign (claims : JwtPayload) (ttl : Int)
  /-- `client.getToken(code)`: the identity token, if Google returned one. -/
  | getToken (code : String)
  /-- `client.verifyIdToken(...)`: the payload of a verified identity token. -/
  | verifyIdToken (idToken : String)
deriving DecidableEq, Repr

@[reducible] def Op.Res : Op → Type
  | .db s => Except DbError s.Rows
  | .poolConnect => Except DbError Unit
  | .redis c => Except RedisError c.Reply
  | .enqueue _ => Except Unit Unit
  | .dateNow => Nat
  | .randomUUID => String
  | .randomState => String
  | .generateId => String
  | .bcryptHash _ => String
  | .bcryptCompare _ _ => Bool
  | .jwtSign _ _ => String
  | .getToken _ => Except Unit (Option String)
  | .verifyIdToken _ => Except Unit (Option IdTokenPayload)

/-- Adding a job whose id the queue already holds changes nothing. -/
def addJob (data : ClickJobData) (queue : List ClickJobData) : List ClickJobData :=
  if queue.any (fun j => j.clickId == data.clickId) then queue else queue ++ [data]

/-- What an operation performed by thread `tid` does, if it is enabled. -/
def exec (P : Platform) (tid : Nat) :
    (op : Op) → Choice → World → Option (op.Res × World)
  | .db s, ch, w =>
      match w.db.exec P.pg w.now tid s ch with
      | none => none
      | some (r, db) => some (r, { w with db := db })
  | .poolConnect, ch, w =>
      match ch.fault with
      | .none => some (.ok (), w)
      | _ => some (.error .connectionFailure, w)
  | .redis c, ch, w =>
      let (r, redis) := w.redis.exec w.now c ch.fault
      some (r, { w with redis := redis })
  | .enqueue data, ch, w =>
      match ch.fault with
      | .none => some (.ok (), { w with queue := addJob data w.queue })
      | .lost => some (.error (), w)
      | .unacknowledged => some (.error (), { w with queue := addJob data w.queue })
  | .dateNow, _, w => some (w.now, w)
  | .randomUUID, ch, w =>
      if ch.draw ∈ w.drawn then none else some (ch.draw, { w with drawn := ch.draw :: w.drawn })
  | .randomState, ch, w =>
      if ch.draw ∈ w.drawn then none else some (ch.draw, { w with drawn := ch.draw :: w.drawn })
  | .generateId, ch, w => some (ch.draw, w)
  | .bcryptHash plain, ch, w => some (P.bcrypt.hash plain ch.draw, w)
  | .bcryptCompare plain hash, _, w => some (P.bcrypt.compare plain hash, w)
  | .jwtSign claims ttl, _, w => some (P.jwt.issue claims (seconds w.now) ttl, w)
  | .getToken _, ch, w =>
      match ch.fault with
      | .none => some (.ok ch.idToken, w)
      | _ => some (.error (), w)
  | .verifyIdToken _, ch, w =>
      match ch.fault with
      | .none => some (.ok ch.payload, w)
      | _ => some (.error (), w)

/-- The service's programs. -/
abbrev Api (α : Type) := Prog Op Op.Res Err α

/-- A statement through the pool; a database error is thrown. -/
def query (s : Stmt) : Api s.Rows :=
  .await (.db s) (fun r => match r with
    | .ok rows => .ret rows
    | .error e => .throw (.db e))

/-- A Redis command; an unreachable Redis is thrown. -/
def redis (c : RedisCmd) : Api c.Reply :=
  .await (.redis c) (fun r => match r with
    | .ok reply => .ret reply
    | .error _ => .throw .redis)

def dateNow : Api Nat := .await .dateNow .ret

def randomUUID : Api String := .await .randomUUID .ret

def jwtSign (claims : JwtPayload) (ttl : Int) : Api String := .await (.jwtSign claims ttl) .ret

/-- A statement changes only the database. -/
theorem exec_db_inv {P : Platform} {tid : Nat} {s : Stmt} {ch : Choice} {w w' : World}
    {r : (Op.db s).Res} (h : exec P tid (.db s) ch w = some (r, w')) :
    ∃ db, w.db.exec P.pg w.now tid s ch = some (r, db) ∧ w' = { w with db := db } := by
  simp only [exec] at h
  rcases hx : w.db.exec P.pg w.now tid s ch with _ | ⟨r', db⟩
  · simp only [hx, reduceCtorEq] at h
  · simp only [hx, Option.some.injEq, Prod.mk.injEq] at h
    exact ⟨db, by rw [h.1], h.2.symm⟩

/-- Outcomes of a statement that match on two databases match on two worlds. -/
theorem exec_db_matches {P : Platform} {tid : Nat} {s : Stmt} {ch : Choice} {w w' : World}
    {Rdb : Db → Db → Prop} {R : World → World → Prop}
    (hlift : ∀ db db', Rdb db db' → R { w with db := db } { w' with db := db' })
    (hs : Prog.Matches Rdb (w.db.exec P.pg w.now tid s ch) (w'.db.exec P.pg w'.now tid s ch)) :
    Prog.Matches R (exec P tid (.db s) ch w) (exec P tid (.db s) ch w') := by
  simp only [exec]
  rcases hx : w.db.exec P.pg w.now tid s ch with _ | ⟨r, db⟩ <;>
    rcases hy : w'.db.exec P.pg w'.now tid s ch with _ | ⟨r', db'⟩ <;> rw [hx, hy] at hs
  · exact Prog.matches_none
  · exact hs.elim
  · exact hs.elim
  · exact Prog.matches_some hs.1 (hlift db db' hs.2)

/-- A Redis command changes only Redis. -/
theorem exec_redis_inv {P : Platform} {tid : Nat} {c : RedisCmd} {ch : Choice} {w w' : World}
    {r : (Op.redis c).Res} (h : exec P tid (.redis c) ch w = some (r, w')) :
    (r, w'.redis) = w.redis.exec w.now c ch.fault ∧ w' = { w with redis := w'.redis } := by
  simp only [exec, Option.some.injEq, Prod.mk.injEq] at h
  rcases h with ⟨rfl, rfl⟩
  exact ⟨rfl, rfl⟩

/-- Any other operation moves at most the queue and the list of draws. -/
theorem exec_other_inv {P : Platform} {tid : Nat} {op : Op} {ch : Choice} {w w' : World}
    {r : op.Res} (hdb : ∀ s, op ≠ .db s) (hredis : ∀ c, op ≠ .redis c)
    (h : exec P tid op ch w = some (r, w')) :
    ∃ queue drawn, w' = { w with queue := queue, drawn := drawn } := by
  -- Outside of the two stores there are the draws and the queue.
  cases op with
  | db s => exact absurd rfl (hdb s)
  | redis c => exact absurd rfl (hredis c)
  | enqueue data =>
      cases hf : ch.fault <;> simp only [exec, hf, Option.some.injEq, Prod.mk.injEq] at h <;>
        exact ⟨_, _, h.2.symm⟩
  | randomUUID | randomState =>
      simp only [exec] at h
      split at h
      · exact absurd h (by simp only [reduceCtorEq, not_false_eq_true])
      · simp only [Option.some.injEq, Prod.mk.injEq] at h
        exact ⟨_, _, h.2.symm⟩
  | poolConnect | getToken t | verifyIdToken t =>
      cases hf : ch.fault <;> simp only [exec, hf, Option.some.injEq, Prod.mk.injEq] at h <;>
        exact ⟨_, _, h.2.symm⟩
  | dateNow | generateId | bcryptHash plain | bcryptCompare plain hash | jwtSign claims ttl =>
      simp only [exec, Option.some.injEq, Prod.mk.injEq] at h
      exact ⟨_, _, h.2.symm⟩

/-- An operation other than a statement leaves the database alone. -/
theorem exec_db_eq {P : Platform} {tid : Nat} {op : Op} {ch : Choice} {w w' : World} {r : op.Res}
    (hop : ∀ s, op ≠ .db s) (h : exec P tid op ch w = some (r, w')) : w'.db = w.db := by
  by_cases hc : ∀ c, op ≠ .redis c
  · rcases exec_other_inv hop hc h with ⟨queue, drawn, rfl⟩
    rfl
  · push Not at hc
    rcases hc with ⟨c, rfl⟩
    rw [(exec_redis_inv h).2]

/-- An operation other than a Redis command leaves Redis alone. -/
theorem exec_redis_eq {P : Platform} {tid : Nat} {op : Op} {ch : Choice} {w w' : World} {r : op.Res}
    (hop : ∀ c, op ≠ .redis c) (h : exec P tid op ch w = some (r, w')) :
    w'.redis = w.redis := by
  by_cases hs : ∀ s, op ≠ .db s
  · rcases exec_other_inv hs hop h with ⟨queue, drawn, rfl⟩
    rfl
  · push Not at hs
    rcases hs with ⟨s, rfl⟩
    rcases exec_db_inv h with ⟨db, _, rfl⟩
    rfl

/-- No operation moves the clock. -/
theorem exec_now_eq {P : Platform} {tid : Nat} {op : Op} {ch : Choice} {w w' : World} {r : op.Res}
    (h : exec P tid op ch w = some (r, w')) : w'.now = w.now := by
  by_cases hs : ∀ s, op ≠ .db s
  · by_cases hc : ∀ c, op ≠ .redis c
    · rcases exec_other_inv hs hc h with ⟨queue, drawn, rfl⟩
      rfl
    · push Not at hc
      rcases hc with ⟨c, rfl⟩
      rw [(exec_redis_inv h).2]
  · push Not at hs
    rcases hs with ⟨s, rfl⟩
    rcases exec_db_inv h with ⟨db, _, rfl⟩
    rfl

end ClickScope
