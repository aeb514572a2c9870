import ClickScope.Core.Db

/-!
# Redis

The key-value store behind the link cache and the OAuth states: keys with an
expiry, read at the current clock.

The values are kept typed. A link key holds either the text of the miss
sentinel or the JSON text of a `RedirectLink`, and a state key holds the text
`1`; `RedisValue` has one constructor for each, so the text encodings
themselves are outside this module.

A command can fail before it takes effect, or after it with only the reply
lost. Expiry is exact: an entry set with `EX ttl` is there until `ttl` seconds
after the `SET`, and gone from then on.

## Main definitions

* `RedisValue`: What a key can hold.
* `Redis`: The entries, with their expiry.
* `RedisCmd`, `RedisCmd.Reply`: The commands and their replies.
* `Redis.exec`: What a command does.

## Theorems

* `get_set_self`, `get_set_other`: Reading after a `SET`.
* `get_del_self`, `get_del_other`: Reading after a `DEL`.
* `get_some`, `exec_ok`, `exec_entry`: Where a value that is read comes from.
-/

namespace ClickScope

/-- What the service stores under a key. -/
inductive RedisValue : Type
  | missSentinel
  | link (l : RedirectLink)
  | one
deriving DecidableEq, Repr

structure RedisEntry where
  value : RedisValue
  expiresAt : Nat
deriving DecidableEq, Repr

/-- The entries by key. An entry past its expiry is not there. -/
structure Redis where
  entry : String → Option RedisEntry

inductive RedisCmd : Type
  | get (key : String)
  | set (key : String) (value : RedisValue) (ex : Nat)
  | del (key : String)
  | getdel (key : String)
deriving DecidableEq, Repr

@[reducible] def RedisCmd.Reply : RedisCmd → Type
  | .get _ => Option RedisValue
  | .set _ _ _ => Unit
  | .del _ => Unit
  | .getdel _ => Option RedisValue

/-- The error of a failed command. -/
inductive RedisError : Type
  | unreachable
deriving DecidableEq, Repr

namespace Redis

def empty : Redis := ⟨fun _ => none⟩

/-- The value of a key at time `now`. -/
def get (now : Nat) (key : String) (s : Redis) : Option RedisValue :=
  match s.entry key with
  | some e => if now < e.expiresAt then some e.value else none
  | none => none

/-- `SET key value EX ex` -/
def set (now : Nat) (key : String) (value : RedisValue) (ex : Nat) (s : Redis) : Redis :=
  ⟨fun k => if k = key then some ⟨value, now + ex * 1000⟩ else s.entry k⟩

def del (key : String) (s : Redis) : Redis :=
  ⟨fun k => if k = key then none else s.entry k⟩

/-- The effect of a command. -/
def apply (now : Nat) : RedisCmd → Redis → Redis
  | .get _, s => s
  | .set key value ex, s => s.set now key value ex
  | .del key, s => s.del key
  | .getdel key, s => s.del key

/-- The reply of a command. -/
def reply (now : Nat) : (c : RedisCmd) → Redis → c.Reply
  | .get key, s => s.get now key
  | .set _ _ _, _ => ()
  | .del _, _ => ()
  | .getdel key, s => s.get now key

/-- A command under a fault: a lost one has no effect, an unacknowledged one
    only its effect. -/
def exec (now : Nat) (c : RedisCmd) (fault : Fault) (s : Redis) :
    Except RedisError c.Reply × Redis :=
  match fault with
  | .none => (.ok (reply now c s), s.apply now c)
  | .lost => (.error .unreachable, s)
  | .unacknowledged => (.error .unreachable, s.apply now c)

@[simp] theorem get_set_self (now t : Nat) (key : String) (value : RedisValue) (ex : Nat)
    (s : Redis) :
    (s.set now key value ex).get t key = if t < now + ex * 1000 then some value else none := by
  simp only [get, set, if_true]

@[simp] theorem get_set_other (now t : Nat) (key key' : String) (value : RedisValue) (ex : Nat)
    (s : Redis) (h : key' ≠ key) : (s.set now key value ex).get t key' = s.get t key' := by
  simp only [get, set, if_neg h]

@[simp] theorem get_del_self (t : Nat) (key : String) (s : Redis) :
    (s.del key).get t key = none := by
  simp only [get, del, if_true]

@[simp] theorem get_del_other (t : Nat) (key key' : String) (s : Redis) (h : key' ≠ key) :
    (s.del key).get t key' = s.get t key' := by
  simp only [get, del, if_neg h]

/-- A value that is read is in an entry. -/
theorem get_some {t : Nat} {key : String} {s : Redis} {v : RedisValue} (h : s.get t key = some v) :
    ∃ ex, s.entry key = some ⟨v, ex⟩ ∧ t < ex := by
  unfold get at h
  rcases he : s.entry key with _ | ⟨value, ex⟩
  · simp only [he, reduceCtorEq] at h
  · simp only [he] at h
    by_cases hlt : t < ex
    · rw [if_pos hlt, Option.some.injEq] at h
      exact ⟨ex, by rw [h], hlt⟩
    · rw [if_neg hlt] at h
      cases h

/-- A command that answers took effect. -/
theorem exec_ok {now : Nat} {c : RedisCmd} {fault : Fault} {s s' : Redis} {v : c.Reply}
    (h : s.exec now c fault = (.ok v, s')) : v = reply now c s ∧ s' = s.apply now c := by
  cases fault <;> cases h
  exact ⟨rfl, rfl⟩

/-- An entry after a command was there before, or was set by it. -/
theorem exec_entry {now : Nat} {c : RedisCmd} {fault : Fault} {s s' : Redis}
    {r : Except RedisError c.Reply} (h : s.exec now c fault = (r, s')) {key : String}
    {v : RedisValue} {ex : Nat} (he : s'.entry key = some ⟨v, ex⟩) :
    s.entry key = some ⟨v, ex⟩ ∨ ∃ ttl, c = .set key v ttl ∧ ex = now + ttl * 1000 := by
  have happly : (s.apply now c).entry key = some ⟨v, ex⟩ →
      s.entry key = some ⟨v, ex⟩ ∨ ∃ ttl, c = .set key v ttl ∧ ex = now + ttl * 1000 := by
    intro ha
    cases c with
    | get k => exact Or.inl ha
    | set k value ttl =>
        simp only [apply, set] at ha
        by_cases hk : key = k
        · rw [if_pos hk, Option.some.injEq, RedisEntry.mk.injEq] at ha
          exact Or.inr ⟨ttl, by rw [hk, ha.1], ha.2.symm⟩
        · rw [if_neg hk] at ha
          exact Or.inl ha
    | del k | getdel k =>
        simp only [apply, del] at ha
        by_cases hk : key = k
        · rw [if_pos hk] at ha
          cases ha
        · rw [if_neg hk] at ha
          exact Or.inl ha
  -- A command whose reply is lost may have been performed.
  cases fault <;> cases h
  · exact happly he
  · exact Or.inl he
  · exact happly he

end Redis

end ClickScope
