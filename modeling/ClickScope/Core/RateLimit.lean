import ClickScope.Core.App
import ClickScope.Async.Pool
import ClickScope.Limit.FixedWindow

/-!
# The Unlock Limiter

`POST /:shortCode/unlock` behind its rate limiter, which runs first: one hit is
counted under the address of the client and the short code, and a request that
is one too many is answered with 429. The others go on to the validation and
the handler.

The store counts a hit in one step. It does not fail here; if it did, the
limiter would let the request pass.

The address is turned into the first part of the key by `ipKeyGenerator`, a
function of the limiter's package. Of an IPv4 address it makes the address, of
an IPv6 address its network of 56 bits.

The pool here is one of these requests only. All else that the service does is
its environment, which can change everything but the counts, and not turn back
the clock.

## Main definitions

* `Limiter`, `unlockLimiter`: What `buildLimiter` is given.
* `IpKeyGenerator`: `ipKeyGenerator`.
* `unlockKey`: The key a request is counted under.
* `limitedUnlock`: The program of a request.
* `unlockSystem`: The requests as a pool.
-/

namespace ClickScope

open Async Zod FixedWindow

section Keys

/-- `s.slice(0, n)`, for a text of UTF-16 units. Half of a character reaches the
    store as a replacement character. -/
def slice : Nat → List Char → List Char
  | 0, _ => []
  | _, [] => []
  | n + 1, c :: s =>
      if c.toNat < 0x10000 then c :: slice n s
      else if n = 0 then [Char.ofNat 0xFFFD]
      else c :: slice (n - 1) s

/-- Four numbers up to 255. -/
def isIPv4 (ip : String) : Prop :=
  ∃ a b c d : Nat, a < 256 ∧ b < 256 ∧ c < 256 ∧ d < 256 ∧
    ip = a.repr ++ "." ++ b.repr ++ "." ++ c.repr ++ "." ++ d.repr

/-- The characters of an IPv6 network: small hexadecimal digits and colons. -/
def networkChar (c : Char) : Bool := c.isDigit || ('a' ≤ c && c ≤ 'f') || c == ':'

/-- A text like that of an IPv6 network. -/
def NetworkLiteral (s : String) : Prop :=
  (∀ c ∈ s.toList, networkChar c = true) ∧ ':' ∈ s.toList

/-- `ipKeyGenerator`, and the test for IPv6 addresses it makes. -/
structure IpKeyGenerator where
  key : String → String
  isIPv6 : String → Prop
  ipv4 : ∀ ip, isIPv4 ip → key ip = ip
  ipv6 : ∀ ip, isIPv6 ip → ∃ network, NetworkLiteral network ∧ key ip = network ++ "/56"

/-- A request to unlock a link. -/
structure UnlockPost where
  ip : String
  shortCode : String
  body : JsValue

/-- The `keyGenerator` of the unlock limiter. -/
def unlockKey (G : IpKeyGenerator) (req : UnlockPost) : String :=
  G.key req.ip ++ ":" ++ String.ofList (slice MAX_ALIAS_LENGTH req.shortCode.toList)

end Keys

section Limiters

/-- The options of a limiter. -/
structure Limiter where
  windowSeconds : Nat
  max : Nat
  name : String

/-- What the configuration says of the unlock limiter. It has been checked that
    both numbers are positive. -/
structure RateLimitConfig where
  RATE_LIMIT_UNLOCK_WINDOW_SECONDS : Nat
  RATE_LIMIT_UNLOCK_MAX : Nat
  window_pos : 0 < RATE_LIMIT_UNLOCK_WINDOW_SECONDS
  max_pos : 0 < RATE_LIMIT_UNLOCK_MAX

def unlockLimiter (config : RateLimitConfig) : Limiter :=
  { windowSeconds := config.RATE_LIMIT_UNLOCK_WINDOW_SECONDS,
    max := config.RATE_LIMIT_UNLOCK_MAX, name := "redirect-unlock" }

def Limiter.windowMs (l : Limiter) : Nat := l.windowSeconds * 1000

/-- The key of the store, with the prefix of the limiter. -/
def Limiter.storeKey (l : Limiter) (key : String) : String := "rl:" ++ l.name ++ ":" ++ key

/-- An operation of a limited route: counting a hit, or one of the service. -/
inductive LimitedOp : Type
  | increment (key : String)
  | api (op : Op)
deriving DecidableEq, Repr

@[reducible] def LimitedOp.Res : LimitedOp → Type
  | .increment _ => Window
  | .api op => op.Res

/-- What a limited route can throw. -/
inductive LimitedErr : Type
  | tooManyRequests (message : String) (retryAfterSeconds : Nat)
  | err (e : Err)
deriving DecidableEq, Repr

abbrev Limited (α : Type) := Prog LimitedOp LimitedOp.Res LimitedErr α

/-- A program of the service on a limited route. -/
def lift {α : Type} (x : Api α) : Limited α := x.embed .api (fun _ r => r) .err

/-- The seconds until a window ends, or the length of a window if it just has. -/
def retryAfterSeconds (l : Limiter) (now : Nat) (w : Window) : Nat :=
  let seconds := (w.resetAt - now + 999) / 1000
  if seconds = 0 then l.windowSeconds else seconds

/-- The limiter as a middleware. -/
def rateLimit (l : Limiter) (key : String) : Limited Unit :=
  .await (.increment (l.storeKey key)) (fun (w : Window) =>
    if l.max < w.count then
      .await (.api .dateNow) (fun (now : Nat) =>
        .throw (.tooManyRequests "Too many requests. Please try again later."
          (retryAfterSeconds l now w)))
    else .ret ())

/-- `POST /:shortCode/unlock`, from the limiter on. -/
def limitedUnlock (config : RateLimitConfig) (G : IpKeyGenerator) (req : UnlockPost) :
    Limited Response :=
  (rateLimit (unlockLimiter config) (unlockKey G req)).bind
    (fun _ => lift (unlockRoute req.shortCode req.body))

end Limiters

section Requests

/-- The world of the service, with the counts of the limiters. -/
structure LimitedWorld where
  app : World
  hits : Store String

/-- What else happens: time passes, or the rest of the service does something. -/
inductive Elsewhere : Type
  | tick (ms : Nat)
  | other (w : World)

def execLimited (P : Platform) (l : Limiter) (tid : Nat) :
    (op : LimitedOp) → Choice → LimitedWorld → Option (op.Res × LimitedWorld)
  | .increment key, _, w =>
      some ((hit l.windowMs w.app.now key w.hits).1,
        { w with hits := (hit l.windowMs w.app.now key w.hits).2 })
  | .api op, ch, w => (exec P tid op ch w.app).map (fun r => (r.1, { w with app := r.2 }))

/-- The unlock requests as a pool. -/
def unlockSystem (P : Platform) (config : RateLimitConfig) (G : IpKeyGenerator) :
    System LimitedOp LimitedOp.Res LimitedErr Response UnlockPost Elsewhere Choice
      LimitedWorld where
  exec := execLimited P (unlockLimiter config)
  body := limitedUnlock config G
  env := fun e w => match e with
    | .tick ms => some { w with app := { w.app with now := w.app.now + ms } }
    | .other app => some { w with app := { app with now := w.app.now } }
  reap := fun tid w => { w with app := { w.app with db := w.app.db.closeTx tid } }

/-- A request that passes `validateParams`, from a client with an address. -/
def UnlockRequested (G : IpKeyGenerator) (req : UnlockPost) : Prop :=
  (isIPv4 req.ip ∨ G.isIPv6 req.ip) ∧
    ∃ t out, Accepts shortCodeParamSchema t (shortCodeParams req.shortCode) out

def unlockRequests (G : IpKeyGenerator) :
    Policy LimitedOp LimitedOp.Res UnlockPost Choice LimitedWorld where
  mayStart := fun _ req => UnlockRequested G req
  mayDo := fun _ _ _ _ _ => True

end Requests

end ClickScope
