import ClickScope.Core.LinkService
import ClickScope.Json.Text

/-!
# The Link Cache as Texts

What the cache of the link service really stores, and the functions that read
and write it.

Redis holds texts. A cached link is the JSON text of its object, and a known
miss is the text of the sentinel, under the same keys. The rest of the
development keeps the values of the store typed; `storedText` is the text of a
typed value, and `texts` the store of texts behind a typed one.

A link that is read back is whatever object the text says, since the code casts
the parsed value to the type without a check: `deserializeRedirectLink` spreads
it and puts a date in the place of its `expiresAt`. Where the language throws,
the value is none, and the lookup has found nothing.

## Main definitions

* `linkObject`: The object of a link.
* `deserializeRedirectLink`: The object of a text.
* `TextStore`, `TextCmd`: The store and its commands.
* `getCachedText`, `setCachedLinkText`, `setCachedMissText`: The cache functions.
* `storedText`, `Redis.texts`: The texts behind the typed store.
-/

namespace ClickScope

open Async Zod

section Links

def LINK_CACHE_MISS_SENTINEL : String := "__MISS__"

/-- `null`, or the value of a field. -/
def orNull {α : Type} (f : α → JsValue) : Option α → JsValue
  | none => .null
  | some a => f a

def intValue (n : Int) : JsValue := .number (.finite n)

/-- The object of a link, in the order of `toRedirectLink`. -/
def linkObject (link : RedirectLink) : List (String × JsValue) :=
  [("id", .string link.id), ("destinationUrl", .string link.destinationUrl),
    ("passwordHash", orNull .string link.passwordHash),
    ("expiresAt", orNull (fun t => .date (some t)) link.expiresAt),
    ("maxClicks", orNull intValue link.maxClicks), ("clickCount", intValue link.clickCount),
    ("isActive", .boolean link.isActive)]

/-- `JSON.stringify(link)` -/
def linkText (link : RedirectLink) : String :=
  String.ofList ((Json.stringify (.object (linkObject link))).getD [])

/-- The own enumerable properties that a spread copies. Items and characters
    are numbered; a character is taken as one also where the language has two
    units for it. -/
def spread : JsValue → List (String × JsValue)
  | .object fields => fields
  | .array items => items.zipIdx.map (fun p => (p.2.repr, p.1))
  | .string s => s.toList.zipIdx.map (fun p => (p.2.repr, .string (String.singleton p.1)))
  | _ => []

/-- `parsed.expiresAt`, which throws on `null`. -/
def readExpiresAt : JsValue → Option JsValue
  | .undefined => none
  | .null => none
  | .object fields => some (get fields "expiresAt")
  | _ => some .undefined

/-- `expiresAt === null ? null : new Date(expiresAt)` -/
def reviveDate (H : Host) : JsValue → Option JsValue
  | .null => some .null
  | v => (toDate H v).map .date

/-- The object of a cached text; none if the code throws. -/
def deserializeRedirectLink (H : Host) (raw : String) : Option (List (String × JsValue)) := do
  let parsed ← Json.parse raw.toList
  let stored ← readExpiresAt parsed
  let expiresAt ← reviveDate H stored
  pure (Json.setOwn "expiresAt" expiresAt (spread parsed))

end Links

section Store

structure TextEntry where
  value : String
  expiresAt : Nat
deriving DecidableEq, Repr

/-- The texts by key, with their expiry. -/
structure TextStore where
  entry : String → Option TextEntry

inductive TextCmd : Type
  | get (key : String)
  | set (key value : String) (ex : Nat)
  | del (key : String)
  | getdel (key : String)
deriving DecidableEq, Repr

@[reducible] def TextCmd.Reply : TextCmd → Type
  | .get _ => Option String
  | .set _ _ _ => Unit
  | .del _ => Unit
  | .getdel _ => Option String

namespace TextStore

def empty : TextStore := ⟨fun _ => none⟩

/-- The text of a key at time `now`. -/
def get (now : Nat) (key : String) (s : TextStore) : Option String :=
  match s.entry key with
  | some e => if now < e.expiresAt then some e.value else none
  | none => none

/-- `SET key value EX ex` -/
def set (now : Nat) (key value : String) (ex : Nat) (s : TextStore) : TextStore :=
  ⟨fun k => if k = key then some ⟨value, now + ex * 1000⟩ else s.entry k⟩

def del (key : String) (s : TextStore) : TextStore :=
  ⟨fun k => if k = key then none else s.entry k⟩

def apply (now : Nat) : TextCmd → TextStore → TextStore
  | .get _, s => s
  | .set key value ex, s => s.set now key value ex
  | .del key, s => s.del key
  | .getdel key, s => s.del key

def reply (now : Nat) : (c : TextCmd) → TextStore → c.Reply
  | .get key, s => s.get now key
  | .set _ _ _, _ => ()
  | .del _, _ => ()
  | .getdel key, s => s.get now key

/-- A command under a fault, as on the typed store. -/
def exec (now : Nat) (c : TextCmd) (fault : Fault) (s : TextStore) :
    Except RedisError c.Reply × TextStore :=
  match fault with
  | .none => (.ok (reply now c s), s.apply now c)
  | .lost => (.error .unreachable, s)
  | .unacknowledged => (.error .unreachable, s.apply now c)

end TextStore

/-- When a command is performed, and how it fails. -/
structure CmdChoice where
  now : Nat
  fault : Fault := .none
deriving DecidableEq, Repr

/-- A function of the cache, awaiting commands of the store. -/
abbrev CacheProg (α : Type) : Type :=
  Prog TextCmd (fun c => Except RedisError c.Reply) RedisError α

def TextStore.step (c : TextCmd) (ch : CmdChoice) (s : TextStore) :
    Option (Except RedisError c.Reply × TextStore) :=
  some (s.exec ch.now c ch.fault)

/-- Await a command, and throw its error. -/
def textCommand (c : TextCmd) : CacheProg c.Reply :=
  .await c (fun r => match r with
    | .ok a => .ret a
    | .error e => .throw e)

end Store

section Functions

/-- `{ found: false } | { found: true, link }`, with the object of the link. -/
inductive CachedObject : Type
  | notFound
  | found (link : Option (List (String × JsValue)))

/-- What a stored text is: absent, the sentinel, or a link. What the code
    throws, it catches. -/
def readCachedText (H : Host) : Option String → CachedObject
  | none => .notFound
  | some raw =>
      if raw = LINK_CACHE_MISS_SENTINEL then .found none
      else
        match deserializeRedirectLink H raw with
        | some link => .found (some link)
        | none => .notFound

/-- `getCachedLink` -/
def getCachedText (H : Host) (shortCode : String) : CacheProg CachedObject :=
  ((textCommand (.get (linkCacheKey shortCode))).bind
    (fun raw => .ret (readCachedText H raw))).tryCatch (fun _ => .ret .notFound)

/-- `setCachedLink` -/
def setCachedLinkText (shortCode : String) (link : RedirectLink) (ttlSeconds : Nat) :
    CacheProg Unit :=
  (textCommand (.set (linkCacheKey shortCode) (linkText link) ttlSeconds)).tryCatch
    (fun _ => .ret ())

/-- `setCachedMiss` -/
def setCachedMissText (shortCode : String) : CacheProg Unit :=
  (textCommand (.set (linkCacheKey shortCode) LINK_CACHE_MISS_SENTINEL
    LINK_CACHE_NEGATIVE_TTL_SECONDS)).tryCatch (fun _ => .ret ())

end Functions

section Typed

/-- The text of a typed value. -/
def storedText : RedisValue → String
  | .missSentinel => LINK_CACHE_MISS_SENTINEL
  | .link l => linkText l
  | .one => "1"

/-- The texts behind a typed store. -/
def Redis.texts (s : Redis) : TextStore :=
  ⟨fun key => (s.entry key).map (fun e => ⟨storedText e.value, e.expiresAt⟩)⟩

/-- The command on texts behind a typed one. -/
def RedisCmd.textCmd : RedisCmd → TextCmd
  | .get key => .get key
  | .set key value ex => .set key (storedText value) ex
  | .del key => .del key
  | .getdel key => .getdel key

def RedisCmd.textReply : (c : RedisCmd) → c.Reply → c.textCmd.Reply
  | .get _, r => r.map storedText
  | .set _ _ _, r => r
  | .del _, r => r
  | .getdel _, r => r.map storedText

/-- What a typed lookup finds, as objects. -/
def CachedLink.asObject : CachedLink → CachedObject
  | .notFound => .notFound
  | .found link => .found (link.map linkObject)

end Typed

end ClickScope
