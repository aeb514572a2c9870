import ClickScope.Core.LinkCache
import ClickScope.Json.RoundTrip

/-!
# The Cache Encoding Is Lossless

A link that is cached is read back as it was, and never as a miss.

The text of a link is the JSON text of its object with the expiry as a text.
JSON is read back as it was written, and the expiry is the one field that comes
back as something else than it was; the reader makes a date of it again. The
sentinel does not begin with a brace, whatever the fields of a link say.

Behind the typed store of the development stands the store of texts: every
command on the one is the command on the texts of the other, so that a typed
lookup and a lookup in the texts find the same.

## Main definitions

* `HeldLink`: The links the language can hold.
* `ReadsInstants`: `Date.parse` reads the texts that dates are written as.

## Theorems

* `deserialize_linkText`: The object of a link is read back from its text.
* `linkText_ne_sentinel`: No link is a miss.
* `linkText_inj`: Distinct links have distinct texts.
* `exec_texts`: The typed store is a store of texts.
* `getCachedText_texts`: Typed lookups are lookups in the texts.
* `cache_encoding`: What was cached is what is found.
-/

namespace ClickScope

open Async Zod

/-- A link as the language can hold it: the expiry is a valid date, and the
    numbers are doubles. -/
def HeldLink (link : RedirectLink) : Prop :=
  (∀ t ∈ link.expiresAt, -MAX_TIME ≤ t ∧ t ≤ MAX_TIME) ∧
    (∀ n ∈ link.maxClicks, Json.IsDouble (n : Int)) ∧ Json.IsDouble (link.clickCount : Int)

/-- `Date.parse` reads the format of `toISOString`, whatever else it reads. -/
def ReadsInstants (H : Host) : Prop :=
  ∀ s t, Iso.readInstant s = some t → H.parseDate (String.ofList s) = some t

section Texts

variable {H : Host} {link : RedirectLink}

/-- What the JSON text of a link says: the expiry is a text. -/
def saidObject (link : RedirectLink) : List (String × JsValue) :=
  Json.setOwn "expiresAt"
    (orNull (fun t => .string (String.ofList (Iso.toISOString t))) link.expiresAt) (linkObject link)

theorem stringify_saidObject (h : HeldLink link) :
    Json.stringify (.object (linkObject link)) = Json.stringify (.object (saidObject link)) := by
  have hdate : ∀ t ∈ link.expiresAt, Json.dateJson (some t)
      = Json.quote (String.ofList (Iso.toISOString t)).toList := by
    intro t ht
    rw [Json.dateJson, if_pos (h.1 t ht), String.toList_ofList]
  rcases hexpiry : link.expiresAt with _ | t
  · simp only [saidObject, hexpiry, linkObject, orNull, Json.setOwn, String.reduceEq, if_false,
      if_true]
  · simp only [saidObject, hexpiry, linkObject, orNull, Json.setOwn, String.reduceEq, if_false,
      if_true, Json.stringify, Json.stringifyFields, hdate t hexpiry]

/-- Everything in the object of a link can be written and read back. -/
theorem writable_saidObject (h : HeldLink link) : Json.Writable (.object (saidObject link)) := by
  have hclicks : Json.Writable (orNull intValue link.maxClicks) := by
    rcases hmax : link.maxClicks with _ | n
    · trivial
    · exact Json.hasText_int (h.2.1 n hmax)
  have hcount : Json.Writable (intValue link.clickCount) := Json.hasText_int h.2.2
  have htext : ∀ (f : Int → String) (o : Option Int),
      Json.Writable (orNull (fun t => .string (f t)) o) := by
    intro f o
    cases o <;> trivial
  have hhash : Json.Writable (orNull .string link.passwordHash) := by
    rcases link.passwordHash with _ | hash <;> trivial
  simp only [saidObject, linkObject, Json.setOwn, String.reduceEq, if_false, if_true,
    Json.Writable, Json.WritableFields, List.map_cons, List.map_nil]
  exact ⟨by decide, trivial, trivial, hhash, htext _ _, hclicks, hcount, trivial, trivial⟩

theorem parse_linkText (h : HeldLink link) :
    Json.parse (linkText link).toList = some (.object (saidObject link)) := by
  have hw := writable_saidObject h
  have hparse := Json.parse_stringify hw
  rw [Json.stringify_text hw, Option.bind_some] at hparse
  rw [linkText, stringify_saidObject h, Json.stringify_text hw, Option.getD_some,
    String.toList_ofList, hparse]

/-- The expiry becomes a date again. -/
theorem revive_expiry (hH : ReadsInstants H) (h : HeldLink link) :
    reviveDate H (orNull (fun t => .string (String.ofList (Iso.toISOString t))) link.expiresAt)
      = some (orNull (fun t => .date (some t)) link.expiresAt) := by
  rcases hexpiry : link.expiresAt with _ | t
  · rfl
  · have hrange := h.1 t hexpiry
    have hread := hH _ t (Iso.readInstant_toISOString hrange.1 hrange.2)
    simp only [orNull, reviveDate, toDate, hread, Option.map_some]

/-- The object of a link is read back from its text. -/
theorem deserialize_linkText (hH : ReadsInstants H) (h : HeldLink link) :
    deserializeRedirectLink H (linkText link) = some (linkObject link) := by
  have hget : get (saidObject link) "expiresAt"
      = orNull (fun t => .string (String.ofList (Iso.toISOString t))) link.expiresAt := rfl
  simp only [deserializeRedirectLink, parse_linkText h, readExpiresAt, hget, revive_expiry hH h,
    spread, Option.bind_eq_bind, Option.bind_some, Option.pure_def]
  rfl

/-- The text of a link begins with a brace, so it is not the sentinel. -/
theorem linkText_ne_sentinel (link : RedirectLink) : linkText link ≠ LINK_CACHE_MISS_SENTINEL := by
  intro heq
  have hlist := congrArg String.toList heq
  rw [linkText, String.toList_ofList] at hlist
  have hhead := congrArg List.head? hlist
  change some '{' = some '_' at hhead
  exact absurd hhead (by decide)

theorem orNull_inj {α : Type} {f : α → JsValue} (hf : ∀ a b, f a = f b → a = b)
    (hnull : ∀ a, f a ≠ .null) {o o' : Option α} (h : orNull f o = orNull f o') : o = o' := by
  cases o with
  | none =>
      cases o' with
      | none => rfl
      | some b => exact absurd h.symm (hnull b)
  | some a =>
      cases o' with
      | none => exact absurd h (hnull a)
      | some b => rw [hf a b h]

theorem intValue_inj {n m : Int} (h : intValue n = intValue m) : n = m := by
  unfold intValue at h
  rw [JsValue.number.injEq, JsNumber.finite.injEq] at h
  exact_mod_cast h

/-- The object of a link says all of it. -/
theorem linkObject_inj {a b : RedirectLink} (h : linkObject a = linkObject b) : a = b := by
  simp only [linkObject, List.cons.injEq, Prod.mk.injEq, true_and, and_true,
    JsValue.string.injEq, JsValue.boolean.injEq] at h
  rcases h with ⟨hid, hurl, hhash, hexpiry, hmax, hcount, hactive⟩
  have hhash' := orNull_inj (fun x y hxy => JsValue.string.inj hxy) (fun x hx => by cases hx) hhash
  have hexpiry' := orNull_inj (fun x y hxy => Option.some.inj (JsValue.date.inj hxy))
    (fun x hx => by cases hx) hexpiry
  have hmax' := orNull_inj (fun x y hxy => intValue_inj hxy) (fun x hx => by cases hx) hmax
  have hcount' : a.clickCount = b.clickCount := by exact_mod_cast intValue_inj hcount
  cases a
  cases b
  simp only [RedirectLink.mk.injEq]
  exact ⟨hid, hurl, hhash', hexpiry', hmax', hcount', hactive⟩

/-- Distinct links have distinct texts. -/
theorem linkText_inj (hH : ReadsInstants H) {a b : RedirectLink} (ha : HeldLink a) (hb : HeldLink b)
    (h : linkText a = linkText b) : a = b := by
  have hread := deserialize_linkText hH ha
  rw [h, deserialize_linkText hH hb, Option.some.injEq] at hread
  exact linkObject_inj hread.symm

theorem readCachedText_link (hH : ReadsInstants H) (h : HeldLink link) :
    readCachedText H (some (linkText link)) = .found (some (linkObject link)) := by
  rw [readCachedText, if_neg (linkText_ne_sentinel link)]
  simp only [deserialize_linkText hH h]

end Texts

section Stores

/-- A command of the typed store is the command on its texts. -/
theorem exec_texts (now : Nat) (c : RedisCmd) (fault : Fault) (s : Redis) :
    s.texts.exec now c.textCmd fault
      = ((s.exec now c fault).1.map c.textReply, (s.exec now c fault).2.texts) := by
  -- An entry expires in both stores at once.
  have hget : ∀ key, s.texts.get now key = (s.get now key).map storedText := by
    intro key
    unfold TextStore.get Redis.get Redis.texts
    rcases hentry : s.entry key with _ | e
    · simp only [hentry, Option.map_none]
    · simp only [hentry, Option.map_some]
      by_cases hlt : now < e.expiresAt
      · rw [if_pos hlt, if_pos hlt, Option.map_some]
      · rw [if_neg hlt, if_neg hlt, Option.map_none]
  have happly : s.texts.apply now c.textCmd = (s.apply now c).texts := by
    cases c with
    | get key => rfl
    | set key value ex =>
        simp only [RedisCmd.textCmd, TextStore.apply, Redis.apply, TextStore.set, Redis.set,
          Redis.texts, TextStore.mk.injEq]
        funext k
        by_cases hk : k = key
        · rw [if_pos hk, if_pos hk, Option.map_some]
        · rw [if_neg hk, if_neg hk]
    | del key | getdel key =>
        simp only [RedisCmd.textCmd, TextStore.apply, Redis.apply, TextStore.del, Redis.del,
          Redis.texts, TextStore.mk.injEq]
        funext k
        by_cases hk : k = key
        · rw [if_pos hk, if_pos hk, Option.map_none]
        · rw [if_neg hk, if_neg hk]
  have hreply : TextStore.reply now c.textCmd s.texts = c.textReply (Redis.reply now c s) := by
    cases c with
    | get key | getdel key => exact hget key
    | set key value ex | del key => rfl
  cases fault with
  | none => simp only [TextStore.exec, Redis.exec, Except.map, hreply, happly]
  | lost => rfl
  | unacknowledged => simp only [TextStore.exec, Redis.exec, Except.map, happly]

/-- The values a link key of the typed store can have, as the language can hold
    them. -/
def LinkValue : RedisValue → Prop
  | .missSentinel => True
  | .link l => HeldLink l
  | .one => False

theorem readCachedText_storedText {H : Host} (hH : ReadsInstants H) {r : Option RedisValue}
    (h : ∀ v ∈ r, LinkValue v) :
    readCachedText H (r.map storedText) = (readCached r).asObject := by
  rcases r with _ | v
  · rfl
  · cases v with
    | missSentinel => rfl
    | link l => exact readCachedText_link hH (h _ rfl)
    | one => exact (h _ rfl).elim

/-- A typed lookup finds what a lookup in the texts finds, under the same
    fault. -/
theorem getCachedText_texts {P : Platform} {H : Host} (hH : ReadsInstants H) {tid : Nat}
    {shortCode : String} {ch : Choice} {w v : World} {r : Except Err CachedLink}
    (hkey : ∀ u ∈ w.redis.get w.now (linkCacheKey shortCode), LinkValue u)
    (hrun : (getCachedLink shortCode).seqRun (exec P tid) [ch] w = some (r, v)) :
    ∃ found, r = .ok found ∧ (getCachedText H shortCode).seqRun TextStore.step
      [{ now := w.now, fault := ch.fault }] w.redis.texts
        = some (.ok found.asObject, v.redis.texts) := by
  have hget : TextStore.exec w.now (.get (linkCacheKey shortCode)) ch.fault w.redis.texts = _ :=
    exec_texts w.now (.get (linkCacheKey shortCode)) ch.fault w.redis
  simp only [getCachedLink, redis, Bind.bind, Prog.bind, Prog.tryCatch, Prog.seqRun, exec] at hrun
  unfold getCachedText textCommand
  simp only [Prog.bind, Prog.tryCatch, Prog.seqRun, TextStore.step, hget]
  rcases hexec : w.redis.exec w.now (.get (linkCacheKey shortCode)) ch.fault with ⟨reply, s⟩
  simp only [hexec] at hrun ⊢
  cases reply with
  | error e =>
      -- Both lookups catch the failure.
      cases hrun
      exact ⟨.notFound, rfl, rfl⟩
  | ok raw =>
      have hraw : raw = w.redis.get w.now (linkCacheKey shortCode) := (Redis.exec_ok hexec).1
      have hread := readCachedText_storedText hH (hraw ▸ hkey)
      cases hrun
      refine ⟨readCached raw, rfl, ?_⟩
      rw [← hread]
      rfl

/-- Caching a typed value is caching its text, and an error is caught by both. -/
theorem setCachedText_texts {P : Platform} {tid : Nat} {key : String} {value : RedisValue}
    {ex : Nat} {ch : Choice} {w v : World} {r : Except Err Unit}
    (hrun : ((redis (.set key value ex)).tryCatch (fun _ => .ret ())).seqRun (exec P tid) [ch] w
      = some (r, v)) :
    r = .ok () ∧ ((textCommand (.set key (storedText value) ex)).tryCatch
      (fun _ => .ret ())).seqRun TextStore.step [{ now := w.now, fault := ch.fault }] w.redis.texts
        = some (.ok (), v.redis.texts) := by
  have hset : TextStore.exec w.now (.set key (storedText value) ex) ch.fault w.redis.texts = _ :=
    exec_texts w.now (.set key value ex) ch.fault w.redis
  simp only [redis, Prog.tryCatch, Prog.seqRun, exec] at hrun
  simp only [textCommand, Prog.tryCatch, Prog.seqRun, TextStore.step, hset]
  rcases hexec : w.redis.exec w.now (.set key value ex) ch.fault with ⟨reply, s⟩
  simp only [hexec] at hrun ⊢
  cases reply with
  | error e | ok a =>
      cases hrun
      exact ⟨rfl, rfl⟩

end Stores

section Reading

/-- What is read of a key after its text was set, and before it has expired. -/
theorem set_then_get (H : Host) (shortCode value : String) (ex t t' : Nat) (s : TextStore)
    (h : t' < t + ex * 1000) :
    (((textCommand (.set (linkCacheKey shortCode) value ex)).tryCatch
      (fun _ => .ret ())).bind (fun _ => getCachedText H shortCode)).seqRun TextStore.step
        [{ now := t }, { now := t' }] s
      = some (.ok (readCachedText H (some value)), s.set t (linkCacheKey shortCode) value ex) := by
  have hget : (s.set t (linkCacheKey shortCode) value ex).get t' (linkCacheKey shortCode)
      = some value := by
    simp only [TextStore.get, TextStore.set, if_true, if_pos h]
  rw [← hget]
  rfl

end Reading

/-- The cache is lossless. A link that was cached is found as it was, at any
    time before the entry expires, and a cached miss is found as a miss; no link
    is encoded as the miss, and distinct links have distinct encodings. -/
theorem cache_encoding (H : Host) (hH : ReadsInstants H) :
    (∀ (shortCode : String) (link : RedirectLink) (ttl t t' : Nat) (s : TextStore),
      HeldLink link → t' < t + ttl * 1000 →
      ((setCachedLinkText shortCode link ttl).bind (fun _ => getCachedText H shortCode)).seqRun
          TextStore.step [{ now := t }, { now := t' }] s
        = some (.ok (.found (some (linkObject link))),
            s.set t (linkCacheKey shortCode) (linkText link) ttl)) ∧
    (∀ (shortCode : String) (t t' : Nat) (s : TextStore),
      t' < t + LINK_CACHE_NEGATIVE_TTL_SECONDS * 1000 →
      ((setCachedMissText shortCode).bind (fun _ => getCachedText H shortCode)).seqRun
          TextStore.step [{ now := t }, { now := t' }] s
        = some (.ok (.found none), s.set t (linkCacheKey shortCode) LINK_CACHE_MISS_SENTINEL
            LINK_CACHE_NEGATIVE_TTL_SECONDS)) ∧
    (∀ link : RedirectLink, linkText link ≠ LINK_CACHE_MISS_SENTINEL) ∧
    ∀ a b : RedirectLink, HeldLink a → HeldLink b → linkText a = linkText b → a = b := by
  refine ⟨?_, ?_, linkText_ne_sentinel, fun a b ha hb h => linkText_inj hH ha hb h⟩
  · -- Within its time to live the text is read as it was set.
    intro shortCode link ttl t t' s hheld hlive
    have hrun := set_then_get H shortCode (linkText link) ttl t t' s hlive
    rw [readCachedText_link hH hheld] at hrun
    exact hrun
  · intro shortCode t t' s hlive
    exact set_then_get H shortCode LINK_CACHE_MISS_SENTINEL _ t t' s hlive

/-- A host whose `Date.parse` reads the one format. -/
def instantHost : Host where
  numberText _ := ""
  dateText _ := ""
  textNumber _ := .nan
  parseDate s := Iso.readInstant s.toList
  urlProtocol _ := none
  isEmail _ := false
  isUuid _ := false
  parseDate_range _ _ h := Iso.readInstant_range h
  isUuid_hyphenated _ h := by cases h

theorem readsInstants_instantHost : ReadsInstants instantHost := by
  intro s t h
  rw [← h]
  exact congrArg Iso.readInstant String.toList_ofList

/-- A link that says the sentinel, in quotes. -/
def quotingLink : RedirectLink :=
  { id := "\"__MISS__\"", destinationUrl := "__MISS__", passwordHash := some "\n\\é",
    expiresAt := some 8640000000000000, maxClicks := some 3, clickCount := 0, isActive := true }

theorem heldLink_quoting : HeldLink quotingLink := by
  refine ⟨?_, ?_, Json.isDouble_int (by decide)⟩
  · intro t ht
    rw [quotingLink, Option.mem_some_iff] at ht
    rw [← ht]
    decide
  · intro n hn
    rw [quotingLink, Option.mem_some_iff] at hn
    rw [← hn]
    exact Json.isDouble_int (by decide)

theorem cache_encoding_quoting :
    ((setCachedLinkText "abc" quotingLink 5).bind
        (fun _ => getCachedText instantHost "abc")).seqRun TextStore.step
        [{ now := 0 }, { now := 4999 }] TextStore.empty
      = some (.ok (.found (some (linkObject quotingLink))),
          TextStore.empty.set 0 (linkCacheKey "abc") (linkText quotingLink) 5) ∧
    ((setCachedMissText "abc").bind (fun _ => getCachedText instantHost "abc")).seqRun
        TextStore.step [{ now := 0 }, { now := 0 }] TextStore.empty
      = some (.ok (.found none), TextStore.empty.set 0 (linkCacheKey "abc")
          LINK_CACHE_MISS_SENTINEL LINK_CACHE_NEGATIVE_TTL_SECONDS) := by
  have h := cache_encoding instantHost readsInstants_instantHost
  exact ⟨h.1 "abc" quotingLink 5 0 4999 TextStore.empty heldLink_quoting (by decide),
    h.2.1 "abc" 0 0 TextStore.empty (by decide)⟩

end ClickScope
