import ClickScope.Theory.PercentCoding
import ClickScope.Theory.UnlockForm
import Mathlib.Data.List.TakeWhile

/-!
# Reading a Cookie Back

A `Cookie` header of percent-encoded values, and what the reader finds in it.

The names of cookies are tokens and the values are encoded, so neither has a
delimiter or white space: the header falls apart at its semicolons into the
texts it was joined from, and each text at its first equals sign. What
surrounds a cookie is of no matter then, and the grant of the unlock route is
read back among whatever other cookies the client holds.

## Main definitions

* `separators`, `tokenChar`, `IsToken`: The names a cookie can have.
* `SentCookie`: A cookie in a header, with the spaces around it.
* `cookieHeader`: The header of a list of cookies.

## Theorems

* `cookiePart_text`: The reader on the text of one cookie.
* `readCookie_sent`: The reader on a header.
* `isToken_cookieNameFor`: The grant's cookie has a token for its name.
* `wp_unlock_cookie`: The cookie that the unlock route sets.
* `readCookie_cookieHeader`: Reading undoes serialisation.
-/

namespace ClickScope

open Async

/-- The separators of the header's grammar. -/
def separators : List Char :=
  ['(', ')', '<', '>', '@', ',', ';', ':', '\\', '"', '/', '[', ']', '?', '=', '{', '}']

/-- A character of a cookie's name: visible, and no separator. -/
def tokenChar (c : Char) : Bool :=
  decide (0x20 < c.toNat) && decide (c.toNat < 0x7F) && !decide (c ∈ separators)

def IsToken (name : String) : Prop := name ≠ "" ∧ ∀ c ∈ name.toList, tokenChar c = true

/-- A cookie of a request: its name, the value that was serialised, and how
    many spaces stand before and after its text. -/
structure SentCookie where
  name : String
  value : String
  before : Nat
  after : Nat
  isToken : IsToken name

/-- The text of a cookie in the header. -/
def SentCookie.text (c : SentCookie) : List Char :=
  (List.replicate c.before ' ' ++ c.name.toList) ++
    '=' :: (encodeURIComponent c.value.toList ++ List.replicate c.after ' ')

def cookieHeader (cookies : List SentCookie) : String :=
  String.ofList ([';'].intercalate (cookies.map SentCookie.text))

section Characters

variable {c : Char}

/-- White space is below or above the visible characters. -/
theorem isWhiteSpace_visible (hlow : 0x20 < c.toNat) (hhigh : c.toNat < 0x7F) :
    isWhiteSpace c = false := by
  unfold isWhiteSpace
  rw [Bool.or_eq_false_iff, Bool.and_eq_false_iff, decide_eq_false_iff_not,
    decide_eq_false_iff_not, decide_eq_false_iff_not]
  simp only [List.mem_cons, List.not_mem_nil, or_false]
  omega

theorem tokenChar_visible (h : tokenChar c = true) : isWhiteSpace c = false := by
  unfold tokenChar at h
  rw [Bool.and_eq_true, Bool.and_eq_true, decide_eq_true_eq, decide_eq_true_eq] at h
  exact isWhiteSpace_visible h.1.1 h.1.2

theorem tokenChar_ne {d : Char} (h : tokenChar c = true) (hd : tokenChar d = false) : c ≠ d := by
  rintro rfl
  rw [h] at hd
  cases hd

theorem separator_alphanum : ∀ c ∈ separators, c.isAlphanum = false := by
  have hall : separators.all (fun c => !c.isAlphanum) = true := by decide
  exact fun c hc => Bool.not_eq_true' _ ▸ List.all_eq_true.mp hall c hc

theorem mark_visible : ∀ c ∈ ['-', '_', '.', '!', '~', '*', '\'', '(', ')'],
    isWhiteSpace c = false := by
  have hall : ['-', '_', '.', '!', '~', '*', '\'', '(', ')'].all (fun c => !isWhiteSpace c)
      = true := by decide
  exact fun c hc => Bool.not_eq_true' _ ▸ List.all_eq_true.mp hall c hc

theorem encodingChar_visible (h : encodingChar c = true) : isWhiteSpace c = false := by
  unfold encodingChar unreserved at h
  rw [Bool.or_eq_true, Bool.or_eq_true, decide_eq_true_eq, beq_iff_eq] at h
  rcases h with (halnum | hmark) | rfl
  · have hrange := alphanum_range halnum
    exact isWhiteSpace_visible (by omega) (by omega)
  · exact mark_visible c hmark
  · decide

theorem encodingChar_ne {d : Char} (h : encodingChar c = true) (hd : encodingChar d = false) :
    c ≠ d := by
  rintro rfl
  rw [h] at hd
  cases hd

end Characters

section Texts

/-- Trimming takes the spaces around a text without white space. -/
theorem trim_spaces {s : List Char} (a b : Nat) (h : ∀ c ∈ s, isWhiteSpace c = false) :
    trim (List.replicate a ' ' ++ s ++ List.replicate b ' ') = s := by
  have hspaces : ∀ n, ∀ c ∈ List.replicate n ' ', isWhiteSpace c = true := by
    intro n c hc
    rw [List.eq_of_mem_replicate hc]
    rfl
  -- Only white space is dropped, so a text without any stops it.
  have hstop : ∀ (s r : List Char), (∀ c ∈ s, isWhiteSpace c = false) → s ≠ [] →
      (s ++ r).dropWhile isWhiteSpace = s ++ r := by
    intro s r hs hne
    cases s with
    | nil => exact absurd rfl hne
    | cons c s =>
        have hc : ¬ isWhiteSpace c = true :=
          Bool.not_eq_true _ ▸ hs c List.mem_cons_self
        rw [List.cons_append, List.dropWhile_cons_of_neg hc]
  unfold trim
  by_cases hs : s = []
  · have hall : ∀ c ∈ List.replicate a ' ' ++ List.replicate b ' ', isWhiteSpace c = true := by
      intro c hc
      rcases List.mem_append.mp hc with hc | hc
      · exact hspaces a c hc
      · exact hspaces b c hc
    rw [hs, List.append_nil, List.dropWhile_eq_nil_iff.mpr hall]
    rfl
  · have hrev : ∀ c ∈ s.reverse, isWhiteSpace c = false :=
      fun c hc => h c (List.mem_reverse.mp hc)
    have hne : s.reverse ≠ [] := fun heq => hs (List.reverse_eq_nil_iff.mp heq)
    rw [List.append_assoc, List.dropWhile_append_of_pos (hspaces a), hstop _ _ h hs,
      List.reverse_append, List.reverse_replicate, List.dropWhile_append_of_pos (hspaces b)]
    have hend := hstop s.reverse [] hrev hne
    rw [List.append_nil] at hend
    rw [hend, List.reverse_reverse]

variable (c : SentCookie)

theorem name_visible : ∀ d ∈ c.name.toList, isWhiteSpace d = false :=
  fun d hd => tokenChar_visible (c.isToken.2 d hd)

/-- The reader on the text of one cookie. -/
theorem cookiePart_text (name : String) :
    cookiePart name.toList c.text
      = if c.name = name then some (encodeURIComponent c.value.toList) else none := by
  have hequals : ∀ d ∈ List.replicate c.before ' ' ++ c.name.toList, (d != '=') = true := by
    intro d hd
    rw [bne_iff_ne]
    rcases List.mem_append.mp hd with hd | hd
    · rw [List.eq_of_mem_replicate hd]
      decide
    · exact tokenChar_ne (c.isToken.2 d hd) (by decide)
  have hname : trim (List.replicate c.before ' ' ++ c.name.toList) = c.name.toList := by
    have htrim := trim_spaces c.before 0 (name_visible c)
    rw [List.replicate_zero, List.append_nil] at htrim
    exact htrim
  have hvalue : trim (encodeURIComponent c.value.toList ++ List.replicate c.after ' ')
      = encodeURIComponent c.value.toList :=
    trim_spaces 0 c.after (fun d hd => encodingChar_visible (encode_chars _ d hd))
  -- The first equals sign is the one after the name.
  unfold cookiePart SentCookie.text
  rw [List.dropWhile_append_of_pos hequals, List.takeWhile_append_of_pos hequals,
    List.dropWhile_cons_of_neg (by decide), List.takeWhile_cons_of_neg (by decide),
    List.append_nil]
  simp only [hname, hvalue, String.toList_inj]

/-- The text of a cookie has no semicolon. -/
theorem semicolon_text : ';' ∉ c.text := by
  intro hmem
  unfold SentCookie.text at hmem
  simp only [List.mem_append, List.mem_cons, List.mem_replicate] at hmem
  rcases hmem with (⟨_, hspace⟩ | hname) | hequals | hvalue | ⟨_, hspace⟩
  · exact absurd hspace (by decide)
  · exact tokenChar_ne (c.isToken.2 _ hname) (by decide) rfl
  · exact absurd hequals (by decide)
  · exact encodingChar_ne (encode_chars _ _ hvalue) (by decide) rfl
  · exact absurd hspace (by decide)

end Texts

section Headers

theorem findSome_text (cookies : List SentCookie) (name : String) :
    (cookies.map SentCookie.text).findSome? (cookiePart name.toList)
      = (cookies.find? (·.name == name)).map (fun c => encodeURIComponent c.value.toList) := by
  induction cookies with
  | nil => rfl
  | cons c cookies ih =>
      rw [List.map_cons, List.findSome?_cons, cookiePart_text, List.find?_cons]
      by_cases hname : c.name = name
      · simp only [hname, if_true, BEq.rfl, Option.map_some]
      · simp only [hname, if_false, beq_eq_false_iff_ne.mpr hname, ih]

/-- The reader finds the value of the first cookie with the name. -/
theorem readCookie_sent (cookies : List SentCookie) (name : String) :
    readCookie (some (cookieHeader cookies)) name
      = .ok ((cookies.find? (·.name == name)).map SentCookie.value) := by
  unfold readCookie cookieHeader
  simp only [String.toList_ofList]
  by_cases hnil : cookies = []
  · -- A header without cookies has no equals sign either.
    rw [hnil]
    rfl
  · have hsplit : ([';'].intercalate (cookies.map SentCookie.text)).splitOn ';'
        = cookies.map SentCookie.text := by
      refine List.splitOn_intercalate ';' (fun t ht => ?_)
        (fun h => hnil (List.map_eq_nil_iff.mp h))
      rcases List.mem_map.mp ht with ⟨c, _, rfl⟩
      exact semicolon_text c
    rw [hsplit, findSome_text]
    rcases hfind : cookies.find? (·.name == name) with _ | c
    · simp only [hfind, Option.map_none]
    · simp only [hfind, Option.map_some, decode_encode, String.ofList_toList]

end Headers

section Grants

/-- The grant's cookie has a token for its name, whatever the code. -/
theorem isToken_cookieNameFor {code : String} (h : Storable code) :
    IsToken (cookieNameFor code) := by
  have hcode : ∀ c, codeChar c = true → tokenChar c = true := by
    intro c hc
    unfold codeChar at hc
    rw [Bool.or_eq_true, Bool.or_eq_true, beq_iff_eq, beq_iff_eq] at hc
    rcases hc with (halnum | rfl) | rfl
    · -- The separators are no letters and no digits.
      have hrange := alphanum_range halnum
      unfold tokenChar
      rw [Bool.and_eq_true, Bool.and_eq_true, decide_eq_true_eq, decide_eq_true_eq,
        Bool.not_eq_true', decide_eq_false_iff_not]
      refine ⟨⟨by omega, by omega⟩, fun hmem => ?_⟩
      exact Bool.eq_false_iff.mp (separator_alphanum c hmem) halnum
    · decide
    · decide
  unfold cookieNameFor IsToken
  refine ⟨fun heq => ?_, fun c hc => ?_⟩
  · have hlen := congrArg String.length heq
    rw [String.length_append] at hlen
    exact absurd (Nat.add_eq_zero_iff.mp hlen).1 (by decide)
  · have hprefix : "link_unlock_".toList.all tokenChar = true := by decide
    rw [String.toList_append] at hc
    rcases List.mem_append.mp hc with hc | hc
    · exact List.all_eq_true.mp hprefix c hc
    · exact hcode c (storable_chars h c hc)

/-- A cookie that the unlock route sets carries a grant under the name of the
    code. -/
def setsGrant (P : Platform) (req : UnlockRequest) (r : Except Err Response) : Prop :=
  ∀ location k, r = .ok (.redirect location (some k)) →
    k.name = cookieNameFor req.shortCode ∧ ∃ linkId iat, k.value = unlockToken P linkId iat

theorem wp_unlock_cookie (P : Platform) (tid : Nat) (req : UnlockRequest) (w : World) :
    (unlock req).wp (exec P tid) (fun r _ => setsGrant P req r) w := by
  refine Prog.wp_bind _ w ((Prog.wp_iff _ w).mpr (fun chs r w₁ _ => ?_))
  cases r with
  | error e => exact fun location k h => by cases h
  | ok link =>
      change Prog.wp _ _ _ _
      -- Only a password that was verified sets a cookie.
      rcases hhash : truthy link.passwordHash with _ | hash
      · simp only [hhash]
        exact fun location k h => by cases h
      · simp only [hhash]
        intro ch valid w₂ _
        cases valid with
        | false => exact fun location k h => by cases h
        | true =>
            intro ch' token w₃ hx location k h
            simp only [exec, Option.some.injEq, Prod.mk.injEq] at hx
            cases h
            exact ⟨rfl, link.id, _, hx.1.symm⟩

end Grants

/-- Reading undoes serialisation: the value that is read is the first one under
    the name, whatever else the header has. The grant of an unlock is read back
    among any cookies of other names before it and any cookies after it. -/
theorem readCookie_cookieHeader (P : Platform) :
    (∀ (cookies : List SentCookie) (name : String),
      readCookie (some (cookieHeader cookies)) name
        = .ok ((cookies.find? (·.name == name)).map SentCookie.value)) ∧
    ∀ (tid : Nat) (req : UnlockRequest) (w : World) (chs : List Choice) (location : String)
      (k : UnlockCookie) (v : World), Storable req.shortCode →
      (unlock req).seqRun (exec P tid) chs w = some (.ok (.redirect location (some k)), v) →
      IsToken k.name ∧ (∃ linkId iat, k.value = unlockToken P linkId iat) ∧
      ∀ (before after : List SentCookie) (grant : SentCookie),
        grant.name = k.name → grant.value = k.value → (∀ c ∈ before, c.name ≠ k.name) →
        readCookie (some (cookieHeader (before ++ grant :: after))) (cookieNameFor req.shortCode)
          = .ok (some k.value) := by
  refine ⟨readCookie_sent, fun tid req w chs location k v hcode hrun => ?_⟩
  have hset := (Prog.wp_iff _ w).mp (wp_unlock_cookie P tid req w) chs _ v hrun
  rcases hset location k rfl with ⟨hname, hvalue⟩
  refine ⟨hname ▸ isToken_cookieNameFor hcode, hvalue, ?_⟩
  intro before after grant hgrant hgrantvalue hbefore
  -- The browser sends no cookie of that name before the grant.
  have hnone : before.find? (·.name == cookieNameFor req.shortCode) = none := by
    rw [List.find?_eq_none]
    intro c hc hmatch
    exact hbefore c hc (hname ▸ beq_iff_eq.mp hmatch)
  have hmatch : (grant.name == cookieNameFor req.shortCode) = true :=
    beq_iff_eq.mpr (hgrant.trans hname)
  rw [readCookie_sent, List.find?_append, hnone, Option.none_or, List.find?_cons, hmatch]
  exact congrArg (fun value => Except.ok (some value)) hgrantvalue

/-- A cookie of another link, whose value looks like the grant of `abc`. -/
def decoyCookie : SentCookie where
  name := cookieNameFor "abcd"
  value := "link_unlock_abc=x;"
  before := 1
  after := 0
  isToken := ⟨by decide, List.all_eq_true.mp (by decide)⟩

/-- The grant of `abc` is read back behind the decoy. -/
theorem readCookie_cookieHeader_decoy : ∃ token,
    readCookie (some (cookieHeader [decoyCookie,
      { name := cookieNameFor "abc", value := token, before := 1, after := 2,
        isToken := isToken_cookieNameFor storable_abc }])) "link_unlock_abc"
      = .ok (some token) := by
  have hends : ∃ chs r v, (unlock { shortCode := "abc", password := "p" }).seqRun
      (exec samplePlatform 0) chs aliasedWorld = some (r, v) :=
    Prog.exists_seqRun unlockOp_enabled _ (unlock_only _) aliasedWorld
  rcases hends with ⟨chs, r, v, hrun⟩
  have hr : r = .ok (.redirect "/abc" (some
      { name := cookieNameFor "abc", value := unlockToken samplePlatform "l" 0,
        maxAge := UNLOCK_COOKIE_MAX_AGE_MS, path := "/abc" })) :=
    unlock_run rfl hrun
  rw [hr] at hrun
  have hread := (readCookie_cookieHeader samplePlatform).2 0 _ aliasedWorld chs "/abc" _ v
    storable_abc hrun
  exact ⟨_, hread.2.2 [decoyCookie] [] _ rfl rfl (by decide)⟩

end ClickScope
