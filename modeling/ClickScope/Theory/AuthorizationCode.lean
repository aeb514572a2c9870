import ClickScope.Theory.ScrubbedEvents
import Mathlib.Data.List.TakeWhile

/-!
# Which Queries Lose Their Code

The authorization code of a sign-in comes in the query of the callback, and an
event can say the query in several ways: as a text, as a record, as a list of
pairs, and as a part of the URL.

The text is parsed, its `code` is deleted, and the rest is written again, so
that two events with different codes in it are the same once they are scrubbed.
The record, the list and the URL are passed on as they are. An event hides its
code exactly if none of these has one. In every way, the other parameters are
what they were.

## Main definitions

* `SegmentAlike`, `QueryAlike`, `UrlAlike`: Queries that differ only in codes.
* `CodeAlike`: Events that differ only in codes.
* `HidesCode`: Codes make no difference to the scrubbed event.
* `KeepsOthers`: The other parameters are kept.
* `CodeOnlyInText`: There is no code but in a query that is a text.

## Theorems

* `scrubQueryString_alike`: The codes of a text make no difference.
* `hidesCode`: No code outside of a text, none in the scrubbed event.
* `code_shown`: A property that is passed on shows its codes.
* `hidesCode_iff`: An event hides its code only if there is none outside of a
  text.
* `keepsOthers`: Scrubbing keeps the other parameters.
* `code_hidden_iff`: When an event hides its code, and keeps the rest.
-/

namespace ClickScope

open Json

section Texts

/-- Whether a segment is a `code`, however its name is written. -/
def codeName (segment : List Char) : Bool :=
  formDecode (segment.takeWhile (· != '=')) == "code".toList

/-- Segments that differ at most in the value of a `code`. -/
def SegmentAlike (s s' : List Char) : Prop :=
  s = s' ∨ (s.takeWhile (· != '=') = s'.takeWhile (· != '=') ∧ codeName s = true)

/-- Queries that differ at most in the values of their codes. -/
def QueryTextAlike (q q' : List Char) : Prop :=
  List.Forall₂ SegmentAlike (q.splitOn '&') (q'.splitOn '&')

def unmarked (q : List Char) : List Char := if q.head? = some '?' then q.drop 1 else q

/-- The same, for queries that may begin with a question mark. -/
def QueryStringAlike (q q' : List Char) : Prop :=
  q.head? = q'.head? ∧ QueryTextAlike (unmarked q) (unmarked q')

/-- The query of a URL. -/
def queryPart (url : List Char) : List Char :=
  let rest := url.dropWhile (fun c => c != '?' && c != '#')
  if rest.head? = some '?' then (rest.drop 1).takeWhile (· != '#') else []

/-- URLs that differ at most in the values of the codes in their queries. -/
def UrlTextAlike (u u' : List Char) : Prop :=
  u = u' ∨ ∃ before q q' after,
    (∀ c ∈ before, (c != '?' && c != '#') = true) ∧
    (∀ c ∈ q, (c != '#') = true) ∧ (∀ c ∈ q', (c != '#') = true) ∧
    (after = [] ∨ after.head? = some '#') ∧
    u = before ++ '?' :: (q ++ after) ∧ u' = before ++ '?' :: (q' ++ after) ∧ QueryTextAlike q q'

theorem segmentAlike_code {s s' : List Char} (h : SegmentAlike s s') :
    codeName s = codeName s' := by
  rcases h with rfl | ⟨hname, _⟩
  · rfl
  · rw [codeName, codeName, hname]

theorem codeName_nil : codeName [] = false := by decide

/-- What is left of a query without its codes. -/
theorem deleteParam_segments (q : List Char) :
    deleteParam "code".toList (parseParams q)
      = (((unmarked q).splitOn '&').filter
          (fun s => !(codeName s) && s ≠ [])).map parseSegment := by
  rw [deleteParam, parseParams, List.filter_map, querySegments, List.filter_filter]
  rfl

theorem filter_alike {ss ss' : List (List Char)} (h : List.Forall₂ SegmentAlike ss ss') :
    ss.filter (fun s => !(codeName s) && s ≠ [])
      = ss'.filter (fun s => !(codeName s) && s ≠ []) := by
  induction h with
  | nil => rfl
  | @cons s s' ss ss' hs _ ih =>
      rw [List.filter_cons, List.filter_cons, ih, ← segmentAlike_code hs]
      rcases hs with rfl | ⟨_, hcode⟩
      · rfl
      · rw [hcode, Bool.not_true, Bool.false_and, Bool.false_and, if_neg Bool.false_ne_true,
          if_neg Bool.false_ne_true]

/-- The codes of a text make no difference. -/
theorem scrubQueryString_alike {q q' : String} (h : QueryStringAlike q.toList q'.toList) :
    scrubQueryString q = scrubQueryString q' := by
  rw [scrubQueryString_eq, scrubQueryString_eq, deleteParam_segments, deleteParam_segments,
    filter_alike h.2]

/-- Without a code there is nothing that could differ. -/
theorem queryTextAlike_eq {q q' : List Char} (h : QueryTextAlike q q')
    (hnone : ∀ s ∈ q.splitOn '&', codeName s = false) : q = q' := by
  -- Segment by segment: only a code may differ, and there is none.
  have hsegments : q.splitOn '&' = q'.splitOn '&' := by
    unfold QueryTextAlike at h
    generalize q.splitOn '&' = ss at h hnone
    generalize q'.splitOn '&' = ss' at h
    induction h with
    | nil => rfl
    | cons hs _ ih =>
        rw [List.forall_mem_cons] at hnone
        rcases hs with rfl | ⟨_, hcode⟩
        · rw [ih hnone.2]
        · rw [hnone.1] at hcode
          cases hcode
  have hjoin : ['&'].intercalate (q.splitOn '&') = q := List.intercalate_splitOn '&'
  rw [← hjoin, hsegments, List.intercalate_splitOn]

theorem queryPart_parts {before q after : List Char}
    (hbefore : ∀ c ∈ before, (c != '?' && c != '#') = true) (hq : ∀ c ∈ q, (c != '#') = true)
    (hafter : after = [] ∨ after.head? = some '#') :
    queryPart (before ++ '?' :: (q ++ after)) = q := by
  unfold queryPart
  rw [List.dropWhile_append_of_pos hbefore, List.dropWhile_cons_of_neg (by decide)]
  simp only [List.head?_cons, if_true, List.drop_succ_cons, List.drop_zero]
  rw [List.takeWhile_append_of_pos hq]
  rcases hafter with rfl | hafter
  · exact List.append_nil q
  · rcases after with _ | ⟨c, after⟩
    · cases hafter
    · rw [List.head?_cons, Option.some.injEq] at hafter
      rw [List.takeWhile_cons_of_neg (by rw [hafter]; decide), List.append_nil]

theorem urlTextAlike_eq {u u' : List Char} (h : UrlTextAlike u u')
    (hnone : ∀ s ∈ (queryPart u).splitOn '&', codeName s = false) : u = u' := by
  rcases h with rfl | ⟨before, q, q', after, hbefore, hq, _, hafter, rfl, rfl, halike⟩
  · rfl
  · rw [queryPart_parts hbefore hq hafter] at hnone
    rw [queryTextAlike_eq halike hnone]

end Texts

section Codes

/-- A `code` with another value. -/
def otherValue (s : List Char) : List Char := if '=' ∈ s then s ++ ['x'] else s ++ ['=', 'x']

theorem otherValue_ne (s : List Char) : otherValue s ≠ s := by
  intro heq
  -- The other value is longer.
  have hlength := congrArg List.length heq
  unfold otherValue at hlength
  split_ifs at hlength
  · rw [List.length_append] at hlength
    simp only [List.length_cons, List.length_nil] at hlength
    omega
  · rw [List.length_append] at hlength
    simp only [List.length_cons, List.length_nil] at hlength
    omega

theorem otherValue_alike {s : List Char} (h : codeName s = true) :
    SegmentAlike s (otherValue s) := by
  refine Or.inr ⟨?_, h⟩
  unfold otherValue
  by_cases hequals : '=' ∈ s
  · rw [if_pos hequals]
    rcases List.append_of_mem hequals with ⟨before, after, rfl⟩
    -- The name ends at the first equals sign, which the added letter comes after.
    rw [List.append_assoc, List.takeWhile_append, List.takeWhile_append]
    simp only [List.cons_append, List.takeWhile_cons_of_neg (p := (· != '=')) (a := '=')
      (by decide)]
  · have hall : ∀ c ∈ s, (c != '=') = true := fun c hc =>
      bne_iff_ne.mpr (fun heq => hequals (heq ▸ hc))
    rw [if_neg hequals, List.takeWhile_append_of_pos hall, List.takeWhile_cons_of_neg (by decide),
      List.append_nil, List.takeWhile_eq_self_iff.mpr hall]

theorem otherValue_plain {s : List Char} {d : Char} (hd : d ∉ ['=', 'x']) (h : d ∉ s) :
    d ∉ otherValue s := by
  rw [List.mem_cons, List.mem_singleton, not_or] at hd
  unfold otherValue
  split_ifs
  · rw [List.mem_append, List.mem_singleton, not_or]
    exact ⟨h, hd.2⟩
  · rw [List.mem_append, List.mem_cons, List.mem_singleton, not_or, not_or]
    exact ⟨h, hd.1, hd.2⟩

/-- A query with other values for all of its codes. -/
def otherCodes (q : List Char) : List Char :=
  ['&'].intercalate ((q.splitOn '&').map (fun s => if codeName s then otherValue s else s))

theorem otherCodes_splitOn (q : List Char) :
    (otherCodes q).splitOn '&'
      = (q.splitOn '&').map (fun s => if codeName s then otherValue s else s) := by
  refine List.splitOn_intercalate '&' (fun s hs => ?_) (fun hnil => ?_)
  · rcases List.mem_map.mp hs with ⟨t, ht, rfl⟩
    have hsep := (mem_splitOn ht).1
    split_ifs
    · exact otherValue_plain (by decide) hsep
    · exact hsep
  · exact List.splitOn_ne_nil '&' q (List.map_eq_nil_iff.mp hnil)

theorem otherCodes_alike (q : List Char) : QueryTextAlike q (otherCodes q) := by
  rw [QueryTextAlike, otherCodes_splitOn, List.forall₂_map_right_iff]
  refine List.forall₂_same.mpr fun s _ => ?_
  split_ifs with hcode
  · exact otherValue_alike hcode
  · exact Or.inl rfl

theorem otherCodes_ne {q s : List Char} (hs : s ∈ q.splitOn '&') (hcode : codeName s = true) :
    otherCodes q ≠ q := by
  intro heq
  have hsplit := otherCodes_splitOn q
  rw [heq] at hsplit
  -- Splitting gives the segments back, so the code would have kept its value.
  have hfixed := List.map_inj_left.mp ((List.map_id _).trans hsplit) s hs
  rw [if_pos hcode] at hfixed
  exact otherValue_ne s hfixed.symm

theorem otherCodes_plain {q : List Char} {d : Char} (hd : d ∉ ['=', 'x', '&']) (h : d ∉ q) :
    d ∉ otherCodes q := by
  intro hmem
  rcases mem_intercalate hmem with rfl | ⟨t, ht, hdt⟩
  · exact hd (by decide)
  · rcases List.mem_map.mp ht with ⟨s, hs, rfl⟩
    have hds : d ∉ s := fun hds => h ((mem_splitOn hs).2 d hds)
    split_ifs at hdt
    · refine otherValue_plain (fun hmem => hd ?_) hds hdt
      exact List.mem_append_left ['&'] hmem
    · exact hds hdt

/-- A list falls into a part that passes a test and a rest that does not begin
    with such a character. -/
theorem span_parts (p : Char → Bool) (l : List Char) :
    (∀ c ∈ l.takeWhile p, p c = true) ∧
      (l.dropWhile p = [] ∨ ∃ c t, l.dropWhile p = c :: t ∧ p c = false) := by
  refine ⟨fun c hc => List.mem_takeWhile_imp hc, ?_⟩
  have hnot := List.head?_dropWhile_not p l
  rcases hrest : l.dropWhile p with _ | ⟨c, t⟩
  · exact Or.inl rfl
  · rw [hrest] at hnot
    exact Or.inr ⟨c, t, rfl, hnot⟩

/-- A URL with a code has another value for it. -/
theorem urlTextAlike_other {u s : List Char} (hs : s ∈ (queryPart u).splitOn '&')
    (hcode : codeName s = true) : ∃ u', UrlTextAlike u u' ∧ u' ≠ u := by
  have hsplit := List.takeWhile_append_dropWhile (p := fun c => c != '?' && c != '#') (l := u)
  have hbefore := (span_parts (fun c => c != '?' && c != '#') u).1
  unfold queryPart at hs
  generalize u.takeWhile (fun c => c != '?' && c != '#') = before at hsplit hbefore
  rcases hrest : u.dropWhile (fun c => c != '?' && c != '#') with _ | ⟨c, rest⟩
  · -- no query: its only segment is empty, and that is no code
    simp only [hrest, List.head?_nil, reduceCtorEq, if_false, List.splitOn_nil,
      List.mem_singleton] at hs
    rw [hs, codeName_nil] at hcode
    cases hcode
  · simp only [hrest, List.head?_cons, Option.some.injEq, List.drop_one, List.tail_cons] at hs
    by_cases hc : c = '?'
    · rw [if_pos hc] at hs
      have hquery := List.takeWhile_append_dropWhile (p := fun c => c != '#') (l := rest)
      have hparts := span_parts (fun c => c != '#') rest
      generalize rest.takeWhile (fun c => c != '#') = q at hquery hparts hs
      generalize rest.dropWhile (fun c => c != '#') = after at hquery hparts
      have hu : u = before ++ '?' :: (q ++ after) := by rw [← hsplit, hrest, hc, hquery]
      -- The new value has no mark that would end the query.
      have hmark : '#' ∉ q := fun hmem => absurd (hparts.1 '#' hmem) (by decide)
      have hplain : ∀ c ∈ otherCodes q, (c != '#') = true := fun c hc =>
        bne_iff_ne.mpr (fun heq => otherCodes_plain (by decide) hmark (heq ▸ hc))
      have hafter : after = [] ∨ after.head? = some '#' := by
        rcases hparts.2 with rfl | ⟨d, t, rfl, hd⟩
        · exact Or.inl rfl
        · rw [bne_eq_false_iff_eq] at hd
          exact Or.inr (congrArg some hd)
      refine ⟨before ++ '?' :: (otherCodes q ++ after), Or.inr ⟨before, q, otherCodes q, after,
        hbefore, hparts.1, hplain, hafter, hu, rfl, otherCodes_alike q⟩, fun heq => ?_⟩
      rw [hu, List.append_cancel_left_eq, List.cons.injEq] at heq
      exact otherCodes_ne hs hcode (List.append_cancel_right heq.2)
    · -- a fragment comes first, and nothing in it is a query
      rw [if_neg hc, List.splitOn_nil, List.mem_singleton] at hs
      rw [hs, codeName_nil] at hcode
      cases hcode

end Codes

section Events

/-- A pair of the name `code` and a value. -/
def CodePair (x : JsData) : Prop := ∃ v, x = .array [textData "code", v]

/-- Queries, in any of their ways, that differ at most in the values of their
    codes. -/
def QueryAlike : JsData → JsData → Prop
  | .primitive (.string q), .primitive (.string q') => QueryStringAlike q.toList q'.toList
  | .object proto fs, .object proto' gs => proto = proto' ∧ SameBut (· = "code") fs gs
  | .array xs, .array ys => List.Forall₂ (fun x y => x = y ∨ (CodePair x ∧ CodePair y)) xs ys
  | v, w => v = w

def UrlAlike : JsData → JsData → Prop
  | .primitive (.string u), .primitive (.string u') => UrlTextAlike u.toList u'.toList
  | v, w => v = w

def codeRequestField (key : String) (v w : JsData) : Prop :=
  if key = "query_string" then QueryAlike v w
  else if key = "url" then UrlAlike v w
  else v = w

def CodeRequestAlike : JsData → JsData → Prop
  | .object proto fs, .object proto' gs => proto = proto' ∧ AlikeOwn codeRequestField fs gs
  | v, w => v = w

def codeEventField (key : String) (v w : JsData) : Prop :=
  if key = "request" then CodeRequestAlike v w else v = w

/-- Events that differ at most in the values of the codes in their queries. -/
def CodeAlike (e e' : SentryEvent) : Prop := AlikeOwn codeEventField e e'

/-- Codes make no difference to the scrubbed event. -/
def HidesCode (e : SentryEvent) : Prop :=
  ∀ e', CodeAlike e e' → scrubSentryEvent e = scrubSentryEvent e'

/-- A plain object whose request is, if there is one, a plain object. -/
structure PlainEvent (e : SentryEvent) : Prop where
  names : (e.map (·.1)).Nodup
  request : own "request" e = undefinedData ∨
    ∃ fs, own "request" e = .object none fs ∧ (fs.map (·.1)).Nodup

/-- A query that is no text and has no code. -/
def NoCodeUnlessText : JsData → Prop
  | .object _ fs => "code" ∉ fs.map (·.1)
  | .array items => ∀ x ∈ items, ¬ CodePair x
  | .primitive _ => True

def NoCodeInUrl : JsData → Prop
  | .primitive (.string u) => ∀ s ∈ (queryPart u.toList).splitOn '&', codeName s = false
  | _ => True

/-- There is no code but in a query that is a text. -/
def CodeOnlyInText (e : SentryEvent) : Prop :=
  NoCodeUnlessText (prop "query_string" (own "request" e)) ∧
    NoCodeInUrl (prop "url" (own "request" e))

theorem queryTextAlike_refl (q : List Char) : QueryTextAlike q q :=
  List.forall₂_same.mpr (fun _ _ => Or.inl rfl)

theorem queryAlike_refl (v : JsData) : QueryAlike v v := by
  cases v with
  | primitive p =>
      cases p with
      | string q => exact ⟨rfl, queryTextAlike_refl _⟩
      | undefined => rfl
      | null => rfl
      | boolean b => rfl
      | number n => rfl
      | other id => rfl
  | array items => exact List.forall₂_same.mpr (fun _ _ => Or.inl rfl)
  | object proto fields => exact ⟨rfl, List.forall₂_same.mpr (fun _ _ => ⟨rfl, Or.inr rfl⟩)⟩

theorem urlAlike_refl (v : JsData) : UrlAlike v v := by
  cases v with
  | primitive p =>
      cases p with
      | string u => exact Or.inl rfl
      | undefined => rfl
      | null => rfl
      | boolean b => rfl
      | number n => rfl
      | other id => rfl
  | array items => rfl
  | object proto fields => rfl

theorem codeRequestField_refl (k : String) (v : JsData) : codeRequestField k v v := by
  unfold codeRequestField
  split_ifs
  · exact queryAlike_refl v
  · exact urlAlike_refl v
  · rfl

theorem forall₂_eq_of {α : Type} {R : α → α → Prop} {p : α → Prop} {xs ys : List α}
    (h : List.Forall₂ R xs ys) (hp : ∀ x ∈ xs, p x) (hR : ∀ x y, p x → R x y → x = y) :
    xs = ys := by
  induction h with
  | nil => rfl
  | cons hxy _ ih =>
      rw [List.forall_mem_cons] at hp
      rw [hR _ _ hp.1 hxy, ih hp.2]

/-- A query that is no text cannot differ if it has no code. -/
theorem queryAlike_cases {v w : JsData} (h : QueryAlike v w) (hnone : NoCodeUnlessText v) :
    v = w ∨ ∃ q q', v = textData q ∧ w = textData q' ∧ QueryStringAlike q.toList q'.toList := by
  unfold QueryAlike at h
  split at h
  · exact Or.inr ⟨_, _, rfl, rfl, h⟩
  · rename_i proto fs proto' gs
    rcases h with ⟨rfl, hfields⟩
    refine Or.inl (congrArg (JsData.object proto) (forall₂_eq_of (p := fun f => f.1 ≠ "code")
      hfields (fun f hf => ?_) ?_))
    · exact fun heq => hnone (heq ▸ List.mem_map_of_mem hf)
    · exact fun f g hf hfg => Prod.ext hfg.1 (hfg.2.resolve_left hf)
  · exact Or.inl (congrArg JsData.array (forall₂_eq_of h hnone
      (fun x y hx hxy => hxy.resolve_right (fun hpair => hx hpair.1))))
  · exact Or.inl h

theorem urlAlike_eq {v w : JsData} (h : UrlAlike v w) (hnone : NoCodeInUrl v) : v = w := by
  unfold UrlAlike at h
  split at h
  · rename_i u u'
    exact congrArg textData (String.toList_inj.mp (urlTextAlike_eq h hnone))
  · exact h

theorem own_prop (k : String) (fields : List (String × JsData)) :
    prop k (.object none fields) = own k fields := rfl

/-- Requests without a code outside of a text are the same once they are
    scrubbed. -/
theorem scrubRequest_codeAlike {fs gs : List (String × JsData)} {proto : Option JsData}
    (h : AlikeOwn codeRequestField fs gs)
    (hquery : NoCodeUnlessText (prop "query_string" (.object proto fs)))
    (hurl : NoCodeInUrl (prop "url" (.object proto fs))) :
    scrubRequest (.object proto fs) = scrubRequest (.object proto gs) := by
  have hprop : ∀ k, codeRequestField k (prop k (.object proto fs)) (prop k (.object proto gs)) :=
    fun k => alikeOwn_prop h proto (codeRequestField_refl k)
  have hheaders : prop "headers" (.object proto fs) = prop "headers" (.object proto gs) :=
    hprop "headers"
  have hcookies : prop "cookies" (.object proto fs) = prop "cookies" (.object proto gs) :=
    hprop "cookies"
  have hdata : prop "data" (.object proto fs) = prop "data" (.object proto gs) := hprop "data"
  have hwritten : queryOverride (prop "query_string" (.object proto fs))
      = queryOverride (prop "query_string" (.object proto gs)) := by
    rcases queryAlike_cases (hprop "query_string") hquery with heq | ⟨q, q', hq, hq', halike⟩
    · rw [heq]
    · rw [hq, hq', textData, textData, queryOverride, queryOverride,
        scrubQueryString_alike halike]
  have hoverrides : requestOverrides (.object proto fs) = requestOverrides (.object proto gs) := by
    unfold requestOverrides
    rw [hheaders, hcookies, hdata, hwritten]
  rw [scrubRequest, scrubRequest, ← hoverrides, entries, entries]
  refine congrArg (JsData.object none) (alikeOwn_setAll h fun k v w hv hw hvw hne => ?_)
  have hown := prop_own proto hv
  -- Only a query that is a text can differ, and it is written.
  unfold codeRequestField at hvw
  split_ifs at hvw with hk hk
  · subst hk
    rcases queryAlike_cases hvw (hown ▸ hquery) with heq | ⟨q, q', hq, _, _⟩
    · exact absurd heq hne
    · exact List.mem_map.mpr ⟨_, mem_requestOverrides.mpr
        (Or.inr (Or.inr (Or.inr ⟨q, hown.trans hq, rfl⟩))), rfl⟩
  · subst hk
    exact absurd (urlAlike_eq hvw (hown ▸ hurl)) hne
  · exact absurd hvw hne

/-- No code outside of a text, none in the scrubbed event. -/
theorem hidesCode {e : SentryEvent} (h : CodeOnlyInText e) : HidesCode e := by
  intro e' halike
  have hown : ∀ k, k ≠ "request" → own k e = own k e' := by
    intro k hk
    have hfield : codeEventField k (own k e) (own k e') := by
      refine alikeOwn_own halike ?_
      rw [codeEventField, if_neg hk]
    rw [codeEventField, if_neg hk] at hfield
    exact hfield
  have hrequest : CodeRequestAlike (own "request" e) (own "request" e') := by
    have hfield : codeEventField "request" (own "request" e) (own "request" e') :=
      alikeOwn_own halike rfl
    exact hfield
  -- The requests are scrubbed to the same, whether they differed or not.
  have hscrub : (own "request" e).truthy = (own "request" e').truthy ∧
      scrubRequest (own "request" e) = scrubRequest (own "request" e') ∧
      (own "request" e = own "request" e' ∨ (own "request" e).truthy = true) := by
    rcases h with ⟨hquery, hurl⟩
    unfold CodeRequestAlike at hrequest
    split at hrequest
    · rename_i proto fs proto' gs hr hr'
      rcases hrequest with ⟨rfl, hfields⟩
      rw [hr] at hquery hurl ⊢
      rw [hr']
      exact ⟨rfl, scrubRequest_codeAlike hfields hquery hurl, Or.inr rfl⟩
    · rw [hrequest]
      exact ⟨rfl, rfl, Or.inl rfl⟩
  have hoverrides : eventOverrides e = eventOverrides e' := by
    unfold eventOverrides
    rw [hscrub.1, hscrub.2.1, hown "extra" (by decide), hown "contexts" (by decide)]
  rw [scrubSentryEvent, scrubSentryEvent, ← hoverrides]
  refine alikeOwn_setAll halike fun k v w hv hw hvw hne => ?_
  unfold codeEventField at hvw
  split_ifs at hvw with hk
  · subst hk
    have hv' : own "request" e = v := by rw [own, hv, Option.getD_some]
    have hw' : own "request" e' = w := by rw [own, hw, Option.getD_some]
    -- Only the request can differ, and then it is written.
    rw [hv', hw'] at hscrub
    exact List.mem_map.mpr ⟨_, mem_eventOverrides.mpr
      (Or.inl ⟨hv'.symm ▸ hscrub.2.2.resolve_left hne, rfl⟩), rfl⟩
  · exact absurd hvw hne

theorem lookup_of_own {k : String} {fields : List (String × JsData)}
    (h : own k fields ≠ undefinedData) : fields.lookup k = some (own k fields) := by
  unfold own at h ⊢
  rcases hk : fields.lookup k with _ | v
  · rw [hk] at h
    exact absurd rfl h
  · rw [Option.getD_some]

theorem prop_setOwn (k : String) (v : JsData) (fields : List (String × JsData)) :
    prop k (.object none (setOwn k v fields)) = v := by
  rw [own_prop, own, lookup_setOwn, if_pos rfl, Option.getD_some]

/-- A property that is passed on shows its codes. -/
theorem code_shown {e : SentryEvent} {fs : List (String × JsData)} {k : String} {v w : JsData}
    (h : PlainEvent e) (hr : own "request" e = .object none fs) (hnd : (fs.map (·.1)).Nodup)
    (hv : fs.lookup k = some v) (hvw : codeRequestField k v w) (hne : v ≠ w)
    (hkeep : prop k (scrubRequest (.object none fs)) = v)
    (hkeep' : prop k (scrubRequest (.object none (setOwn k w fs))) = w) : ¬ HidesCode e := by
  intro hhides
  have hlookup : e.lookup "request" = some (.object none fs) := by
    rw [← hr]
    exact lookup_of_own (by rw [hr]; exact JsData.noConfusion)
  have hrequest : CodeRequestAlike (.object none fs) (.object none (setOwn k w fs)) :=
    ⟨rfl, alikeOwn_setOwn hnd hv hvw (fun k' v' _ => codeRequestField_refl k' v')⟩
  have halike : CodeAlike e (setOwn "request" (.object none (setOwn k w fs)) e) :=
    alikeOwn_setOwn h.names hlookup hrequest (fun k' v' hk' => by rw [codeEventField, if_neg hk'])
  have hr' : own "request" (setOwn "request" (.object none (setOwn k w fs)) e)
      = .object none (setOwn k w fs) := by
    rw [own, lookup_setOwn, if_pos rfl, Option.getD_some]
  -- Both events are scrubbed to the same request, so their properties agree.
  have hsame := congrArg (own "request") (hhides _ halike)
  rw [scrubSentryEvent_request, scrubSentryEvent_request, hr, hr'] at hsame
  simp only [JsData.truthy, if_true] at hsame
  exact hne (hkeep.symm.trans ((congrArg (prop k) hsame).trans hkeep'))

theorem exists_other (v : JsData) : ∃ s : String, textData s ≠ v := by
  by_cases hv : v = textData "x"
  · refine ⟨"y", fun heq => ?_⟩
    rw [hv, textData, textData, JsData.primitive.injEq, Primitive.string.injEq] at heq
    exact absurd heq (by decide)
  · exact ⟨"x", fun heq => hv heq.symm⟩

/-- A record or a list with a code has another value for it. -/
theorem queryAlike_other {v : JsData} (h : ¬ NoCodeUnlessText v) :
    ∃ w, QueryAlike v w ∧ v ≠ w ∧ (¬ ∃ q, v = textData q) ∧ ¬ ∃ q, w = textData q := by
  cases v with
  | primitive p => exact absurd trivial h
  | array items =>
      rw [NoCodeUnlessText] at h
      push Not at h
      rcases h with ⟨x, hx, v, rfl⟩
      rcases List.append_of_mem hx with ⟨before, after, rfl⟩
      rcases exists_other v with ⟨s, hs⟩
      have hpair : ∀ u, CodePair (.array [textData "code", u]) := fun u => ⟨u, rfl⟩
      -- The pair with the other value stands where the code was.
      refine ⟨.array (before ++ .array [textData "code", textData s] :: after), ?_, ?_, ?_, ?_⟩
      · have hsame : ∀ xs : List JsData,
            List.Forall₂ (fun x y => x = y ∨ (CodePair x ∧ CodePair y)) xs xs :=
          fun xs => List.forall₂_same.mpr (fun _ _ => Or.inl rfl)
        exact List.rel_append (hsame before)
          (List.Forall₂.cons (Or.inr ⟨hpair v, hpair (textData s)⟩) (hsame after))
      · intro heq
        rw [JsData.array.injEq, List.append_cancel_left_eq, List.cons.injEq,
          JsData.array.injEq, List.cons.injEq, List.cons.injEq] at heq
        exact hs heq.1.2.1.symm
      · rintro ⟨q, hq⟩
        cases hq
      · rintro ⟨q, hq⟩
        cases hq
  | object proto fields =>
      rw [NoCodeUnlessText, not_not] at h
      rcases List.mem_map.mp h with ⟨⟨k, v⟩, hf, hk⟩
      rcases List.append_of_mem hf with ⟨before, after, rfl⟩
      rcases exists_other v with ⟨s, hs⟩
      refine ⟨.object proto (before ++ (k, textData s) :: after), ⟨rfl, ?_⟩, ?_, ?_, ?_⟩
      · exact List.rel_append (List.forall₂_same.mpr (fun _ _ => ⟨rfl, Or.inr rfl⟩))
          (List.Forall₂.cons ⟨rfl, Or.inl hk⟩
            (List.forall₂_same.mpr (fun _ _ => ⟨rfl, Or.inr rfl⟩)))
      · intro heq
        rw [JsData.object.injEq, List.append_cancel_left_eq, List.cons.injEq,
          Prod.mk.injEq] at heq
        exact hs heq.2.1.2.symm
      · rintro ⟨q, hq⟩
        cases hq
      · rintro ⟨q, hq⟩
        cases hq

theorem urlAlike_other {v : JsData} (h : ¬ NoCodeInUrl v) : ∃ w, UrlAlike v w ∧ v ≠ w := by
  unfold NoCodeInUrl at h
  split at h
  · rename_i u
    push Not at h
    rcases h with ⟨s, hs, hcode⟩
    rcases urlTextAlike_other hs (Bool.ne_false_iff.mp hcode) with ⟨u', halike, hne⟩
    refine ⟨textData (String.ofList u'), ?_, fun heq => hne ?_⟩
    · change UrlTextAlike u.toList (String.ofList u').toList
      rw [String.toList_ofList]
      exact halike
    · have htext : u = String.ofList u' := by
        simpa only [textData, JsData.primitive.injEq, Primitive.string.injEq] using heq
      rw [htext, String.toList_ofList]
  · exact absurd trivial h

/-- The URL is passed on as it is. -/
theorem url_kept (r v : JsData) : ("url", v) ∉ requestOverrides r := by
  intro hmem
  rcases requestOverrides_key hmem with ⟨heq, _⟩ | ⟨heq, _⟩ | ⟨heq, _⟩ | ⟨heq, _⟩
  · exact absurd heq (by decide)
  · exact absurd heq (by decide)
  · exact absurd heq (by decide)
  · exact absurd heq (by decide)

/-- An event hides its code only if there is none outside of a text. -/
theorem hidesCode_iff {e : SentryEvent} (h : PlainEvent e) : HidesCode e ↔ CodeOnlyInText e := by
  refine ⟨fun hhides => ?_, hidesCode⟩
  rcases h.request with hr | ⟨fs, hr, hnd⟩
  · rw [CodeOnlyInText, hr]
    exact ⟨trivial, trivial⟩
  rw [CodeOnlyInText, hr]
  constructor
  · by_contra hcode
    rcases queryAlike_other hcode with ⟨w, halike, hne, hv, hw⟩
    -- An absent property has no code, so this one is in the request.
    have hlookup := lookup_of_own (fun hnone => hcode (by rw [own_prop, hnone]; trivial))
    refine code_shown h hr hnd hlookup halike hne (scrubRequest_query_kept rfl hv) ?_ hhides
    refine (scrubRequest_query_kept rfl ?_).trans (prop_setOwn _ _ _)
    rw [prop_setOwn]
    exact hw
  · by_contra hcode
    rcases urlAlike_other hcode with ⟨w, halike, hne⟩
    have hlookup := lookup_of_own (fun hnone => hcode (by rw [own_prop, hnone]; trivial))
    refine code_shown h hr hnd hlookup halike hne (scrubRequest_kept rfl (url_kept _)) ?_ hhides
    exact (scrubRequest_kept rfl (url_kept _)).trans (prop_setOwn _ _ _)

end Events

section Others

def isText (s : String) : JsData → Bool
  | .primitive (.string t) => t == s
  | _ => false

/-- The name and the value of a pair. -/
def pairOf : JsData → Option (JsData × JsData)
  | .array [name, value] => some (name, value)
  | _ => none

def paramData (p : List Char × List Char) : JsData × JsData :=
  (textData (String.ofList p.1), textData (String.ofList p.2))

/-- The parameters of a query, decoded and in order. -/
def queryParams : JsData → List (JsData × JsData)
  | .primitive (.string q) => (parseParams q.toList).map paramData
  | .primitive _ => []
  | .object _ fields => fields.map (fun f => (textData f.1, f.2))
  | .array items => items.filterMap pairOf

/-- The parameters of the query of a URL. -/
def urlParams : JsData → List (JsData × JsData)
  | .primitive (.string u) =>
      ((((queryPart u.toList).splitOn '&').filter (· ≠ [])).map parseSegment).map paramData
  | _ => []

/-- All but the codes. -/
def others (params : List (JsData × JsData)) : List (JsData × JsData) :=
  params.filter (fun p => !(isText "code" p.1))

/-- The other parameters are kept, each with its value, in order. -/
def KeepsOthers (e : SentryEvent) : Prop :=
  others (queryParams (prop "query_string" (own "request" (scrubSentryEvent e))))
      = others (queryParams (prop "query_string" (own "request" e))) ∧
    others (urlParams (prop "url" (own "request" (scrubSentryEvent e))))
      = others (urlParams (prop "url" (own "request" e)))

theorem isText_paramData (p : List Char × List Char) :
    (!(isText "code" (paramData p).1)) = (p.1 != "code".toList) := by
  change (!(String.ofList p.1 == "code")) = _
  rw [Bool.eq_iff_iff, Bool.not_eq_true', beq_eq_false_iff_ne, bne_iff_ne]
  refine not_congr ⟨fun heq => ?_, fun heq => ?_⟩
  · rw [← heq]
    exact String.toList_ofList.symm
  · rw [heq]
    exact String.ofList_toList

theorem others_deleteParam (params : List (List Char × List Char)) :
    others ((deleteParam "code".toList params).map paramData) = others (params.map paramData) := by
  rw [others, others, deleteParam, List.filter_map, List.filter_map, List.filter_filter]
  refine congrArg (List.map paramData) (List.filter_congr fun p _ => ?_)
  rw [Function.comp_apply, isText_paramData, Bool.and_self]

/-- Scrubbing keeps the other parameters of every query. -/
theorem keepsOthers {e : SentryEvent} (h : PlainEvent e) : KeepsOthers e := by
  rw [KeepsOthers, scrubSentryEvent_request]
  rcases h.request with hr | ⟨fs, hr, hnd⟩
  · rw [hr]
    exact ⟨rfl, rfl⟩
  have htruthy : (JsData.object none fs).truthy = true := rfl
  rw [hr, if_pos htruthy]
  constructor
  · by_cases hq : ∃ q, prop "query_string" (.object none fs) = textData q
    · rcases hq with ⟨q, hq⟩
      -- The written query is read back as the parameters that were not deleted.
      have hread : parseParams (scrubQueryString q).toList
          = deleteParam "code".toList (parseParams q.toList) := by
        rw [scrubQueryString_eq]
        exact (congrArg parseParams String.toList_ofList).trans (parseParams_serializeParams _)
      rw [scrubRequest_text hq, hq, textData, textData, queryParams, queryParams, hread,
        others_deleteParam]
    · rw [scrubRequest_query_kept rfl hq]
  · rw [scrubRequest_kept rfl (url_kept _)]

/-- An event hides its code, and keeps the other parameters, exactly if there is
    no code in it but in a query that is a text. -/
theorem code_hidden_iff (e : SentryEvent) (h : PlainEvent e) :
    (HidesCode e ∧ KeepsOthers e) ↔ CodeOnlyInText e := by
  rw [hidesCode_iff h]
  exact and_iff_left (keepsOthers h)

/-- The request of a callback, with its URL. -/
def callbackEvent (url : String) : SentryEvent :=
  [("request", .object none [("url", textData url), ("query_string", textData "code=abc&state=s")])]

theorem plain_callback (url : String) : PlainEvent (callbackEvent url) := by
  have hnames : ["url", "query_string"].Nodup := by decide
  exact ⟨List.nodup_singleton "request", Or.inr ⟨_, rfl, hnames⟩⟩

theorem code_hidden_iff_callback :
    (HidesCode (callbackEvent "/auth/google/callback") ∧
      KeepsOthers (callbackEvent "/auth/google/callback")) ∧
    ¬ (HidesCode (callbackEvent "/auth/google/callback?code=abc") ∧
      KeepsOthers (callbackEvent "/auth/google/callback?code=abc")) := by
  refine ⟨(code_hidden_iff _ (plain_callback _)).mpr ⟨trivial, ?_⟩,
    fun hboth => ?_⟩
  · change ∀ s ∈ (queryPart "/auth/google/callback".toList).splitOn '&', codeName s = false
    decide
  · have hurl : ∀ s ∈ (queryPart "/auth/google/callback?code=abc".toList).splitOn '&',
        codeName s = false := ((code_hidden_iff _ (plain_callback _)).mp hboth).2
    exact absurd hurl (by decide)

/-- The request of a callback, with its query as a record. -/
def recordEvent (code : String) : SentryEvent :=
  [("request", .object none [("query_string", .object none [("code", textData code)])])]

/-- Codes in a URL and in a record are in the scrubbed event. -/
theorem codes_shown :
    (CodeAlike (callbackEvent "/auth/google/callback?code=abc")
        (callbackEvent "/auth/google/callback?code=xyz") ∧
      scrubSentryEvent (callbackEvent "/auth/google/callback?code=abc")
        ≠ scrubSentryEvent (callbackEvent "/auth/google/callback?code=xyz")) ∧
    (CodeAlike (recordEvent "abc") (recordEvent "xyz") ∧
      scrubSentryEvent (recordEvent "abc") ≠ scrubSentryEvent (recordEvent "xyz")) := by
  have hnames : ["url", "query_string"].Nodup := by decide
  -- The two codes are values of one parameter, which may differ.
  have hsegments : QueryTextAlike "code=abc".toList "code=xyz".toList :=
    List.Forall₂.cons (Or.inr ⟨by decide, by decide⟩) List.Forall₂.nil
  have hpath : "/auth/google/callback".toList.all (fun c => c != '?' && c != '#') = true := by
    decide
  have habc : "code=abc".toList.all (· != '#') = true := by decide
  have hxyz : "code=xyz".toList.all (· != '#') = true := by decide
  have hurl : UrlTextAlike "/auth/google/callback?code=abc".toList
      "/auth/google/callback?code=xyz".toList :=
    Or.inr ⟨_, _, _, [], List.all_eq_true.mp hpath, List.all_eq_true.mp habc,
      List.all_eq_true.mp hxyz, Or.inl rfl, rfl, rfl, hsegments⟩
  have hquery : QueryAlike (textData "code=abc&state=s") (textData "code=abc&state=s") :=
    queryAlike_refl _
  have hrequest : CodeRequestAlike (own "request" (callbackEvent "/auth/google/callback?code=abc"))
      (own "request" (callbackEvent "/auth/google/callback?code=xyz")) :=
    ⟨rfl, hnames, List.Forall₂.cons ⟨rfl, hurl⟩ (List.Forall₂.cons ⟨rfl, hquery⟩ List.Forall₂.nil)⟩
  have hrecord : CodeRequestAlike (own "request" (recordEvent "abc"))
      (own "request" (recordEvent "xyz")) :=
    ⟨rfl, List.nodup_singleton _, List.Forall₂.cons
      ⟨rfl, rfl, List.Forall₂.cons ⟨rfl, Or.inl rfl⟩ List.Forall₂.nil⟩ List.Forall₂.nil⟩
  refine ⟨⟨⟨List.nodup_singleton _, List.Forall₂.cons ⟨rfl, hrequest⟩ List.Forall₂.nil⟩,
    fun heq => ?_⟩, ⟨⟨List.nodup_singleton _, List.Forall₂.cons ⟨rfl, hrecord⟩ List.Forall₂.nil⟩,
    fun heq => ?_⟩⟩
  · -- The url is not scrubbed, so that it still tells the events apart.
    have hshown : ∀ url, prop "url" (own "request" (scrubSentryEvent (callbackEvent url)))
        = textData url := by
      intro url
      rw [scrubSentryEvent_request]
      exact scrubRequest_kept rfl (url_kept _)
    have htext := (hshown _).symm.trans
      ((congrArg (fun e => prop "url" (own "request" e)) heq).trans
      (hshown _))
    rw [textData, textData, JsData.primitive.injEq, Primitive.string.injEq] at htext
    exact absurd htext (by decide)
  · -- Neither is a query that is given as a record.
    have hshown : ∀ code, prop "query_string" (own "request" (scrubSentryEvent (recordEvent code)))
        = .object none [("code", textData code)] := by
      intro code
      rw [scrubSentryEvent_request]
      exact scrubRequest_query_kept rfl (fun hq => by rcases hq with ⟨q, hq⟩; cases hq)
    have htext := (hshown _).symm.trans
      ((congrArg (fun e => prop "query_string" (own "request" e)) heq).trans (hshown _))
    rw [JsData.object.injEq, List.cons.injEq, Prod.mk.injEq, textData, textData,
      JsData.primitive.injEq, Primitive.string.injEq] at htext
    exact absurd htext.2.1.2 (by decide)

end Others

end ClickScope
