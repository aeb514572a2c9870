import ClickScope.Theory.Redaction
import ClickScope.Theory.SearchParams

/-!
# What Scrubbing Hides and What It Keeps

Two events that differ only in secrets are the same once they are scrubbed, and
nothing else of the headers, the body, the extra data and the contexts is lost.

An event is scrubbed in a few properties of it and of its request. Each of them
is written in its place. Two events that differ only there, by secrets, are the
same after the writing, since what is written does not depend on the secrets.
And what is written is, for another scrubbing, what would be written again, so
that scrubbing twice is scrubbing once.

## Main definitions

* `AlikeEvents`: Events that differ only in secrets.
* `Part`: The parts of an event that are redacted by name.

## Theorems

* `scrubSentryEvent_alike`: Secrets make no difference to a scrubbed event.
* `part_scrubSentryEvent`: Every part is redacted.
* `scrubSentryEvent_idem`: Scrubbing twice is scrubbing once.
* `scrub_secrets`: What scrubbing hides and what it keeps.
-/

namespace ClickScope

open Json

section Overrides

theorem mem_overrideIf {c : Bool} {k : String} {v : JsData} {f : String × JsData} :
    f ∈ overrideIf c k v ↔ c = true ∧ f = (k, v) := by
  cases c with
  | false => exact ⟨fun h => (by cases h), fun h => (by cases h.1)⟩
  | true => exact List.mem_singleton.trans ⟨fun h => ⟨rfl, h⟩, And.right⟩

theorem overrideIf_keys (c : Bool) (k : String) (v : JsData) :
    ((overrideIf c k v).map (·.1)).Sublist [k] := by
  cases c with
  | false => exact List.nil_sublist [k]
  | true => exact List.Sublist.refl [k]

theorem queryOverride_keys (v : JsData) :
    ((queryOverride v).map (·.1)).Sublist ["query_string"] := by
  unfold queryOverride
  split
  · exact List.Sublist.refl _
  · exact List.nil_sublist _

theorem mem_queryOverride {v : JsData} {f : String × JsData} :
    f ∈ queryOverride v ↔
      ∃ q, v = textData q ∧ f = ("query_string", textData (scrubQueryString q)) := by
  constructor
  · intro hf
    unfold queryOverride at hf
    split at hf
    · exact ⟨_, rfl, List.mem_singleton.mp hf⟩
    · cases hf
  · rintro ⟨q, rfl, rfl⟩
    exact List.mem_singleton_self _

/-- What is replaced in a request. -/
theorem mem_requestOverrides {r : JsData} {f : String × JsData} :
    f ∈ requestOverrides r ↔
      ((prop "headers" r).truthy = true ∧ f = ("headers", redactDeep (prop "headers" r))) ∨
      ((prop "cookies" r).truthy = true ∧ f = ("cookies", redactCookies (prop "cookies" r))) ∨
      ((prop "data" r).isUndefined = false ∧ f = ("data", redactDeep (prop "data" r))) ∨
      (∃ q, prop "query_string" r = textData q ∧
        f = ("query_string", textData (scrubQueryString q))) := by
  rw [requestOverrides, List.mem_append, List.mem_append, List.mem_append, mem_overrideIf,
    mem_overrideIf, mem_overrideIf, mem_queryOverride, Bool.not_eq_true', or_assoc, or_assoc]

theorem requestOverrides_key {r : JsData} {k : String} {v : JsData}
    (h : (k, v) ∈ requestOverrides r) :
    (k = "headers" ∧ (prop "headers" r).truthy = true) ∨
      (k = "cookies" ∧ (prop "cookies" r).truthy = true) ∨
      (k = "data" ∧ (prop "data" r).isUndefined = false) ∨
      (k = "query_string" ∧ ∃ q, prop "query_string" r = textData q) := by
  rcases mem_requestOverrides.mp h with ⟨ht, heq⟩ | ⟨ht, heq⟩ | ⟨ht, heq⟩ | ⟨q, hq, heq⟩
  · exact Or.inl ⟨congrArg Prod.fst heq, ht⟩
  · exact Or.inr (Or.inl ⟨congrArg Prod.fst heq, ht⟩)
  · exact Or.inr (Or.inr (Or.inl ⟨congrArg Prod.fst heq, ht⟩))
  · exact Or.inr (Or.inr (Or.inr ⟨congrArg Prod.fst heq, q, hq⟩))

/-- What is replaced in an event. -/
theorem mem_eventOverrides {e : SentryEvent} {f : String × JsData} :
    f ∈ eventOverrides e ↔
      ((own "request" e).truthy = true ∧ f = ("request", scrubRequest (own "request" e))) ∨
      ((own "extra" e).truthy = true ∧ f = ("extra", redactDeep (own "extra" e))) ∨
      ((own "contexts" e).truthy = true ∧ f = ("contexts", redactDeep (own "contexts" e))) := by
  rw [eventOverrides, List.mem_append, List.mem_append, mem_overrideIf, mem_overrideIf,
    mem_overrideIf, or_assoc]

/-- No property is replaced twice. -/
theorem requestOverrides_nodup (r : JsData) : ((requestOverrides r).map (·.1)).Nodup := by
  have hkeys : ((requestOverrides r).map (·.1)).Sublist
      ((["headers"] ++ ["cookies"] ++ ["data"]) ++ ["query_string"]) := by
    unfold requestOverrides
    rw [List.map_append, List.map_append, List.map_append]
    exact (((overrideIf_keys _ _ _).append (overrideIf_keys _ _ _)).append
      (overrideIf_keys _ _ _)).append (queryOverride_keys _)
  exact hkeys.nodup (by decide)

theorem eventOverrides_nodup (e : SentryEvent) : ((eventOverrides e).map (·.1)).Nodup := by
  have hkeys : ((eventOverrides e).map (·.1)).Sublist
      ((["request"] ++ ["extra"]) ++ ["contexts"]) := by
    unfold eventOverrides
    rw [List.map_append, List.map_append]
    exact ((overrideIf_keys _ _ _).append (overrideIf_keys _ _ _)).append (overrideIf_keys _ _ _)
  exact hkeys.nodup (by decide)

end Overrides

section Events

/-- Lists of the same names, in which the values of each name are related. -/
def AlikeOwn (rel : String → JsData → JsData → Prop) (fs gs : List (String × JsData)) : Prop :=
  (fs.map (·.1)).Nodup ∧ List.Forall₂ (fun f g => f.1 = g.1 ∧ rel f.1 f.2 g.2) fs gs

/-- Cookies that differ only in their values. -/
def AlikeCookies : JsData → JsData → Prop
  | .object proto fs, .object proto' gs => proto = proto' ∧ fs.map (·.1) = gs.map (·.1)
  | v, w => v = w

/-- How the values of a property of the request may differ. -/
def requestField (key : String) (v w : JsData) : Prop :=
  if key = "headers" ∨ key = "data" then Alike v w
  else if key = "cookies" then AlikeCookies v w
  else v = w

/-- Requests that differ only in secrets. -/
def AlikeRequest : JsData → JsData → Prop
  | .object proto fs, .object proto' gs => proto = proto' ∧ AlikeOwn requestField fs gs
  | v, w => v = w

/-- How the values of a property of the event may differ. -/
def eventField (key : String) (v w : JsData) : Prop :=
  if key = "request" then AlikeRequest v w
  else if key = "extra" ∨ key = "contexts" then Alike v w
  else v = w

/-- Events that differ only in secrets. -/
def AlikeEvents (e e' : SentryEvent) : Prop := AlikeOwn eventField e e'

variable {rel : String → JsData → JsData → Prop} {fs gs : List (String × JsData)}

theorem alikeOwn_keys (h : AlikeOwn rel fs gs) : fs.map (·.1) = gs.map (·.1) := by
  rw [← List.forall₂_eq_eq_eq]
  exact List.forall₂_map_left_iff.mpr (List.forall₂_map_right_iff.mpr
    (h.2.imp (fun _ _ hfg => hfg.1)))

/-- Neither list has a property, or both have it and its values are related. -/
theorem alikeOwn_lookup (h : AlikeOwn rel fs gs) (k : String) :
    (fs.lookup k = none ∧ gs.lookup k = none) ∨
      ∃ v w, fs.lookup k = some v ∧ gs.lookup k = some w ∧ rel k v w := by
  replace h := h.2
  induction h with
  | nil => exact Or.inl ⟨rfl, rfl⟩
  | @cons f g fs gs hfg _ ih =>
      rw [List.lookup_cons, List.lookup_cons, ← hfg.1]
      by_cases hk : k = f.1
      · rw [hk, BEq.rfl]
        exact Or.inr ⟨f.2, g.2, rfl, rfl, hfg.2⟩
      · rw [beq_eq_false_iff_ne.mpr hk]
        exact ih

theorem alikeOwn_own (h : AlikeOwn rel fs gs) {k : String}
    (hrefl : rel k undefinedData undefinedData) : rel k (own k fs) (own k gs) := by
  unfold own
  rcases alikeOwn_lookup h k with ⟨hf, hg⟩ | ⟨v, w, hf, hg, hvw⟩
  · rw [hf, hg]
    exact hrefl
  · rw [hf, hg]
    exact hvw

/-- Writing the same values where related lists differ makes them the same. -/
theorem alikeOwn_setAll (h : AlikeOwn rel fs gs) {overrides : List (String × JsData)}
    (hdiff : ∀ k v w, fs.lookup k = some v → gs.lookup k = some w → rel k v w → v ≠ w →
      k ∈ overrides.map (·.1)) : setAll overrides fs = setAll overrides gs := by
  refine setAll_eq (sameBut_lookup (alikeOwn_keys h) h.1) h.1 (fun k hne => ?_)
  rcases alikeOwn_lookup h k with ⟨hf, hg⟩ | ⟨v, w, hf, hg, hvw⟩
  · exact absurd (hf.trans hg.symm) hne
  · -- Both have the name, and different values for it.
    refine hdiff k v w hf hg hvw (fun heq => hne ?_)
    rw [hf, hg, heq]

/-- A list with another value for a property is related to the list. -/
theorem alikeOwn_setOwn {k : String} {v w : JsData} (hnd : (fs.map (·.1)).Nodup)
    (hv : fs.lookup k = some v) (hvw : rel k v w) (hrefl : ∀ k' v, k' ≠ k → rel k' v v) :
    AlikeOwn rel fs (setOwn k w fs) := by
  refine ⟨hnd, ?_⟩
  induction fs with
  | nil => cases hv
  | cons f fs ih =>
      rcases f with ⟨k', v'⟩
      rw [List.map_cons, List.nodup_cons] at hnd
      rw [List.lookup_cons] at hv
      rw [setOwn]
      by_cases hk : k' = k
      · -- The property that is set; no other one has its name.
        rw [hk, BEq.rfl, Option.some.injEq] at hv
        rw [if_pos hk]
        refine List.Forall₂.cons ⟨rfl, ?_⟩ (List.forall₂_same.mpr fun f hf => ⟨rfl, ?_⟩)
        · rw [hk, hv]
          exact hvw
        · exact hrefl _ _ (fun heq => hnd.1 (List.mem_map.mpr ⟨f, hf, heq.trans hk.symm⟩))
      · -- A property before it stays as it is.
        rw [beq_eq_false_iff_ne.mpr (Ne.symm hk)] at hv
        rw [if_neg hk]
        exact List.Forall₂.cons ⟨rfl, hrefl _ _ hk⟩ (ih hnd.2 hv)

theorem prop_own {k : String} {v : JsData} (proto : Option JsData) (h : fs.lookup k = some v) :
    prop k (.object proto fs) = v := by
  cases proto with
  | none => rw [prop, h, Option.getD_some]
  | some proto => rw [prop, h, Option.getD_some]

theorem requestField_refl (k : String) (v : JsData) : requestField k v v := by
  unfold requestField
  split_ifs
  · exact alike_refl v
  · cases v with
    | object proto fields => exact ⟨rfl, rfl⟩
    | primitive p => rfl
    | array items => rfl
  · rfl

/-- The properties of related objects are related, inherited ones as well. -/
theorem alikeOwn_prop (h : AlikeOwn rel fs gs) (proto : Option JsData) {k : String}
    (hrefl : ∀ v, rel k v v) : rel k (prop k (.object proto fs)) (prop k (.object proto gs)) := by
  cases proto with
  | none => exact alikeOwn_own h (hrefl undefinedData)
  | some proto =>
      rw [prop, prop]
      rcases alikeOwn_lookup h k with ⟨hf, hg⟩ | ⟨v, w, hf, hg, hvw⟩
      · rw [hf, hg]
        exact hrefl _
      · rw [hf, hg]
        exact hvw

/-- The values of cookies make no difference to redacted ones. -/
theorem redactCookies_alike {v w : JsData} (h : AlikeCookies v w) :
    v.truthy = w.truthy ∧ redactCookies v = redactCookies w ∧ (v = w ∨ v.truthy = true) := by
  cases v with
  | primitive p =>
      have heq : JsData.primitive p = w := h
      rw [heq]
      exact ⟨rfl, rfl, Or.inl rfl⟩
  | array items =>
      have heq : JsData.array items = w := h
      rw [heq]
      exact ⟨rfl, rfl, Or.inl rfl⟩
  | object proto fs =>
      cases w with
      | primitive p => cases h
      | array items => cases h
      | object proto' gs =>
          -- Of a cookie no more than the name is read.
          have hfold : ∀ (hs : List (String × JsData)) (r : NewObject),
              hs.foldl (fun result f => assignKey f.1 REDACTED result) r
                = (hs.map (·.1)).foldl (fun result k => assignKey k REDACTED result) r :=
            fun hs r => by rw [List.foldl_map]
          refine ⟨rfl, ?_, Or.inr rfl⟩
          rw [redactCookies, redactCookies, entries, entries, hfold, hfold, h.2]

/-- Secrets make no difference to a scrubbed request. -/
theorem scrubRequest_alike {v w : JsData} (h : AlikeRequest v w) :
    v.truthy = w.truthy ∧ scrubRequest v = scrubRequest w ∧ (v = w ∨ v.truthy = true) := by
  cases v with
  | primitive p =>
      have heq : JsData.primitive p = w := h
      rw [heq]
      exact ⟨rfl, rfl, Or.inl rfl⟩
  | array items =>
      have heq : JsData.array items = w := h
      rw [heq]
      exact ⟨rfl, rfl, Or.inl rfl⟩
  | object proto fs =>
      cases w with
      | primitive p => cases h
      | array items => cases h
      | object proto' gs =>
          rcases h with ⟨rfl, hown⟩
          have hprop : ∀ k,
              requestField k (prop k (.object proto fs)) (prop k (.object proto gs)) :=
            fun k => alikeOwn_prop hown proto (requestField_refl k)
          have hheaders : Alike (prop "headers" (.object proto fs))
              (prop "headers" (.object proto gs)) := hprop "headers"
          have hdata : Alike (prop "data" (.object proto fs))
              (prop "data" (.object proto gs)) := hprop "data"
          have hcookies : AlikeCookies (prop "cookies" (.object proto fs))
              (prop "cookies" (.object proto gs)) := hprop "cookies"
          have hquery : prop "query_string" (.object proto fs)
              = prop "query_string" (.object proto gs) := hprop "query_string"
          -- What is written depends on the tests and the redacted values only.
          have hoverrides : requestOverrides (.object proto fs)
              = requestOverrides (.object proto gs) := by
            unfold requestOverrides
            rw [(alike_truthy hheaders).1, redactDeep_alike hheaders, (alike_truthy hdata).2.1,
              redactDeep_alike hdata, (redactCookies_alike hcookies).1,
              (redactCookies_alike hcookies).2.1, hquery]
          refine ⟨rfl, ?_, Or.inr rfl⟩
          rw [scrubRequest, scrubRequest, ← hoverrides, entries, entries]
          refine congrArg (JsData.object none) (alikeOwn_setAll hown fun k v w hv hw hvw hne => ?_)
          -- Where the requests differ, a value that passes its test is written over.
          have hv := prop_own proto hv
          refine List.mem_map.mpr ?_
          unfold requestField at hvw
          split_ifs at hvw with hk hcookie
          · have htruthy := (alike_truthy hvw).2.2.resolve_left hne
            rcases hk with rfl | rfl
            · exact ⟨_, mem_requestOverrides.mpr
                (Or.inl ⟨hv.symm ▸ htruthy.1, rfl⟩), rfl⟩
            · exact ⟨_, mem_requestOverrides.mpr
                (Or.inr (Or.inr (Or.inl ⟨hv.symm ▸ htruthy.2, rfl⟩))), rfl⟩
          · have htruthy := (redactCookies_alike hvw).2.2.resolve_left hne
            exact ⟨_, mem_requestOverrides.mpr
              (Or.inr (Or.inl ⟨hcookie ▸ hv.symm ▸ htruthy, rfl⟩)), hcookie.symm⟩
          · exact absurd hvw hne

/-- Secrets make no difference to a scrubbed event. -/
theorem scrubSentryEvent_alike {e e' : SentryEvent} (h : AlikeEvents e e') :
    scrubSentryEvent e = scrubSentryEvent e' := by
  have hown : ∀ k, eventField k undefinedData undefinedData → eventField k (own k e) (own k e') :=
    fun k hrefl => alikeOwn_own h hrefl
  have hrequest : AlikeRequest (own "request" e) (own "request" e') := hown "request" rfl
  have hextra : Alike (own "extra" e) (own "extra" e') := hown "extra" rfl
  have hcontexts : Alike (own "contexts" e) (own "contexts" e') := hown "contexts" rfl
  have hoverrides : eventOverrides e = eventOverrides e' := by
    unfold eventOverrides
    rw [(scrubRequest_alike hrequest).1, (scrubRequest_alike hrequest).2.1,
      (alike_truthy hextra).1, redactDeep_alike hextra, (alike_truthy hcontexts).1,
      redactDeep_alike hcontexts]
  rw [scrubSentryEvent, scrubSentryEvent, ← hoverrides]
  refine alikeOwn_setAll h fun k v w hv hw hvw hne => ?_
  -- Where the events differ, a value that passes its test is written over.
  have hown : own k e = v := by rw [own, hv, Option.getD_some]
  refine List.mem_map.mpr ?_
  unfold eventField at hvw
  split_ifs at hvw with hk hdeep
  · have htruthy := (scrubRequest_alike hvw).2.2.resolve_left hne
    exact ⟨_, mem_eventOverrides.mpr (Or.inl ⟨hk ▸ hown.symm ▸ htruthy, rfl⟩), hk.symm⟩
  · have htruthy := ((alike_truthy hvw).2.2.resolve_left hne).1
    rcases hdeep with rfl | rfl
    · exact ⟨_, mem_eventOverrides.mpr (Or.inr (Or.inl ⟨hown.symm ▸ htruthy, rfl⟩)), rfl⟩
    · exact ⟨_, mem_eventOverrides.mpr (Or.inr (Or.inr ⟨hown.symm ▸ htruthy, rfl⟩)), rfl⟩
  · exact absurd hvw hne

end Events

section Parts

/-- A value that JSON can say, or the lack of one. -/
def JsonOrMissing (v : JsData) : Prop := v = undefinedData ∨ JsonData v

theorem jsonOrMissing_own {fields : List (String × JsData)} (h : JsonData (.object none fields))
    (k : String) : JsonOrMissing (own k fields) := by
  unfold own
  rcases hk : fields.lookup k with _ | v
  · exact Or.inl rfl
  · rw [List.lookup_eq_some_iff] at hk
    rcases hk with ⟨before, after, heq, _⟩
    have hmem : (k, v) ∈ fields := by
      rw [heq]
      exact List.mem_append_right _ List.mem_cons_self
    exact Or.inr (jsonFields_iff.mp h.2.2.2 _ hmem)

theorem jsonOrMissing_prop {v : JsData} (h : JsonOrMissing v) (k : String) :
    JsonOrMissing (prop k v) := by
  rcases h with rfl | h
  · exact Or.inl rfl
  · cases v with
    | primitive p => exact Or.inl rfl
    | array items => exact Or.inl rfl
    | object proto fields =>
        rcases h.1 with rfl
        exact jsonOrMissing_own h k

/-- A redacted value passes the tests that the value does, and is redacted. -/
theorem redactDeep_missing {v : JsData} (h : JsonOrMissing v) :
    (redactDeep v).truthy = v.truthy ∧ (redactDeep v).isUndefined = v.isUndefined ∧
      redactDeep (redactDeep v) = redactDeep v := by
  rcases h with rfl | h
  · exact ⟨rfl, rfl, rfl⟩
  · have htests := alike_truthy (alike_redactDeep h)
    exact ⟨htests.1.symm, htests.2.1.symm, (redactDeep_json h).2⟩

theorem redactDeep_falsy {v : JsData} (h : v.truthy = false) : redactDeep v = v := by
  cases v with
  | primitive p => rfl
  | array items => cases h
  | object proto fields => cases h

variable {overrides fields : List (String × JsData)} {k : String}

theorem own_replaced {v : JsData} (hnd : (overrides.map (·.1)).Nodup)
    (h : (k, v) ∈ overrides) : own k (setAll overrides fields) = v := by
  rw [own, lookup_setAll_mem hnd h, Option.getD_some]

theorem own_kept (h : ∀ v, (k, v) ∉ overrides) :
    own k (setAll overrides fields) = own k fields := by
  have hkey : k ∉ overrides.map (·.1) := by
    intro hmem
    rcases List.mem_map.mp hmem with ⟨f, hf, rfl⟩
    exact h f.2 hf
  rw [own, own, lookup_setAll hkey]

/-- A property that is replaced by something else if it passes a test. -/
theorem own_replacedIf {v : JsData} {c : Prop} (hnd : (overrides.map (·.1)).Nodup)
    (hmem : c → (k, v) ∈ overrides) (hnot : ¬ c → ∀ w, (k, w) ∉ overrides)
    (hsame : ¬ c → v = own k fields) : own k (setAll overrides fields) = v := by
  by_cases hc : c
  · exact own_replaced hnd (hmem hc)
  · rw [own_kept (hnot hc), hsame hc]

/-- A name that is no number is none of an item or a character. -/
theorem own_numbered {k : String} (hk : ∃ c ∈ k.toList, c.isDigit = false)
    {α : Type} (items : List (α × Nat)) (f : α × Nat → JsData) :
    own k (items.map (fun p => (p.2.repr, f p))) = undefinedData := by
  have hnone : (items.map (fun p => (p.2.repr, f p))).lookup k = none := by
    refine List.lookup_eq_none_iff.mpr fun p hp => ?_
    rcases List.mem_map.mp hp with ⟨q, _, rfl⟩
    refine bne_iff_ne.mpr ?_
    rintro rfl
    rcases hk with ⟨c, hc, hdigit⟩
    -- The name of an item is its number in digits.
    have hrepr : c ∈ Nat.toDigits 10 q.2 := by
      have hlist : (Nat.repr q.2).toList = Nat.toDigits 10 q.2 := String.toList_ofList
      exact hlist ▸ hc
    rw [Nat.isDigit_of_mem_toDigits (by decide) (by decide) hrepr] at hdigit
    cases hdigit
  rw [own, hnone, Option.getD_none]

/-- The own properties of a request are what code reads from it. -/
theorem own_entries {r : JsData} (h : JsonOrMissing r)
    (hname : k.toList.any (fun c => c.isDigit == false) = true) :
    own k (entries r) = prop k r := by
  -- The keys of a list and of a text are numerals, and this one is none.
  have hk : ∃ c ∈ k.toList, c.isDigit = false := by
    rcases List.any_eq_true.mp hname with ⟨c, hc, hdigit⟩
    exact ⟨c, hc, beq_iff_eq.mp hdigit⟩
  rcases h with rfl | h
  · rfl
  · cases r with
    | primitive p =>
        cases p with
        | string s => exact own_numbered hk _ _
        | undefined => rfl
        | null => rfl
        | boolean b => rfl
        | number n => rfl
        | other id => rfl
    | array items => exact own_numbered hk _ _
    | object proto fields =>
        rcases h.1 with rfl
        rfl

/-- What redacted cookies are: nothing but names. -/
theorem redactCookies_fields (v : JsData) :
    ∃ fs, redactCookies v = .object none fs ∧ (fs.map (·.1)).Nodup ∧
      "__proto__" ∉ fs.map (·.1) ∧ ∀ f ∈ fs, f.2 = REDACTED := by
  -- Induction over the cookies, with the object that was made of those before:
  -- it has no prototype of its own, and redacted values only.
  have hfold : ∀ (members : List (String × JsData)) (r : NewObject), r.1 = none →
      (r.2.map (·.1)).Nodup → "__proto__" ∉ r.2.map (·.1) → (∀ f ∈ r.2, f.2 = REDACTED) →
      ∃ fs, members.foldl (fun result f => assignKey f.1 REDACTED result) r = (none, fs) ∧
        (fs.map (·.1)).Nodup ∧ "__proto__" ∉ fs.map (·.1) ∧ ∀ f ∈ fs, f.2 = REDACTED := by
    intro members
    induction members with
    | nil =>
        intro r hnone hnd hproto hall
        exact ⟨r.2, Prod.ext hnone rfl, hnd, hproto, hall⟩
    | cons m members ih =>
        intro r hnone hnd hproto hall
        rw [List.foldl_cons]
        by_cases hm : m.1 = "__proto__"
        · -- The prototype cannot be a text: nothing is assigned.
          have hskip : assignKey m.1 REDACTED r = r := if_pos hm
          rw [hskip]
          exact ih r hnone hnd hproto hall
        · rw [assignKey_other hm]
          refine ih _ hnone (setOwn_nodup hnd) (fun hmem => ?_) (fun f hf => ?_)
          · rcases List.mem_map.mp hmem with ⟨f, hf, hkey⟩
            rcases mem_setOwn hf with rfl | hf
            · exact hm hkey
            · exact hproto (hkey ▸ List.mem_map_of_mem hf)
          · rcases mem_setOwn hf with rfl | hf
            · rfl
            · exact hall f hf
  rcases hfold (entries v) (none, []) rfl List.nodup_nil List.not_mem_nil
    (fun _ hf => by cases hf) with ⟨fs, hfs, hrest⟩
  exact ⟨fs, by rw [redactCookies, hfs, NewObject.toObject], hrest⟩

theorem redactCookies_idem (v : JsData) : redactCookies (redactCookies v) = redactCookies v := by
  rcases redactCookies_fields v with ⟨fs, heq, hnd, hproto, hall⟩
  have hsame : fs.map (fun f => (f.1, REDACTED)) = fs := by
    refine List.map_congr_left (fun f hf => ?_) |>.trans (List.map_id fs)
    rw [id, ← hall f hf]
  have hfold := foldl_assignKey hproto (none, [])
  rw [← hsame, List.foldl_map, hsame] at hfold
  rw [heq, redactCookies, entries, hfold, NewObject.toObject]
  exact congrArg (JsData.object none) (ownFields_nodup hnd)

theorem redactCookies_truthy (v : JsData) : (redactCookies v).truthy = true := rfl

/-- Without a `code` there is nothing to delete. -/
theorem scrubQueryString_eq (q : String) :
    scrubQueryString q
      = String.ofList (serializeParams (deleteParam "code".toList (parseParams q.toList))) := by
  unfold scrubQueryString
  by_cases hcode : hasParam "code".toList (parseParams q.toList) = true
  · simp only [if_pos hcode]
  · -- Deleting then takes nothing out, so that the text is written anew anyway.
    have hnone : deleteParam "code".toList (parseParams q.toList) = parseParams q.toList := by
      refine List.filter_eq_self.mpr fun p hp => ?_
      rw [hasParam, List.any_eq_true] at hcode
      exact bne_iff_ne.mpr fun heq => hcode ⟨p, hp, beq_iff_eq.mpr heq⟩
    simp only [if_neg hcode, hnone]

theorem scrubQueryString_idem (q : String) :
    scrubQueryString (scrubQueryString q) = scrubQueryString q := by
  -- The parameters that were written are read back, without a `code` among them.
  have hread : ∀ params, parseParams (String.ofList (serializeParams params)).toList = params :=
    fun params => (congrArg parseParams String.toList_ofList).trans
      (parseParams_serializeParams params)
  rw [scrubQueryString_eq, scrubQueryString_eq q, hread, deleteParam, deleteParam,
    List.filter_filter]
  simp only [Bool.and_self]

end Parts

section Requests

variable {r : JsData}

theorem scrubRequest_headers (h : JsonOrMissing r) :
    prop "headers" (scrubRequest r) = redactDeep (prop "headers" r) := by
  refine own_replacedIf (requestOverrides_nodup r) (c := (prop "headers" r).truthy = true)
    (fun hc => mem_requestOverrides.mpr (Or.inl ⟨hc, rfl⟩)) (fun hc w hw => ?_) (fun hc => ?_)
  · rcases requestOverrides_key hw with ⟨_, ht⟩ | ⟨heq, _⟩ | ⟨heq, _⟩ | ⟨heq, _⟩
    · exact hc ht
    · exact absurd heq (by decide)
    · exact absurd heq (by decide)
    · exact absurd heq (by decide)
  · rw [own_entries h (by decide), redactDeep_falsy (Bool.eq_false_iff.mpr hc)]

theorem scrubRequest_data (h : JsonOrMissing r) :
    prop "data" (scrubRequest r) = redactDeep (prop "data" r) := by
  refine own_replacedIf (requestOverrides_nodup r) (c := (prop "data" r).isUndefined = false)
    (fun hc => mem_requestOverrides.mpr (Or.inr (Or.inr (Or.inl ⟨hc, rfl⟩))))
    (fun hc w hw => ?_) (fun hc => ?_)
  · rcases requestOverrides_key hw with ⟨heq, _⟩ | ⟨heq, _⟩ | ⟨_, ht⟩ | ⟨heq, _⟩
    · exact absurd heq (by decide)
    · exact absurd heq (by decide)
    · exact hc ht
    · exact absurd heq (by decide)
  · rw [own_entries h (by decide)]
    -- Only `undefined` fails the test, and it is redacted to itself.
    rcases hdata : prop "data" r with p | items | ⟨proto, fields⟩
    · rfl
    · exact absurd (hdata ▸ rfl) hc
    · exact absurd (hdata ▸ rfl) hc

theorem scrubRequest_cookies (h : JsonOrMissing r) :
    prop "cookies" (scrubRequest r)
      = if (prop "cookies" r).truthy = true then redactCookies (prop "cookies" r)
        else prop "cookies" r := by
  refine own_replacedIf (requestOverrides_nodup r) (c := (prop "cookies" r).truthy = true)
    (fun hc => mem_requestOverrides.mpr (Or.inr (Or.inl ⟨hc, by rw [if_pos hc]⟩)))
    (fun hc w hw => ?_) (fun hc => ?_)
  · rcases requestOverrides_key hw with ⟨heq, _⟩ | ⟨_, ht⟩ | ⟨heq, _⟩ | ⟨heq, _⟩
    · exact absurd heq (by decide)
    · exact hc ht
    · exact absurd heq (by decide)
    · exact absurd heq (by decide)
  · rw [own_entries h (by decide), if_neg hc]

/-- A property that is not replaced is kept. -/
theorem scrubRequest_kept {k : String} (h : own k (entries r) = prop k r)
    (hnot : ∀ w, (k, w) ∉ requestOverrides r) : prop k (scrubRequest r) = prop k r :=
  (own_kept hnot).trans h

theorem scrubRequest_text {q : String} (hq : prop "query_string" r = textData q) :
    prop "query_string" (scrubRequest r) = textData (scrubQueryString q) :=
  own_replaced (requestOverrides_nodup r)
    (mem_requestOverrides.mpr (Or.inr (Or.inr (Or.inr ⟨q, hq, rfl⟩))))

/-- A query that is no text is kept. -/
theorem scrubRequest_query_kept
    (h : own "query_string" (entries r) = prop "query_string" r)
    (hq : ¬ ∃ q, prop "query_string" r = textData q) :
    prop "query_string" (scrubRequest r) = prop "query_string" r := by
  refine scrubRequest_kept h (fun w hw => ?_)
  rcases requestOverrides_key hw with ⟨heq, _⟩ | ⟨heq, _⟩ | ⟨heq, _⟩ | ⟨_, hq'⟩
  · exact absurd heq (by decide)
  · exact absurd heq (by decide)
  · exact absurd heq (by decide)
  · exact hq hq'

theorem scrubRequest_query (h : JsonOrMissing r) :
    queryOverride (prop "query_string" (scrubRequest r))
      = queryOverride (prop "query_string" r) := by
  -- A text is written again as it was, and anything else is never touched.
  by_cases hq : ∃ q, prop "query_string" r = textData q
  · rcases hq with ⟨q, hq⟩
    rw [scrubRequest_text hq, hq, textData, textData, queryOverride, queryOverride,
      scrubQueryString_idem]
  · rw [scrubRequest_query_kept (own_entries h (by decide)) hq]

/-- Another scrubbing would write what was written. -/
theorem requestOverrides_scrubRequest (h : JsonOrMissing r) :
    requestOverrides (scrubRequest r) = requestOverrides r := by
  have hheaders := redactDeep_missing (jsonOrMissing_prop h "headers")
  have hdata := redactDeep_missing (jsonOrMissing_prop h "data")
  unfold requestOverrides
  rw [scrubRequest_headers h, hheaders.1, hheaders.2.2, scrubRequest_data h, hdata.2.1,
    hdata.2.2, scrubRequest_query h, scrubRequest_cookies h]
  by_cases hc : (prop "cookies" r).truthy = true
  · rw [if_pos hc, redactCookies_truthy, redactCookies_idem, hc]
  · rw [if_neg hc]

theorem scrubRequest_idem (h : JsonOrMissing r) :
    scrubRequest (scrubRequest r) = scrubRequest r := by
  rw [scrubRequest, requestOverrides_scrubRequest h]
  exact congrArg (JsData.object none) (setAll_idem (requestOverrides_nodup r) (entries r))

end Requests

section Whole

variable {e : SentryEvent}

theorem eventOverrides_key {k : String} {v : JsData} (h : (k, v) ∈ eventOverrides e) :
    (k = "request" ∧ (own "request" e).truthy = true) ∨
      (k = "extra" ∧ (own "extra" e).truthy = true) ∨
      (k = "contexts" ∧ (own "contexts" e).truthy = true) := by
  rcases mem_eventOverrides.mp h with ⟨ht, heq⟩ | ⟨ht, heq⟩ | ⟨ht, heq⟩
  · exact Or.inl ⟨congrArg Prod.fst heq, ht⟩
  · exact Or.inr (Or.inl ⟨congrArg Prod.fst heq, ht⟩)
  · exact Or.inr (Or.inr ⟨congrArg Prod.fst heq, ht⟩)

theorem scrubSentryEvent_request (e : SentryEvent) :
    own "request" (scrubSentryEvent e)
      = if (own "request" e).truthy = true then scrubRequest (own "request" e)
        else own "request" e := by
  refine own_replacedIf (eventOverrides_nodup e) (c := (own "request" e).truthy = true)
    (fun hc => mem_eventOverrides.mpr (Or.inl ⟨hc, by rw [if_pos hc]⟩))
    (fun hc w hw => ?_) (fun hc => if_neg hc)
  rcases eventOverrides_key hw with ⟨_, ht⟩ | ⟨heq, _⟩ | ⟨heq, _⟩
  · exact hc ht
  · exact absurd heq (by decide)
  · exact absurd heq (by decide)

theorem scrubSentryEvent_extra (e : SentryEvent) :
    own "extra" (scrubSentryEvent e) = redactDeep (own "extra" e) := by
  refine own_replacedIf (eventOverrides_nodup e) (c := (own "extra" e).truthy = true)
    (fun hc => mem_eventOverrides.mpr (Or.inr (Or.inl ⟨hc, rfl⟩)))
    (fun hc w hw => ?_) (fun hc => redactDeep_falsy (Bool.eq_false_iff.mpr hc))
  rcases eventOverrides_key hw with ⟨heq, _⟩ | ⟨_, ht⟩ | ⟨heq, _⟩
  · exact absurd heq (by decide)
  · exact hc ht
  · exact absurd heq (by decide)

theorem scrubSentryEvent_contexts (e : SentryEvent) :
    own "contexts" (scrubSentryEvent e) = redactDeep (own "contexts" e) := by
  refine own_replacedIf (eventOverrides_nodup e) (c := (own "contexts" e).truthy = true)
    (fun hc => mem_eventOverrides.mpr (Or.inr (Or.inr ⟨hc, rfl⟩)))
    (fun hc w hw => ?_) (fun hc => redactDeep_falsy (Bool.eq_false_iff.mpr hc))
  rcases eventOverrides_key hw with ⟨heq, _⟩ | ⟨heq, _⟩ | ⟨_, ht⟩
  · exact absurd heq (by decide)
  · exact absurd heq (by decide)
  · exact hc ht

/-- Every other property of an event is kept. -/
theorem scrubSentryEvent_other {k : String} (hk : k ∉ ["request", "extra", "contexts"]) :
    own k (scrubSentryEvent e) = own k e := by
  refine own_kept (fun w hw => hk ?_)
  rcases eventOverrides_key hw with ⟨rfl, _⟩ | ⟨rfl, _⟩ | ⟨rfl, _⟩
  · exact List.mem_cons_self
  · exact List.mem_cons_of_mem _ List.mem_cons_self
  · exact List.mem_cons_of_mem _ (List.mem_cons_of_mem _ List.mem_cons_self)

/-- Scrubbing twice is scrubbing once. -/
theorem scrubSentryEvent_idem (h : JsonData (.object none e)) :
    scrubSentryEvent (scrubSentryEvent e) = scrubSentryEvent e := by
  have hextra := redactDeep_missing (jsonOrMissing_own h "extra")
  have hcontexts := redactDeep_missing (jsonOrMissing_own h "contexts")
  have hoverrides : eventOverrides (scrubSentryEvent e) = eventOverrides e := by
    unfold eventOverrides
    rw [scrubSentryEvent_extra, hextra.1, hextra.2.2, scrubSentryEvent_contexts, hcontexts.1,
      hcontexts.2.2, scrubSentryEvent_request]
    by_cases hc : (own "request" e).truthy = true
    · have htruthy : (scrubRequest (own "request" e)).truthy = true := rfl
      rw [if_pos hc, htruthy, scrubRequest_idem (jsonOrMissing_own h "request"), hc]
    · rw [if_neg hc]
  -- The same values are written twice into the same places.
  have hagain : scrubSentryEvent (scrubSentryEvent e)
      = setAll (eventOverrides e) (scrubSentryEvent e) := by
    rw [← hoverrides, scrubSentryEvent]
  rw [hagain]
  exact setAll_idem (eventOverrides_nodup e) e

/-- The parts of an event that are redacted by name. -/
inductive Part : Type
  | headers
  | data
  | extra
  | contexts
deriving DecidableEq, Repr

def Part.of : Part → SentryEvent → JsData
  | .headers, e => prop "headers" (own "request" e)
  | .data, e => prop "data" (own "request" e)
  | .extra, e => own "extra" e
  | .contexts, e => own "contexts" e

theorem jsonOrMissing_part (h : JsonData (.object none e)) (p : Part) :
    JsonOrMissing (p.of e) := by
  cases p with
  | headers => exact jsonOrMissing_prop (jsonOrMissing_own h "request") "headers"
  | data => exact jsonOrMissing_prop (jsonOrMissing_own h "request") "data"
  | extra => exact jsonOrMissing_own h "extra"
  | contexts => exact jsonOrMissing_own h "contexts"

/-- A value without properties lacks all of them. -/
theorem prop_falsy {v : JsData} (h : v.truthy = false) (k : String) :
    prop k v = undefinedData := by
  cases v with
  | primitive p => rfl
  | array items => rfl
  | object proto fields => cases h

/-- Every part is redacted. -/
theorem part_scrubSentryEvent (h : JsonData (.object none e)) (p : Part) :
    p.of (scrubSentryEvent e) = redactDeep (p.of e) := by
  have hr := jsonOrMissing_own h "request"
  cases p with
  | headers =>
      rw [Part.of, Part.of, scrubSentryEvent_request]
      by_cases hc : (own "request" e).truthy = true
      · rw [if_pos hc, scrubRequest_headers hr]
      · -- A falsy request has no properties, before and after.
        rw [if_neg hc, prop_falsy (Bool.eq_false_iff.mpr hc)]
        rfl
  | data =>
      rw [Part.of, Part.of, scrubSentryEvent_request]
      by_cases hc : (own "request" e).truthy = true
      · rw [if_pos hc, scrubRequest_data hr]
      · rw [if_neg hc, prop_falsy (Bool.eq_false_iff.mpr hc)]
        rfl
  | extra => exact scrubSentryEvent_extra e
  | contexts => exact scrubSentryEvent_contexts e

/-- What a value at a place becomes: it differs in the secrets below it, and in
    nothing if there are none. -/
def KeptBut (v w : JsData) : Prop := Alike v w ∧ (Spotless v → w = v)

theorem keptBut_redactDeep {v : JsData} (h : JsonOrMissing v) : KeptBut v (redactDeep v) := by
  rcases h with rfl | h
  · exact ⟨rfl, fun _ => rfl⟩
  · exact ⟨alike_redactDeep h, redactDeep_spotless h⟩

theorem valueAt_kept {v : JsData} {path : List Step} (h : JsonOrMissing v)
    (hpath : ∀ s ∈ path, s.shown = true) :
    Option.Rel KeptBut (valueAt path v) (valueAt path (redactDeep v)) := by
  rcases h with rfl | h
  · cases path with
    | nil => exact Option.Rel.some (keptBut_redactDeep (Or.inl rfl))
    | cons s path => cases s <;> exact Option.Rel.none
  · rw [valueAt_redactDeep h hpath]
    rcases hv : valueAt path v with _ | u
    · exact Option.Rel.none
    · exact Option.Rel.some (keptBut_redactDeep (Or.inr (valueAt_json h hv)))

/-- Secrets make no difference to a scrubbed event. In an event that JSON can
    say, everything else in the headers, the body, the extra data and the
    contexts is there, at its place and nowhere else, and scrubbing twice is
    scrubbing once. -/
theorem scrub_secrets :
    (∀ e e', AlikeEvents e e' → scrubSentryEvent e = scrubSentryEvent e') ∧
    (∀ e, JsonData (.object none e) →
      (∀ (p : Part) (path : List Step), (∀ s ∈ path, s.shown = true) →
        Option.Rel KeptBut (valueAt path (p.of e)) (valueAt path (p.of (scrubSentryEvent e)))) ∧
      scrubSentryEvent (scrubSentryEvent e) = scrubSentryEvent e) := by
  refine ⟨fun e e' h => scrubSentryEvent_alike h, fun e h => ⟨fun p path hpath => ?_,
    scrubSentryEvent_idem h⟩⟩
  rw [part_scrubSentryEvent h]
  exact valueAt_kept (jsonOrMissing_part h p) hpath

/-- An event with a body, of which one value is a secret. -/
def loginEvent (secret : String) : SentryEvent :=
  [("request", .object none [("data", .object none
    [("Password", textData secret), ("email", textData "a@b.c")])])]

theorem scrub_secrets_login :
    scrubSentryEvent (loginEvent "one") = scrubSentryEvent (loginEvent "two") ∧
    valueAt [.field 1 "email"] (Part.data.of (scrubSentryEvent (loginEvent "one")))
      = some (textData "a@b.c") := by
  -- The bodies differ in the value of a sensitive key.
  have hbody : Alike
      (.object none [("Password", textData "one"), ("email", textData "a@b.c")])
      (.object none [("Password", textData "two"), ("email", textData "a@b.c")]) :=
    ⟨rfl, rfl, Or.inl (by decide), rfl, Or.inr rfl, trivial⟩
  have hrequest : AlikeRequest (own "request" (loginEvent "one"))
      (own "request" (loginEvent "two")) :=
    ⟨rfl, by decide, List.Forall₂.cons ⟨rfl, hbody⟩ List.Forall₂.nil⟩
  have halike : AlikeEvents (loginEvent "one") (loginEvent "two") :=
    ⟨by decide, List.Forall₂.cons ⟨rfl, hrequest⟩ List.Forall₂.nil⟩
  have hjson : JsonData (.object none (loginEvent "one")) :=
    ⟨rfl, by decide, by decide,
      ⟨rfl, by decide, by decide, ⟨rfl, by decide, by decide, trivial, trivial, trivial⟩, trivial⟩,
      trivial⟩
  -- The address stands where nothing is scrubbed.
  have hkept := (scrub_secrets.2 (loginEvent "one") hjson).1 .data [.field 1 "email"]
    (by decide)
  refine ⟨scrub_secrets.1 _ _ halike, ?_⟩
  have hvalue : valueAt [.field 1 "email"] (Part.data.of (loginEvent "one"))
      = some (textData "a@b.c") := rfl
  rw [hvalue] at hkept
  rcases hnew : valueAt [.field 1 "email"] (Part.data.of (scrubSentryEvent (loginEvent "one")))
    with _ | w
  · rw [hnew] at hkept
    cases hkept
  · rw [hnew] at hkept
    cases hkept with
    | some hw => rw [hw.2 trivial]

end Whole

end ClickScope