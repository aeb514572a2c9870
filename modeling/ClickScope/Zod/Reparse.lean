import ClickScope.Zod.Schema
import Mathlib.Data.List.Basic

/-!
# Parsing an Output Again

Which schemas give an output back when they parse it a second time, later.

A schema is `Idempotent` if every output it accepts is an input it accepts, as
it is, at any other time. The primitives are, coercions included, since the
output of a coercion already has its type, and so are the wrappers, as long as
a refinement does not read the clock. For an object the question is decided
field by field, so a single refinement that does read it stays visible:
`object_reparse` says that the object comes back exactly if the field does.

## Main definitions

* `Idempotent`: Every output is parsed to itself.

## Theorems

* `idempotent_string`, `idempotent_coerceNumber`, `idempotent_refine`,
  `idempotent_optional`, ...: One for each constructor.
* `accepts_field`: The fields of an accepted object are accepted.
* `object_later`: An object is accepted at another time if its fields are.
* `object_reparse`: An object comes back exactly if its fields do.
* `object_reparse_field`: The same, where one field is in question.
-/

namespace Zod

/-- Every output is parsed to itself, at any time. -/
def Idempotent (s : Schema) : Prop :=
  ∀ t₁ t₂ v a, Accepts s t₁ v a → Accepts s t₂ a a

section Primitives

/-- A value of another type comes to nothing. -/
theorem invalidType_ne (expected requiredError : String) (v a : JsValue) (issues : List Issue) :
    invalidType expected requiredError v ≠ .parsed a issues :=
  Parsed.noConfusion

theorem accepts_string {checks : List (Check String)} {req : String} {t : Nat} {v a : JsValue} :
    Accepts (string checks req) t v a ↔
      ∃ x, v = .string x ∧ a = .string x ∧ runChecks checks x = [] := by
  unfold Accepts string
  constructor
  · intro h
    cases v with
    | string x =>
        simp only [Option.some.injEq, Parsed.parsed.injEq] at h
        exact ⟨x, rfl, h.1.symm, h.2⟩
    | _ => simp only [Option.some.injEq, invalidType_ne] at h
  · rintro ⟨x, rfl, rfl, hx⟩
    simp only [hx]

theorem idempotent_string (checks : List (Check String)) (req : String) :
    Idempotent (string checks req) := by
  intro t₁ t₂ v a h
  rcases Iff.mp accepts_string h with ⟨x, rfl, rfl, hx⟩
  exact Iff.mpr accepts_string ⟨x, rfl, rfl, hx⟩

theorem accepts_number {checks : List (Check JsNumber)} {t : Nat} {v a : JsValue} :
    Accepts (number checks) t v a ↔
      ∃ n, v = .number n ∧ a = .number n ∧ n ≠ .nan ∧ runChecks checks n = [] := by
  unfold Accepts number
  constructor
  · intro h
    cases v with
    | number n =>
        cases n with
        | nan => simp only [Option.some.injEq, invalidType_ne] at h
        | _ =>
            simp only [Option.some.injEq, Parsed.parsed.injEq] at h
            exact ⟨_, rfl, h.1.symm, JsNumber.noConfusion, h.2⟩
    | _ => simp only [Option.some.injEq, invalidType_ne] at h
  · rintro ⟨n, rfl, rfl, hne, hn⟩
    cases n with
    | nan => exact absurd rfl hne
    | _ => simp only [hn]

theorem idempotent_number (checks : List (Check JsNumber)) : Idempotent (number checks) := by
  intro t₁ t₂ v a h
  rcases Iff.mp accepts_number h with ⟨n, rfl, rfl, hne, hn⟩
  exact Iff.mpr accepts_number ⟨n, rfl, rfl, hne, hn⟩

theorem accepts_coerceNumber {H : Host} {checks : List (Check JsNumber)} {t : Nat}
    {v a : JsValue} :
    Accepts (coerceNumber H checks) t v a ↔
      ∃ n, toNumber H v = some n ∧ a = .number n ∧ n ≠ .nan ∧ runChecks checks n = [] := by
  have hstep : Accepts (coerceNumber H checks) t v a ↔
      ∃ n, toNumber H v = some n ∧ Accepts (number checks) t (.number n) a := by
    unfold Accepts coerceNumber
    rcases toNumber H v with _ | n
    · simp only [reduceCtorEq, false_and, exists_false]
    · simp only [Option.some.injEq, exists_eq_left']
  rw [hstep]
  constructor
  · rintro ⟨n, hn, hacc⟩
    rcases Iff.mp accepts_number hacc with ⟨m, hm, ha, hne, hchecks⟩
    rw [JsValue.number.injEq] at hm
    subst hm
    exact ⟨n, hn, ha, hne, hchecks⟩
  · rintro ⟨n, hn, ha, hne, hchecks⟩
    exact ⟨n, hn, Iff.mpr accepts_number ⟨n, rfl, ha, hne, hchecks⟩⟩

/-- A number converts to itself, so the coercion does nothing the second time. -/
theorem idempotent_coerceNumber (H : Host) (checks : List (Check JsNumber)) :
    Idempotent (coerceNumber H checks) := by
  intro t₁ t₂ v a h
  rcases Iff.mp accepts_coerceNumber h with ⟨n, _, rfl, hne, hn⟩
  exact Iff.mpr accepts_coerceNumber ⟨n, rfl, rfl, hne, hn⟩

theorem accepts_coerceDate {H : Host} {t : Nat} {v a : JsValue} :
    Accepts (coerceDate H) t v a ↔ ∃ d, toDate H v = some (some d) ∧ a = .date (some d) := by
  unfold Accepts coerceDate
  rcases toDate H v with _ | _ | d
  · simp only [reduceCtorEq, false_and, exists_false]
  · simp only [Option.some.injEq, reduceCtorEq, false_and, exists_false]
  · simp only [Option.some.injEq, Parsed.parsed.injEq, and_true, exists_eq_left']
    exact eq_comm

theorem accepts_boolean {t : Nat} {v a : JsValue} :
    Accepts boolean t v a ↔ ∃ b, v = .boolean b ∧ a = .boolean b := by
  unfold Accepts boolean
  cases v with
  | boolean b =>
      simp only [Option.some.injEq, Parsed.parsed.injEq, and_true, JsValue.boolean.injEq,
        exists_eq_left']
      exact eq_comm
  | _ => simp only [Option.some.injEq, invalidType_ne, reduceCtorEq, false_and, exists_false]

theorem idempotent_boolean : Idempotent boolean := by
  intro t₁ t₂ v a h
  rcases Iff.mp accepts_boolean h with ⟨b, rfl, rfl⟩
  exact Iff.mpr accepts_boolean ⟨b, rfl, rfl⟩

end Primitives

section Wrappers

variable {s : Schema}

/-- A refinement accepts what the schema in it does and the check holds of. -/
theorem accepts_refine {check : Nat → JsValue → Option Bool} {message : String} {t : Nat}
    {v a : JsValue} :
    Accepts (refine s check message) t v a ↔ Accepts s t v a ∧ check t a = some true := by
  unfold Accepts refine
  rcases s t v with _ | issues | ⟨b, issues⟩
  · simp only [reduceCtorEq, false_and]
  · simp only [Option.some.injEq, reduceCtorEq, false_and]
  · dsimp only
    -- The check throws, refuses or passes.
    rcases hc : check t b with _ | _ | _
    · simp only [reduceCtorEq, Option.some.injEq, Parsed.parsed.injEq, false_iff, not_and]
      rintro ⟨rfl, _⟩
      rw [hc]
      simp only [reduceCtorEq, not_false_eq_true]
    · simp only [Option.some.injEq, Parsed.parsed.injEq, List.append_eq_nil_iff, List.cons_ne_nil,
        and_false, false_iff, not_and]
      rintro ⟨rfl, _⟩
      rw [hc]
      simp only [Option.some.injEq, Bool.false_eq_true, not_false_eq_true]
    · simp only [Option.some.injEq, Parsed.parsed.injEq]
      refine ⟨fun h => ⟨h, ?_⟩, fun h => h.1⟩
      rw [← h.1]
      exact hc

theorem idempotent_refine {check : Nat → JsValue → Option Bool} {message : String}
    (h : Idempotent s) (hcheck : ∀ t₁ t₂ a, check t₁ a = check t₂ a) :
    Idempotent (refine s check message) := by
  intro t₁ t₂ v a hacc
  rcases Iff.mp accepts_refine hacc with ⟨hs, hc⟩
  exact Iff.mpr accepts_refine ⟨h t₁ t₂ v a hs, (hcheck t₂ t₁ a).trans hc⟩

theorem accepts_optional {t : Nat} {v a : JsValue} :
    Accepts (optional s) t v a ↔
      (v = .undefined ∧ a = .undefined) ∨ (v ≠ .undefined ∧ Accepts s t v a) := by
  unfold Accepts optional
  cases v with
  | undefined =>
      simp only [Option.some.injEq, Parsed.parsed.injEq, and_true, true_and, ne_eq,
        not_true_eq_false, false_and, or_false]
      exact eq_comm
  | _ =>
      simp only [reduceCtorEq, false_and, ne_eq, not_false_eq_true, true_and, false_or]

theorem idempotent_optional (h : Idempotent s) : Idempotent (optional s) := by
  intro t₁ t₂ v a hacc
  by_cases ha : a = .undefined
  · exact Iff.mpr accepts_optional (Or.inl ⟨ha, ha⟩)
  · rcases Iff.mp accepts_optional hacc with ⟨_, hundef⟩ | ⟨_, hs⟩
    · exact absurd hundef ha
    · exact Iff.mpr accepts_optional (Or.inr ⟨ha, h t₁ t₂ v a hs⟩)

theorem accepts_nullable {t : Nat} {v a : JsValue} :
    Accepts (nullable s) t v a ↔ (v = .null ∧ a = .null) ∨ (v ≠ .null ∧ Accepts s t v a) := by
  unfold Accepts nullable
  cases v with
  | null =>
      simp only [Option.some.injEq, Parsed.parsed.injEq, and_true, true_and, ne_eq,
        not_true_eq_false, false_and, or_false]
      exact eq_comm
  | _ =>
      simp only [reduceCtorEq, false_and, ne_eq, not_false_eq_true, true_and, false_or]

theorem idempotent_nullable (h : Idempotent s) : Idempotent (nullable s) := by
  intro t₁ t₂ v a hacc
  by_cases ha : a = .null
  · exact Iff.mpr accepts_nullable (Or.inl ⟨ha, ha⟩)
  · rcases Iff.mp accepts_nullable hacc with ⟨_, hnull⟩ | ⟨_, hs⟩
    · exact absurd hnull ha
    · exact Iff.mpr accepts_nullable (Or.inr ⟨ha, h t₁ t₂ v a hs⟩)

theorem accepts_default {d : JsValue} {t : Nat} {v a : JsValue} :
    Accepts (default s d) t v a ↔
      (v = .undefined ∧ Accepts s t d a) ∨ (v ≠ .undefined ∧ Accepts s t v a) := by
  unfold Accepts default
  cases v with
  | undefined => simp only [true_and, ne_eq, not_true_eq_false, false_and, or_false]
  | _ => simp only [reduceCtorEq, false_and, ne_eq, not_false_eq_true, true_and, false_or]

/-- A default goes with a schema whose outputs are never missing, so it is not
    needed the second time. -/
theorem idempotent_default {d : JsValue} (h : Idempotent s)
    (hdef : ∀ t v, ¬ Accepts s t v .undefined) : Idempotent (default s d) := by
  intro t₁ t₂ v a hacc
  have hs : Accepts s t₂ a a := by
    rcases Iff.mp accepts_default hacc with ⟨_, hd⟩ | ⟨_, hv⟩
    · exact h t₁ t₂ d a hd
    · exact h t₁ t₂ v a hv
  refine Iff.mpr accepts_default (Or.inr ⟨fun ha => ?_, hs⟩)
  rw [ha] at hs
  exact hdef t₂ _ hs

end Wrappers

section Objects

variable {unknownKeys : UnknownKeys} {shape : List (String × Schema)} {t t₁ t₂ : Nat}
  {fields out : List (String × JsValue)} {v a : JsValue}

theorem get_cons (key k : String) (v : JsValue) (fields : List (String × JsValue)) :
    get ((k, v) :: fields) key = if key = k then v else get fields key := by
  unfold get
  rw [List.lookup_cons]
  by_cases h : key = k
  · rw [if_pos h, beq_iff_eq.mpr h]
    rfl
  · rw [if_neg h, beq_false_of_ne h]

theorem has_cons (key k : String) (v : JsValue) (fields : List (String × JsValue)) :
    has ((k, v) :: fields) key = (decide (key = k) || has fields key) := by
  unfold has
  rw [List.lookup_cons]
  by_cases h : key = k
  · rw [beq_iff_eq.mpr h, decide_eq_true h]
    rfl
  · rw [beq_false_of_ne h, decide_eq_false h]
    rfl

/-- A property that is not there is `undefined`. -/
theorem get_of_not_has {key : String} (h : has fields key = false) :
    get fields key = .undefined := by
  unfold has at h
  unfold get
  rw [Option.isSome_eq_false_iff, Option.isNone_iff_eq_none] at h
  rw [h]
  rfl

/-- A shape is parsed without an issue exactly if its first field is, the rest
    is, and the first is set in the output if it was there or is there now. -/
theorem parseShape_cons {key : String} {s : Schema} :
    parseShape t fields ((key, s) :: shape) = some ([], some out) ↔
      ∃ a rest, Accepts s t (get fields key) a ∧ parseShape t fields shape = some ([], some rest) ∧
        out = if a.isUndefined && !has fields key then rest else (key, a) :: rest := by
  unfold Accepts
  rw [parseShape_first]
  -- Only two accepted parts make an accepted whole.
  rcases s t (get fields key) with _ | issues | ⟨b, issues⟩
  · simp only [reduceCtorEq, false_and, exists_false]
  · rcases parseShape t fields shape with _ | ⟨more, rest⟩
    · simp only [reduceCtorEq, false_and, and_false, exists_false]
    · simp only [Option.some.injEq, Prod.mk.injEq, reduceCtorEq, and_false, false_and, exists_false]
  · rcases parseShape t fields shape with _ | ⟨more, _ | rest⟩
    · simp only [reduceCtorEq, false_and, and_false, exists_false]
    · simp only [Option.some.injEq, Prod.mk.injEq, Option.map_none, reduceCtorEq, and_false,
        false_and, exists_false]
    · simp only [Option.some.injEq, Prod.mk.injEq, List.append_eq_nil_iff, List.map_eq_nil_iff,
        Option.map_some, Parsed.parsed.injEq]
      constructor
      · rintro ⟨⟨hi, hm⟩, hout⟩
        exact ⟨b, rest, ⟨rfl, hi⟩, ⟨hm, rfl⟩, hout.symm⟩
      · rintro ⟨a, rest', ⟨rfl, hi⟩, ⟨hm, rfl⟩, hout⟩
        exact ⟨⟨hi, hm⟩, hout.symm⟩

/-- The output of a shape has no other keys. -/
theorem parseShape_keys (h : parseShape t fields shape = some ([], some out)) {key : String}
    (hkey : has out key = true) : key ∈ shape.map (·.1) := by
  induction shape generalizing out with
  | nil =>
      simp only [parseShape_nil, Option.some.injEq, Prod.mk.injEq, true_and] at h
      rw [← h] at hkey
      exact absurd hkey Bool.false_ne_true
  | cons p shape ih =>
      rcases p with ⟨k, s⟩
      rcases Iff.mp parseShape_cons h with ⟨a, rest, _, hrest, rfl⟩
      rw [List.map_cons, List.mem_cons]
      split_ifs at hkey with hset
      · exact Or.inr (ih hrest hkey)
      · rw [has_cons, Bool.or_eq_true, decide_eq_true_eq] at hkey
        exact hkey.imp_right (ih hrest)

/-- Every field of the output is what the field's schema made of the input's. -/
theorem parseShape_field (hnd : (shape.map (·.1)).Nodup)
    (h : parseShape t fields shape = some ([], some out)) {key : String} {s : Schema}
    (hmem : (key, s) ∈ shape) :
    Accepts s t (get fields key) (get out key) ∧
      (has fields key = true → has out key = true) ∧
      (has fields key = false → has out key = true → get out key ≠ .undefined) := by
  induction shape generalizing out with
  | nil => exact absurd hmem List.not_mem_nil
  | cons p shape ih =>
      rcases p with ⟨k, s'⟩
      rw [List.map_cons, List.nodup_cons] at hnd
      rcases Iff.mp parseShape_cons h with ⟨a, rest, hacc, hrest, rfl⟩
      rcases List.mem_cons.mp hmem with heq | hmem'
      · -- the first field
        rw [Prod.mk.injEq] at heq
        rcases heq with ⟨rfl, rfl⟩
        by_cases hset : (a.isUndefined && !has fields key) = true
        · have hrest' : has rest key = false := by
            by_contra hhas
            exact hnd.1 (parseShape_keys hrest (Bool.eq_true_of_not_eq_false hhas))
          rw [Bool.and_eq_true, Bool.not_eq_true'] at hset
          have ha : a = .undefined := by
            cases a with
            | undefined => rfl
            | _ => exact absurd hset.1 Bool.false_ne_true
          have hcond : (a.isUndefined && !has fields key) = true := by
            rw [Bool.and_eq_true, Bool.not_eq_true']
            exact hset
          rw [if_pos hcond, get_of_not_has hrest', hrest', hset.2]
          refine ⟨?_, fun hf => absurd hf Bool.false_ne_true,
            fun _ hf => absurd hf Bool.false_ne_true⟩
          rw [ha] at hacc
          exact hacc
        · rw [if_neg hset, get_cons, if_pos rfl, has_cons, decide_eq_true rfl, Bool.true_or]
          refine ⟨hacc, fun _ => rfl, fun hhas _ ha => hset ?_⟩
          rw [ha, hhas]
          rfl
      · -- a later field, whose key is another one
        have hne : key ≠ k := by
          rintro rfl
          exact hnd.1 (List.mem_map.mpr ⟨(key, s), hmem', rfl⟩)
        have hfield := ih hnd.2 hrest hmem'
        split_ifs with hset
        · exact hfield
        · rw [get_cons, if_neg hne, has_cons, decide_eq_false hne, Bool.false_or]
          exact hfield

/-- A shape gives an output back, read from an object that agrees with it on
    the shape's keys, if every field does. -/
theorem parseShape_again (hnd : (shape.map (·.1)).Nodup)
    (h : parseShape t₁ fields shape = some ([], some out)) {again : List (String × JsValue)}
    (hagree : ∀ key ∈ shape.map (·.1), get again key = get out key ∧ has again key = has out key)
    (hfields : ∀ p ∈ shape, Accepts p.2 t₂ (get out p.1) (get out p.1)) :
    parseShape t₂ again shape = some ([], some out) := by
  induction shape generalizing out with
  | nil => exact h
  | cons p shape ih =>
      rcases p with ⟨k, s⟩
      rw [List.map_cons, List.nodup_cons] at hnd
      rcases Iff.mp parseShape_cons h with ⟨a, rest, _, hrest, hout⟩
      rcases hagree k List.mem_cons_self with ⟨hget, hhas⟩
      have hrestk : has rest k = false := by
        by_contra hmem
        exact hnd.1 (parseShape_keys hrest (Bool.eq_true_of_not_eq_false hmem))
      -- On the later keys the output is the output of the rest.
      have hlater : ∀ key ∈ shape.map (·.1),
          get out key = get rest key ∧ has out key = has rest key := by
        intro key hkey
        have hne : key ≠ k := fun heq => hnd.1 (heq ▸ hkey)
        rw [hout]
        split_ifs
        · exact ⟨rfl, rfl⟩
        · rw [get_cons, if_neg hne, has_cons, decide_eq_false hne, Bool.false_or]
          exact ⟨rfl, rfl⟩
      have hrest' : parseShape t₂ again shape = some ([], some rest) := by
        refine ih hnd.2 hrest (fun key hkey => ?_) (fun p hp => ?_)
        · have hag := hagree key (List.mem_cons_of_mem k hkey)
          exact ⟨hag.1.trans (hlater key hkey).1, hag.2.trans (hlater key hkey).2⟩
        · have hp' := hfields p (List.mem_cons_of_mem _ hp)
          rw [(hlater p.1 (List.mem_map.mpr ⟨p, hp, rfl⟩)).1] at hp'
          exact hp'
      have hfirst : Accepts s t₂ (get again k) (get out k) := by
        rw [hget]
        exact hfields (k, s) List.mem_cons_self
      refine Iff.mpr parseShape_cons ⟨get out k, rest, hfirst, hrest', ?_⟩
      rw [hhas, hout]
      by_cases hc : (a.isUndefined && !has fields k) = true
      · rw [if_pos hc, get_of_not_has hrestk, hrestk]
        rfl
      · rw [if_neg hc, has_cons, decide_eq_true rfl, Bool.true_or, Bool.not_true,
          Bool.and_false, if_neg Bool.false_ne_true, get_cons, if_pos rfl]

theorem has_of_mem {key : String} (h : key ∈ fields.map (·.1)) : has fields key = true := by
  induction fields with
  | nil => exact absurd h List.not_mem_nil
  | cons p fields ih =>
      rcases p with ⟨k, v⟩
      rw [has_cons, Bool.or_eq_true, decide_eq_true_eq]
      exact (List.mem_cons.mp h).imp_right ih

theorem unrecognized_nil (h : ∀ key ∈ fields.map (·.1), key ∈ shape.map (·.1)) :
    unrecognized unknownKeys shape fields = [] := by
  unfold unrecognized
  cases unknownKeys with
  | strip => rfl
  | strict =>
      have hnone : (fields.map (·.1)).filter (fun k => !(shape.map (·.1)).contains k) = [] := by
        rw [List.filter_eq_nil_iff]
        intro key hkey
        rw [Bool.not_eq_true, Bool.not_eq_false', List.contains_iff_mem]
        exact h key hkey
      rw [hnone]

theorem accepts_object : Accepts (object unknownKeys shape) t v a ↔
    ∃ fields out, v = .object fields ∧ a = .object out ∧
      parseShape t fields shape = some ([], some out) ∧
      unrecognized unknownKeys shape fields = [] := by
  cases v with
  | object fields =>
      simp only [JsValue.object.injEq, exists_and_left, exists_eq_left']
      unfold Accepts object
      dsimp only
      rcases parseShape t fields shape with _ | ⟨issues, _ | out⟩
      · simp only [reduceCtorEq, false_and, and_false, exists_false]
      · simp only [Option.some.injEq, Prod.mk.injEq, reduceCtorEq, and_false, false_and,
          exists_false]
      · simp only [Option.some.injEq, Prod.mk.injEq, Parsed.parsed.injEq, List.append_eq_nil_iff]
        constructor
        · rintro ⟨ha, hi, hu⟩
          exact ⟨out, ha.symm, ⟨hi, rfl⟩, hu⟩
        · rintro ⟨_, ha, ⟨hi, rfl⟩, hu⟩
          exact ⟨ha.symm, hi, hu⟩
  | _ =>
      unfold Accepts object
      simp only [Option.some.injEq, invalidType_ne, reduceCtorEq, false_and, exists_false]

theorem parseShape_isSome (h : ∀ p ∈ shape, (p.2 t (get fields p.1)).isSome = true) :
    (parseShape t fields shape).isSome = true := by
  induction shape with
  | nil => rfl
  | cons p shape ih =>
      rcases p with ⟨k, s⟩
      have hfirst : (s t (get fields k)).isSome = true := h (k, s) List.mem_cons_self
      have hrest := ih (fun p hp => h p (List.mem_cons_of_mem _ hp))
      rcases Option.isSome_iff_exists.mp hfirst with ⟨r, hr⟩
      rcases Option.isSome_iff_exists.mp hrest with ⟨rest, hrest⟩
      rw [parseShape_first, hr, hrest]
      cases r <;> rfl

/-- An object schema throws only if the schema of a field does. -/
theorem object_isSome (h : ∀ p ∈ shape, (p.2 t (get fields p.1)).isSome = true) :
    (object unknownKeys shape t (.object fields)).isSome = true := by
  rcases Option.isSome_iff_exists.mp (parseShape_isSome h) with ⟨⟨issues, out⟩, hshape⟩
  unfold object
  dsimp only
  rw [hshape]
  cases out <;> rfl

/-- The fields of an accepted object are accepted. -/
theorem accepts_field (hnd : (shape.map (·.1)).Nodup)
    (h : Accepts (object unknownKeys shape) t (.object fields) (.object out)) {key : String}
    {s : Schema} (hmem : (key, s) ∈ shape) :
    Accepts s t (get fields key) (get out key) ∧
      (has fields key = true → has out key = true) ∧
      (has fields key = false → has out key = true → get out key ≠ .undefined) := by
  rcases Iff.mp accepts_object h with ⟨fields', out', hv, ha, hparse, _⟩
  rw [JsValue.object.injEq] at hv ha
  subst hv ha
  exact parseShape_field hnd hparse hmem

theorem parseShape_later (h : parseShape t₁ fields shape = some ([], some out))
    (hfields : ∀ p ∈ shape, ∀ b, Accepts p.2 t₁ (get fields p.1) b →
      Accepts p.2 t₂ (get fields p.1) b) :
    parseShape t₂ fields shape = some ([], some out) := by
  induction shape generalizing out with
  | nil => exact h
  | cons p shape ih =>
      rcases p with ⟨k, s⟩
      rcases Iff.mp parseShape_cons h with ⟨b, rest, hacc, hrest, hout⟩
      have hfirst : Accepts s t₂ (get fields k) b := hfields (k, s) List.mem_cons_self b hacc
      have hlater : parseShape t₂ fields shape = some ([], some rest) :=
        ih hrest (fun p hp => hfields p (List.mem_cons_of_mem _ hp))
      exact Iff.mpr parseShape_cons ⟨b, rest, hfirst, hlater, hout⟩

/-- An object is accepted at another time if its fields are. -/
theorem object_later (h : Accepts (object unknownKeys shape) t₁ (.object fields) a)
    (hfields : ∀ p ∈ shape, ∀ b, Accepts p.2 t₁ (get fields p.1) b →
      Accepts p.2 t₂ (get fields p.1) b) :
    Accepts (object unknownKeys shape) t₂ (.object fields) a := by
  rcases Iff.mp accepts_object h with ⟨fields', out, hv, rfl, hparse, hknown⟩
  rw [JsValue.object.injEq] at hv
  subst hv
  exact Iff.mpr accepts_object ⟨_, _, rfl, rfl, parseShape_later hparse hfields, hknown⟩

/-- An output comes back from its object schema, at another time, exactly if
    each of its fields does. -/
theorem object_reparse (hnd : (shape.map (·.1)).Nodup)
    (h : Accepts (object unknownKeys shape) t₁ v (.object out)) :
    Accepts (object unknownKeys shape) t₂ (.object out) (.object out) ↔
      ∀ p ∈ shape, Accepts p.2 t₂ (get out p.1) (get out p.1) := by
  constructor
  · exact fun hagain p hp => (accepts_field hnd hagain hp).1
  · intro hfields
    rcases Iff.mp accepts_object h with ⟨fields, out', _, ha, hparse, _⟩
    rw [JsValue.object.injEq] at ha
    subst ha
    exact Iff.mpr accepts_object ⟨_, _, rfl, rfl,
      parseShape_again hnd hparse (fun _ _ => ⟨rfl, rfl⟩) hfields,
      unrecognized_nil (fun key hkey => parseShape_keys hparse (has_of_mem hkey))⟩

/-- Where all other fields are idempotent, the object comes back exactly if the
    one field does. -/
theorem object_reparse_field (hnd : (shape.map (·.1)).Nodup)
    (h : Accepts (object unknownKeys shape) t₁ (.object fields) (.object out)) {key : String}
    {s : Schema} (hmem : (key, s) ∈ shape)
    (hother : ∀ p ∈ shape, p ≠ (key, s) → Idempotent p.2) :
    Accepts (object unknownKeys shape) t₂ (.object out) (.object out) ↔
      Accepts s t₂ (get out key) (get out key) := by
  rw [object_reparse hnd h]
  constructor
  · exact fun hall => hall (key, s) hmem
  · intro hkey p hp
    by_cases heq : p = (key, s)
    · rw [heq]
      exact hkey
    · exact hother p hp heq t₁ t₂ _ _ (accepts_field hnd h hp).1

/-- An object of idempotent fields is idempotent. -/
theorem idempotent_object (hnd : (shape.map (·.1)).Nodup) (h : ∀ p ∈ shape, Idempotent p.2) :
    Idempotent (object unknownKeys shape) := by
  intro t₁ t₂ v a hacc
  rcases Iff.mp accepts_object hacc with ⟨fields, out, rfl, rfl, _⟩
  exact (object_reparse hnd hacc).mpr
    (fun p hp => h p hp t₁ t₂ _ _ (accepts_field hnd hacc hp).1)

end Objects

end Zod
