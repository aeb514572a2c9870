import ClickScope.Core.Schemas
import ClickScope.Zod.Reparse

/-!
# The Second Parse

Every handler parses once more what its middleware has already validated.

The second parse gives its input back for eight of the ten schemas, at any
time. The other two have a field whose refinement compares a date with the
clock. What validation accepted there is a date after the moment of validation;
the handler needs one after the moment of the handler, and throws a `ZodError`
for a date that has come in between.

## Main definitions

* `readsClock`: The two schemas with such a field.
* `requestedExpiry`: The date a raw body asks for.

## Theorems

* `idempotent_schema`: The other schemas.
* `futureDate_reparse`: The field itself.
* `reparse_iff`: The output comes back exactly if the date still lies ahead.
* `reparse_late`: A body whose date comes between the two parses.
-/

namespace ClickScope

open Async Zod

/-- The schemas with a date that has to lie in the future. -/
def RouteSchema.readsClock : RouteSchema → Bool
  | .createLink => true
  | .updateLink => true
  | _ => false

/-- The date a field asks for: none if it is missing or null. -/
def dateOfField (H : Host) : JsValue → Option Int
  | .undefined => none
  | .null => none
  | v => (toDate H v).join

/-- The date a raw body asks its link to expire at. -/
def requestedExpiry (H : Host) : JsValue → Option Int
  | .object fields => dateOfField H (get fields "expiresAt")
  | _ => none

/-- What a second parse makes of the output of a date field that was given
    `v`: it throws nothing, gives the output back if it accepts it, and accepts
    it exactly if the date that was asked for is still to come. -/
structure ReparsesDate (H : Host) (s : Schema) (t : Nat) (v a : JsValue) : Prop where
  quiet : (s t a).isSome = true
  same : ∀ b, Accepts s t a b → b = a
  future : Accepts s t a a ↔ ∀ d, dateOfField H v = some d → (t : Int) < d

section Fields

variable {H : Host} {t t₁ t₂ : Nat} {v a : JsValue}

theorem idempotent_stringCheck {s : Schema} (check : String → Option Bool) (message : String)
    (h : Idempotent s) : Idempotent (Zod.refine s (stringCheck check) message) :=
  idempotent_refine h (fun _ _ a => by cases a <;> rfl)

theorem idempotent_destinationUrl (H : Host) : Idempotent (destinationUrlSchema H) :=
  idempotent_stringCheck _ _ (idempotent_string _ _)

theorem idempotent_customAlias : Idempotent customAliasSchema :=
  idempotent_stringCheck _ _ (idempotent_string _ _)

/-- A coerced number with a default comes back. -/
theorem idempotent_numberQuery (H : Host) (checks : List (Check JsNumber)) (d : JsValue) :
    Idempotent (Zod.default (Zod.coerceNumber H checks) d) := by
  refine idempotent_default (idempotent_coerceNumber H checks) (fun t v hacc => ?_)
  rcases accepts_coerceNumber.mp hacc with ⟨n, _, ha, _⟩
  cases ha

/-- The future date of a field: the one asked for, after the clock. -/
theorem accepts_futureDate : Accepts (futureDateSchema H) t v a ↔
    ∃ d, toDate H v = some (some d) ∧ (t : Int) < d ∧ a = .date (some d) := by
  unfold futureDateSchema
  rw [accepts_refine, accepts_coerceDate]
  constructor
  · rintro ⟨⟨d, hd, rfl⟩, hcheck⟩
    exact ⟨d, hd, of_decide_eq_true (Option.some.inj hcheck), rfl⟩
  · rintro ⟨d, hd, hlt, rfl⟩
    exact ⟨⟨d, hd, rfl⟩, congrArg some (decide_eq_true hlt)⟩

theorem futureDate_reparse (hfield : dateOfField H v = (toDate H v).join)
    (h : Accepts (futureDateSchema H) t₁ v a) : ReparsesDate H (futureDateSchema H) t₂ v a := by
  rcases accepts_futureDate.mp h with ⟨d, hd, _, rfl⟩
  refine ⟨?_, fun b hb => ?_, ?_⟩
  · simp only [futureDateSchema, Zod.refine, coerceDate, toDate_date, dateCheck]
    rcases decide ((t₂ : Int) < d) with _ | _ <;> rfl
  · rcases accepts_futureDate.mp hb with ⟨d', hd', _, rfl⟩
    rw [toDate_date, Option.some.injEq] at hd'
    rw [hd']
  · rw [accepts_futureDate, hfield, hd]
    simp only [toDate_date, Option.join_some, Option.some.injEq, exists_eq_left', and_true,
      forall_eq']

/-- A field without a date comes back at any time. -/
theorem noDate_reparse {s : Schema} (hs : s t₂ a = some (.parsed a []))
    (hfield : dateOfField H v = none) : ReparsesDate H s t₂ v a where
  quiet := by rw [hs, Option.isSome_some]
  same b hb := ((Parsed.parsed.inj (Option.some.inj (hs.symm.trans hb))).1).symm
  future := iff_of_true hs (fun d hd => by rw [hfield] at hd; cases hd)

/-- The date field of the create body. The date of null is the epoch there,
    which is never ahead. -/
theorem optionalDate_reparse (h : Accepts (Zod.optional (futureDateSchema H)) t₁ v a) :
    ReparsesDate H (Zod.optional (futureDateSchema H)) t₂ v a := by
  rcases accepts_optional.mp h with ⟨rfl, rfl⟩ | ⟨hv, hacc⟩
  · exact noDate_reparse rfl rfl
  · rcases accepts_futureDate.mp hacc with ⟨d, hd, hlt, rfl⟩
    have hfield : dateOfField H v = (toDate H v).join := by
      cases v with
      | undefined => exact absurd rfl hv
      | null =>
          rw [toDate, Option.some.injEq, Option.some.injEq] at hd
          omega
      | _ => rfl
    have hdate : ReparsesDate H (futureDateSchema H) t₂ v (.date (some d)) :=
      futureDate_reparse hfield hacc
    exact ⟨hdate.quiet, hdate.same, hdate.future⟩

/-- The date field of the update body, which may be null. -/
theorem nullableDate_reparse
    (h : Accepts (Zod.optional (Zod.nullable (futureDateSchema H))) t₁ v a) :
    ReparsesDate H (Zod.optional (Zod.nullable (futureDateSchema H))) t₂ v a := by
  rcases accepts_optional.mp h with ⟨rfl, rfl⟩ | ⟨hv, hacc⟩
  · exact noDate_reparse rfl rfl
  · rcases accepts_nullable.mp hacc with ⟨rfl, rfl⟩ | ⟨hnull, hdate⟩
    · exact noDate_reparse rfl rfl
    · rcases accepts_futureDate.mp hdate with ⟨d, hd, hlt, rfl⟩
      have hfield : dateOfField H v = (toDate H v).join := by
        cases v with
        | undefined => exact absurd rfl hv
        | null => exact absurd rfl hnull
        | _ => rfl
      have hagain : ReparsesDate H (futureDateSchema H) t₂ v (.date (some d)) :=
        futureDate_reparse hfield hdate
      exact ⟨hagain.quiet, hagain.same, hagain.future⟩

end Fields

/-- A schema that does not read the clock gives its outputs back. -/
theorem idempotent_schema (H : Host) (s : RouteSchema) (h : s.readsClock = false) :
    Idempotent (s.schema H) := by
  -- The two schemas that read the clock are not among these.
  cases s with
  | createLink => cases h
  | updateLink => cases h
  | signup | login =>
      refine idempotent_object (by simp) (fun p hp => ?_)
      rw [List.mem_cons, List.mem_singleton] at hp
      rcases hp with rfl | rfl <;> exact idempotent_string _ _
  | googleCallbackQuery =>
      refine idempotent_object (by simp) (fun p hp => ?_)
      rw [List.mem_cons, List.mem_cons, List.mem_singleton] at hp
      rcases hp with rfl | rfl | rfl
      · exact idempotent_string _ _
      · exact idempotent_optional (idempotent_string _ _)
      · exact idempotent_optional (idempotent_string _ _)
  | listLinksQuery =>
      refine idempotent_object (listLinksQueryShape_nodup H) (fun p hp => ?_)
      rw [listLinksQueryShape, List.mem_cons, List.mem_singleton] at hp
      rcases hp with rfl | rfl <;> exact idempotent_numberQuery H _ _
  | linkStatsQuery =>
      refine idempotent_object (by simp) (fun p hp => ?_)
      rw [List.mem_singleton.mp hp]
      exact idempotent_numberQuery H _ _
  | idParam | shortCodeParam | unlockBody =>
      refine idempotent_object (by simp) (fun p hp => ?_)
      rw [List.mem_singleton.mp hp]
      exact idempotent_string _ _

/-- What a schema accepts is an object, and comes to one. -/
theorem schema_object {H : Host} {s : RouteSchema} {t : Nat} {x y : JsValue}
    (h : Accepts (s.schema H) t x y) : ∃ fields out, x = .object fields ∧ y = .object out := by
  cases s <;>
    (rcases accepts_object.mp h with ⟨fields, out, hx, hy, _⟩; exact ⟨fields, out, hx, hy⟩)

/-- A schema with one date field gives an output back exactly if the date is
    still to come, since the other fields are idempotent. If it is not, the
    parse has an issue to report, and throws nothing else. -/
theorem dateField_reparse {H : Host} {unknownKeys : UnknownKeys} {shape : List (String × Schema)}
    {t₁ t₂ : Nat} {fields out : List (String × JsValue)} {s : Schema}
    (hnd : (shape.map (·.1)).Nodup) (hmem : ("expiresAt", s) ∈ shape)
    (hother : ∀ p ∈ shape, p ≠ ("expiresAt", s) → Idempotent p.2)
    (hdate : ∀ v a, Accepts s t₁ v a → ReparsesDate H s t₂ v a)
    (h : Accepts (Zod.object unknownKeys shape) t₁ (.object fields) (.object out)) :
    (Accepts (Zod.object unknownKeys shape) t₂ (.object out) (.object out) ↔
      ∀ d, requestedExpiry H (.object fields) = some d → (t₂ : Int) < d) ∧
    (¬ (∀ d, requestedExpiry H (.object fields) = some d → (t₂ : Int) < d) →
      ∃ issues, parsed (Zod.object unknownKeys shape) t₂ (.object out)
        = .error (.zodError issues)) := by
  have hfield := hdate _ _ (accepts_field hnd h hmem).1
  have hiff : Accepts (Zod.object unknownKeys shape) t₂ (.object out) (.object out) ↔
      ∀ d, requestedExpiry H (.object fields) = some d → (t₂ : Int) < d := by
    rw [object_reparse_field hnd h hmem hother]
    exact hfield.future
  refine ⟨hiff, fun hnot => ?_⟩
  -- No field throws: each was parsed to its end the first time.
  have hsome : (Zod.object unknownKeys shape t₂ (.object out)).isSome = true := by
    refine object_isSome (fun p hp => ?_)
    by_cases heq : p = ("expiresAt", s)
    · rw [heq]
      exact hfield.quiet
    · have hacc := hother p hp heq t₁ t₂ _ _ (accepts_field hnd h hp).1
      unfold Accepts at hacc
      rw [hacc]
      rfl
  -- A body it accepted would have had a date ahead.
  have hfail : ∀ b, ¬ Accepts (Zod.object unknownKeys shape) t₂ (.object out) b := by
    intro b hacc
    rcases accepts_object.mp hacc with ⟨fields', out', hfields', rfl, _⟩
    have hdate' := (accepts_field hnd hacc hmem).1
    rw [hfield.same _ hdate'] at hdate'
    exact hnot (hfield.future.mp hdate')
  unfold parsed safeParse
  unfold Accepts at hfail
  rcases hparse : Zod.object unknownKeys shape t₂ (.object out) with _ | issues | ⟨b, _ | issues⟩
  · rw [hparse] at hsome
    exact absurd hsome Bool.false_ne_true
  · exact ⟨issues, rfl⟩
  · exact absurd hparse (hfail b)
  · exact ⟨_, rfl⟩

theorem createLink_others (H : Host) : ∀ p ∈ createLinkShape H,
    p ≠ ("expiresAt", Zod.optional (futureDateSchema H)) → Idempotent p.2 := by
  intro p hp hne
  simp only [createLinkShape, List.mem_cons, List.not_mem_nil, or_false] at hp
  rcases hp with rfl | rfl | rfl | rfl | rfl
  · exact idempotent_destinationUrl H
  · exact idempotent_optional idempotent_customAlias
  · exact absurd rfl hne
  · exact idempotent_optional (idempotent_number _)
  · exact idempotent_optional (idempotent_string _ _)

theorem updateLink_others (H : Host) : ∀ p ∈ updateLinkShape H,
    p ≠ ("expiresAt", Zod.optional (Zod.nullable (futureDateSchema H))) → Idempotent p.2 := by
  intro p hp hne
  simp only [updateLinkShape, List.mem_cons, List.not_mem_nil, or_false] at hp
  rcases hp with rfl | rfl | rfl | rfl | rfl
  · exact idempotent_optional (idempotent_destinationUrl H)
  · exact absurd rfl hne
  · exact idempotent_optional (idempotent_nullable (idempotent_number _))
  · exact idempotent_optional idempotent_boolean
  · exact idempotent_optional (idempotent_nullable (idempotent_string _ _))

/-- The two schemas with a date give an output back exactly if the date is
    still to come. -/
theorem date_reparse {H : Host} {s : RouteSchema} (hclock : s.readsClock = true) {t₁ t₂ : Nat}
    {fields out : List (String × JsValue)}
    (h : Accepts (s.schema H) t₁ (.object fields) (.object out)) :
    (Accepts (s.schema H) t₂ (.object out) (.object out) ↔
      ∀ d, requestedExpiry H (.object fields) = some d → (t₂ : Int) < d) ∧
    (¬ (∀ d, requestedExpiry H (.object fields) = some d → (t₂ : Int) < d) →
      ∃ issues, parsed (s.schema H) t₂ (.object out) = .error (.zodError issues)) := by
  cases s with
  | createLink =>
      exact dateField_reparse (createLinkShape_nodup H) (by simp [createLinkShape])
        (createLink_others H) (fun v a hacc => optionalDate_reparse hacc) h
  | updateLink =>
      exact dateField_reparse (updateLinkShape_nodup H) (by simp [updateLinkShape])
        (updateLink_others H) (fun v a hacc => nullableDate_reparse hacc) h
  | _ => exact absurd hclock Bool.false_ne_true

/-- What a schema accepted at one time it accepts as it is at another, exactly
    if the date the body asks for, where the schema looks at one, is after it.
    If it is not, the handler throws a `ZodError`. -/
theorem reparse_iff (H : Host) (s : RouteSchema) (t₁ t₂ : Nat) (x y : JsValue)
    (h : safeParse (s.schema H) t₁ x = some (.success y)) :
    (safeParse (s.schema H) t₂ y = some (.success y) ↔
      (s.readsClock = true → ∀ d, requestedExpiry H x = some d → (t₂ : Int) < d)) ∧
    (¬ (s.readsClock = true → ∀ d, requestedExpiry H x = some d → (t₂ : Int) < d) →
      ∃ issues, parsed (s.schema H) t₂ y = .error (.zodError issues)) := by
  rw [safeParse_success] at h ⊢
  rcases schema_object h with ⟨fields, out, rfl, rfl⟩
  by_cases hclock : s.readsClock = true
  · simp only [hclock, true_implies]
    exact date_reparse hclock h
  · have hcond : s.readsClock = true →
        ∀ d, requestedExpiry H (.object fields) = some d → (t₂ : Int) < d :=
      fun hread => absurd hread hclock
    exact ⟨iff_of_true
      (idempotent_schema H s (Bool.eq_false_of_not_eq_true hclock) t₁ t₂ _ _ h) hcond,
      fun hnot => absurd hcond hnot⟩

section Handlers

variable {H : Host} {s : RouteSchema} {t t₁ t₂ : Nat} {x y z : JsValue}

/-- Whenever the second parse succeeds, it gives the output of the first. -/
theorem second_same (h : Accepts (s.schema H) t₁ x y) (h₂ : Accepts (s.schema H) t₂ y z) :
    z = y := by
  have hagain : Accepts (s.schema H) t₂ y y := by
    by_cases hclock : s.readsClock = true
    · rcases schema_object h with ⟨fields, out, rfl, rfl⟩
      by_cases hahead : ∀ d, requestedExpiry H (.object fields) = some d → (t₂ : Int) < d
      · exact (date_reparse hclock h).1.mpr hahead
      · -- a date that is past makes the second parse throw
        rcases (date_reparse hclock h).2 hahead with ⟨issues, hthrow⟩
        rw [parsed, safeParse_success.mpr h₂] at hthrow
        cases hthrow
    · exact idempotent_schema H s (Bool.eq_false_of_not_eq_true hclock) t₁ t₂ _ _ h
  unfold Accepts at h₂ hagain
  exact (Parsed.parsed.inj (Option.some.inj (h₂.symm.trans hagain))).1

theorem optionalDate_now {v a : JsValue} (h : Accepts (Zod.optional (futureDateSchema H)) t v a) :
    Accepts (Zod.optional (futureDateSchema H)) t a a := by
  rcases accepts_optional.mp h with ⟨_, rfl⟩ | ⟨_, hacc⟩
  · rfl
  · rcases accepts_futureDate.mp hacc with ⟨d, _, hlt, rfl⟩
    exact accepts_optional.mpr (Or.inr ⟨by simp only [ne_eq, reduceCtorEq, not_false_eq_true],
      accepts_futureDate.mpr ⟨d, rfl, hlt, rfl⟩⟩)

theorem nullableDate_now {v a : JsValue}
    (h : Accepts (Zod.optional (Zod.nullable (futureDateSchema H))) t v a) :
    Accepts (Zod.optional (Zod.nullable (futureDateSchema H))) t a a := by
  rcases accepts_optional.mp h with ⟨_, rfl⟩ | ⟨_, hacc⟩
  · rfl
  · rcases accepts_nullable.mp hacc with ⟨_, rfl⟩ | ⟨_, hdate⟩
    · rfl
    · rcases accepts_futureDate.mp hdate with ⟨d, _, hlt, rfl⟩
      refine accepts_optional.mpr (Or.inr ⟨by simp only [ne_eq, reduceCtorEq, not_false_eq_true],
        accepts_nullable.mpr (Or.inr ⟨by simp only [ne_eq, reduceCtorEq, not_false_eq_true], ?_⟩)⟩)
      exact accepts_futureDate.mpr ⟨d, rfl, hlt, rfl⟩

/-- In the same millisecond the second parse succeeds. -/
theorem second_now (h : Accepts (s.schema H) t x y) : Accepts (s.schema H) t y y := by
  by_cases hclock : s.readsClock = true
  · rcases schema_object h with ⟨fields, out, rfl, rfl⟩
    cases s with
    | createLink =>
        have hmem : ("expiresAt", Zod.optional (futureDateSchema H)) ∈ createLinkShape H := by
          simp [createLinkShape]
        refine (object_reparse_field (createLinkShape_nodup H) h hmem (createLink_others H)).mpr ?_
        exact optionalDate_now (accepts_field (createLinkShape_nodup H) h hmem).1
    | updateLink =>
        have hmem : ("expiresAt", Zod.optional (Zod.nullable (futureDateSchema H)))
            ∈ updateLinkShape H := by
          simp [updateLinkShape]
        refine (object_reparse_field (updateLinkShape_nodup H) h hmem (updateLink_others H)).mpr ?_
        exact nullableDate_now (accepts_field (updateLinkShape_nodup H) h hmem).1
    | _ => exact absurd hclock Bool.false_ne_true
  · exact idempotent_schema H s (Bool.eq_false_of_not_eq_true hclock) t t _ _ h

end Handlers

/-- Functions on texts that know one URL, an id by its hyphens, and no other text. -/
def sampleHost : Host where
  numberText _ := "0"
  dateText _ := ""
  textNumber _ := .nan
  parseDate _ := none
  urlProtocol s := if s = "https://a.example/" then some "https:" else none
  isEmail _ := false
  isUuid := Uuid.isHyphenated
  parseDate_range _ _ h := by cases h
  isUuid_hyphenated _ h := h

/-- A body for a link that expires at a moment. -/
def expiringBody (time : Int) : JsValue :=
  .object [("destinationUrl", .string "https://a.example/"),
    ("expiresAt", .number (.finite time))]

def expiringOutput (time : Int) : JsValue :=
  .object [("destinationUrl", .string "https://a.example/"), ("expiresAt", .date (some time))]

theorem expiringBody_accepted (t₁ : Nat) (time : Int) (hlo : -MAX_TIME ≤ time)
    (hhi : time ≤ MAX_TIME) (hlt : (t₁ : Int) < time) :
    safeParse (createLinkSchema sampleHost) t₁ (expiringBody time)
      = some (.success (expiringOutput time)) := by
  have hdate : Accepts (futureDateSchema sampleHost) t₁ (.number (.finite time))
      (.date (some time)) :=
    accepts_futureDate.mpr ⟨time, congrArg some (timeClip_int time hlo hhi), hlt, rfl⟩
  have hurl : Accepts (destinationUrlSchema sampleHost) t₁ (.string "https://a.example/")
      (.string "https://a.example/") := rfl
  refine safeParse_success.mpr (accepts_object.mpr ⟨_, _, rfl, rfl, ?_, rfl⟩)
  exact parseShape_cons.mpr ⟨_, _, hurl, parseShape_cons.mpr ⟨.undefined, _, rfl,
    parseShape_cons.mpr ⟨_, _, hdate, parseShape_cons.mpr ⟨.undefined, _, rfl,
      parseShape_cons.mpr ⟨.undefined, _, rfl, rfl, rfl⟩, rfl⟩, rfl⟩, rfl⟩, rfl⟩

theorem reparse_iff_expiring :
    (safeParse (createLinkSchema sampleHost) 999 (expiringOutput 1000)
        = some (.success (expiringOutput 1000)) ↔
      (RouteSchema.createLink.readsClock = true →
        ∀ d, requestedExpiry sampleHost (expiringBody 1000) = some d → ((999 : Nat) : Int) < d)) ∧
    (¬ (RouteSchema.createLink.readsClock = true →
        ∀ d, requestedExpiry sampleHost (expiringBody 1000) = some d → ((999 : Nat) : Int) < d) →
      ∃ issues, parsed (createLinkSchema sampleHost) 999 (expiringOutput 1000)
        = .error (.zodError issues)) :=
  reparse_iff sampleHost .createLink 0 999 _ _
    (expiringBody_accepted 0 1000 (by decide) (by decide) (by decide))

/-- A body validated in the millisecond before its date, and parsed again in
    the next one. -/
theorem reparse_late : ¬ ∀ (H : Host) (s : RouteSchema) (t₁ t₂ : Nat) (x y : JsValue),
    safeParse (s.schema H) t₁ x = some (.success y) → t₁ ≤ t₂ →
    safeParse (s.schema H) t₂ y = some (.success y) := by
  intro hall
  have hagain := hall sampleHost .createLink 999 1000 _ _
    (expiringBody_accepted 999 1000 (by decide) (by decide) (by decide)) (by decide)
  rcases accepts_object.mp (safeParse_success.mp hagain) with ⟨fields, out, hx, _, hparse, _⟩
  rw [expiringOutput, JsValue.object.injEq] at hx
  subst hx
  have hfield := (parseShape_field (createLinkShape_nodup sampleHost) hparse
    (List.mem_cons_of_mem _ (List.mem_cons_of_mem _ List.mem_cons_self))).1
  rcases accepts_optional.mp hfield with ⟨hundef, _⟩ | ⟨_, hdate⟩
  · cases hundef
  · rcases accepts_futureDate.mp hdate with ⟨d, hd, hlt, _⟩
    have hd' : d = 1000 := (Option.some.inj (Option.some.inj hd)).symm
    omega

end ClickScope
