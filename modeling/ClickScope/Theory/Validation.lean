import ClickScope.Async.Wp
import ClickScope.Core.LinkRoutes
import ClickScope.Zod.Reparse

/-!
# Validation Inside a Program

The validating middleware and the second parse as steps of a program.

Both read the clock and nothing else, and their outcome is a function of what
they are given and the time. A program that begins with one of them can be
reasoned about as the rest of it, from the same world, on that outcome.

## Theorems

* `makeValidator_wp`, `parse_wp`: The two steps.
* `validated_ok`, `parsed_ok`: What an accepted part of a request comes to.
* `accepts_shortCode`, `accepts_id`: The parameters of the routes.
* `idParam_read`: An id that is accepted.
* `makeValidator_only`, `parse_only`: What the steps perform.
* `validated_error`, `parsed_error`: What they fail with.
* `makeValidator_throws`, `parse_throws`: What they throw.
-/

namespace ClickScope

open Async Zod

variable {P : Platform} {tid : Nat} {schema : Schema} {target : ValidationTarget}

theorem makeValidator_wp {raw : JsValue} {Post : Except Err JsValue → World → Prop} {w : World}
    (h : Post (validated schema target w.now raw) w) :
    (makeValidator schema target raw).wp (exec P tid) Post w := by
  intro ch now w' hx
  simp only [exec, Option.some.injEq, Prod.mk.injEq] at hx
  rcases hx with ⟨rfl, rfl⟩
  rcases hv : validated schema target w.now raw with e | data
  · rw [hv] at h
    simp only [Prog.ret_bind, hv]
    exact h
  · rw [hv] at h
    simp only [Prog.ret_bind, hv]
    exact h

theorem parse_wp {data : JsValue} {Post : Except Err JsValue → World → Prop} {w : World}
    (h : Post (parsed schema w.now data) w) :
    (parse schema data).wp (exec P tid) Post w := by
  intro ch now w' hx
  simp only [exec, Option.some.injEq, Prod.mk.injEq] at hx
  rcases hx with ⟨rfl, rfl⟩
  rcases hp : parsed schema w.now data with e | out
  · rw [hp] at h
    simp only [Prog.ret_bind, hp]
    exact h
  · rw [hp] at h
    simp only [Prog.ret_bind, hp]
    exact h

/-- What a validator passes on is what its schema made of the input. -/
theorem validated_ok {now : Nat} {raw data : JsValue} :
    validated schema target now raw = .ok data ↔ Accepts schema now raw data := by
  rw [← safeParse_success]
  unfold validated
  rcases safeParse schema now raw with _ | out | issues
  · simp only [reduceCtorEq]
  · simp only [Except.ok.injEq, Option.some.injEq, SafeParse.success.injEq]
  · simp only [reduceCtorEq, Option.some.injEq]

theorem parsed_ok {now : Nat} {data out : JsValue} :
    parsed schema now data = .ok out ↔ Accepts schema now data out := by
  rw [← safeParse_success]
  unfold parsed
  rcases safeParse schema now data with _ | out' | issues
  · simp only [reduceCtorEq]
  · simp only [Except.ok.injEq, Option.some.injEq, SafeParse.success.injEq]
  · simp only [reduceCtorEq, Option.some.injEq]

/-- A short code of the right length is accepted as it is. -/
theorem accepts_shortCode {code : String} (hmin : 1 ≤ jsLength code)
    (hmax : jsLength code ≤ MAX_ALIAS_LENGTH) (now : Nat) :
    Accepts shortCodeParamSchema now (shortCodeParams code) (shortCodeParams code) := by
  refine accepts_object.mpr ⟨_, _, rfl, rfl, parseShape_cons.mpr
    ⟨.string code, [], accepts_string.mpr ⟨code, rfl, rfl, ?_⟩, rfl, rfl⟩, rfl⟩
  simp only [runChecks_nil, List.mem_cons, List.not_mem_nil, or_false, forall_eq_or_imp, forall_eq,
    Zod.min, Zod.max, decide_eq_true_eq]
  exact ⟨hmin, hmax⟩

/-- The id of a link is accepted at any time. -/
theorem accepts_id {H : Host} {id : String} (h : H.isUuid id = true) (t : Nat) :
    Accepts (idParamSchema H) t (idParams id) (idParams id) := by
  refine accepts_object.mpr ⟨_, _, rfl, rfl, parseShape_cons.mpr
    ⟨.string id, [], accepts_string.mpr ⟨id, rfl, rfl, ?_⟩, rfl, rfl⟩, rfl⟩
  rw [runChecks_nil]
  intro c hc
  rw [List.mem_singleton.mp hc]
  exact h

/-- A text field of an object that was accepted passes the checks of its
    schema. -/
theorem textField_checked {unknownKeys : UnknownKeys} {shape : List (String × Schema)}
    (hnd : (shape.map (·.1)).Nodup) {t : Nat} {v out : JsValue}
    (h : Accepts (Zod.object unknownKeys shape) t v out)
    {key req : String} {checks : List (Check String)}
    (hmem : (key, Zod.string checks req) ∈ shape) :
    ∀ c ∈ checks, c.holds (textField out key) = true := by
  rcases accepts_object.mp h with ⟨fields, fields', rfl, rfl, _⟩
  rcases accepts_string.mp (accepts_field hnd h hmem).1 with ⟨x, _, hx, hchecks⟩
  simp only [textField, hx]
  exact runChecks_nil.mp hchecks

/-- The id that was accepted is one to the server. -/
theorem idParam_read {H : Host} {t : Nat} {v out : JsValue}
    (h : Accepts (idParamSchema H) t v out) :
    (Uuid.read (textField out "id")).isSome = true :=
  Uuid.read_of_hyphenated (H.isUuid_hyphenated _
    (textField_checked (by simp) h List.mem_cons_self _ List.mem_cons_self))

/-- The steps of validation read the clock only. -/
theorem makeValidator_only {p : Op → Prop} (h : p .dateNow) (raw : JsValue) :
    (makeValidator schema target raw).Only p := by
  refine Prog.only_bind (fun now => ?_) _ ⟨h, fun _ => trivial⟩
  cases validated schema target now raw <;> trivial

theorem parse_only {p : Op → Prop} (h : p .dateNow) (data : JsValue) :
    (parse schema data).Only p := by
  refine Prog.only_bind (fun now => ?_) _ ⟨h, fun _ => trivial⟩
  cases parsed schema now data <;> trivial

/-- The middleware fails with the issues of its schema, or with what a refinement
    throws. -/
theorem validated_error (p : Err → Prop)
    (hissues : ∀ details, p (.app (badRequest "Validation failed" (some details))))
    (htype : p .typeError) {now : Nat} {raw : JsValue} {e : Err}
    (h : validated schema target now raw = .error e) : p e := by
  unfold validated at h
  rcases hparse : safeParse schema now raw with _ | data | issues
  · rw [hparse, Except.error.injEq] at h
    exact h ▸ htype
  · rw [hparse] at h
    cases h
  · rw [hparse, Except.error.injEq] at h
    exact h ▸ hissues _

/-- The second parse fails the same way, with an error of its own for issues. -/
theorem parsed_error (p : Err → Prop) (hissues : ∀ issues, p (.zodError issues))
    (htype : p .typeError) {now : Nat} {data : JsValue} {e : Err}
    (h : parsed schema now data = .error e) : p e := by
  unfold parsed at h
  rcases hparse : safeParse schema now data with _ | out | issues
  · rw [hparse, Except.error.injEq] at h
    exact h ▸ htype
  · rw [hparse] at h
    cases h
  · rw [hparse, Except.error.injEq] at h
    exact h ▸ hissues issues

theorem makeValidator_throws {p : Err → Prop}
    (hissues : ∀ details, p (.app (badRequest "Validation failed" (some details))))
    (htype : p .typeError) (raw : JsValue) : (makeValidator schema target raw).Throws p := by
  refine Prog.throws_bind (fun now => ?_) _ (fun _ => trivial)
  rcases hv : validated schema target now raw with e | data
  · exact validated_error p hissues htype hv
  · trivial

theorem parse_throws {p : Err → Prop} (hissues : ∀ issues, p (.zodError issues))
    (htype : p .typeError) (data : JsValue) : (parse schema data).Throws p := by
  refine Prog.throws_bind (fun now => ?_) _ (fun _ => trivial)
  rcases hp : parsed schema now data with e | out
  · exact parsed_error p hissues htype hp
  · trivial

end ClickScope
