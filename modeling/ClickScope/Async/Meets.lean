import ClickScope.Async.Pool
import ClickScope.Async.Wp

/-!
# Programs Under an Agreement

What a program ends with, as long as its operations are answered as agreed.

An `Agreement` has two sides: what a program may ask for, and what the answers
are like. A program meets it if all it asks for is agreed, given that all it was
told is, and if it then ends as it should: with a value that satisfies one
predicate or an error that satisfies another. Nothing is said of the world, so
this is decided by the program alone, function by function.

The world is on the other side. In a pool whose operations keep an invariant and
answer as agreed while they are asked for what is agreed, every program that
meets the agreement ends as it should, however the programs interleave.

## Main definitions

* `Agreement`: What is asked for, and what the answers are like.
* `Prog.Meets`: A program that meets an agreement.
* `Honours`: A pool that does its side of it.

## Theorems

* `meets_bind`, `meets_tryCatch`, `meets_embed`: What a composed program meets.
* `meets_only`, `meets_throws`: A program of which no more has to be known than
  what it asks for, and what it throws.
* `run_meets`: The threads of a run meet the agreement.
* `run_ends`: How they end.
-/

namespace Async

/-- What programs may ask for, and what the answers they get are like. -/
structure Agreement (Op : Type) (Res : Op → Type) where
  asks : Op → Prop
  answers : (op : Op) → Res op → Prop

namespace Prog

variable {Op Op' : Type} {Res : Op → Type} {Res' : Op' → Type} {ε ε' α β : Type}

/-- While its operations are answered as agreed, the program asks for what is
    agreed, and returns a value with `P` or throws an error with `E`. -/
def Meets (A : Agreement Op Res) (E : ε → Prop) (P : α → Prop) : Prog Op Res ε α → Prop
  | .ret a => P a
  | .throw e => E e
  | .await op k => A.asks op ∧ ∀ r, A.answers op r → (k r).Meets A E P

variable {A : Agreement Op Res} {E E' : ε → Prop} {P : α → Prop} {P' : β → Prop}

theorem meets_mono {F : ε → Prop} {Q : α → Prop} (hE : ∀ e, E e → F e) (hP : ∀ a, P a → Q a) :
    ∀ x : Prog Op Res ε α, x.Meets A E P → x.Meets A F Q := by
  intro x
  induction x with
  | ret a => exact hP a
  | throw e => exact hE e
  | await op k ih => exact fun h => ⟨h.1, fun r hr => ih r (h.2 r hr)⟩

theorem meets_bind {f : α → Prog Op Res ε β} (hf : ∀ a, P a → (f a).Meets A E P') :
    ∀ x : Prog Op Res ε α, x.Meets A E P → (x.bind f).Meets A E P' := by
  intro x
  induction x with
  | ret a => exact hf a
  | throw e => exact fun h => h
  | await op k ih => exact fun h => ⟨h.1, fun r hr => ih r (h.2 r hr)⟩

/-- A handler only has to do with what the handled program throws. -/
theorem meets_tryCatch {h : ε → Prog Op Res ε α} (hh : ∀ e, E e → (h e).Meets A E' P) :
    ∀ x : Prog Op Res ε α, x.Meets A E P → (x.tryCatch h).Meets A E' P := by
  intro x
  induction x with
  | ret a => exact fun hx => hx
  | throw e => exact hh e
  | await op k ih => exact fun hx => ⟨hx.1, fun r hr => ih r (hx.2 r hr)⟩

/-- A program among more operations, where those of its own are agreed on. -/
theorem meets_embed {A' : Agreement Op' Res'} {F : ε' → Prop} {f : Op → Op'}
    {g : ∀ op, Res' (f op) → Res op} {err : ε → ε'} (hasks : ∀ op, A.asks op → A'.asks (f op))
    (hanswers : ∀ op r, A'.answers (f op) r → A.answers op (g op r))
    (hE : ∀ e, E e → F (err e)) :
    ∀ x : Prog Op Res ε α, x.Meets A E P → (x.embed f g err).Meets A' F P := by
  intro x
  induction x with
  | ret a => exact fun h => h
  | throw e => exact hE e
  | await op k ih =>
      exact fun h => ⟨hasks op h.1, fun r hr => ih (g op r) (h.2 (g op r) (hanswers op r hr))⟩

/-- A program that only asks for what is always agreed on, and ends somehow. -/
theorem meets_only {p : Op → Prop} (hp : ∀ op, p op → A.asks op) (hE : ∀ e, E e) (hP : ∀ a, P a) :
    ∀ x : Prog Op Res ε α, x.Only p → x.Meets A E P := by
  intro x
  induction x with
  | ret a => exact fun _ => hP a
  | throw e => exact fun _ => hE e
  | await op k ih => exact fun h => ⟨hp op h.1, fun r _ => ih r (h.2 r)⟩

/-- The same for one about which it is known what it throws. -/
theorem meets_throws {p : Op → Prop} (hp : ∀ op, p op → A.asks op) (hP : ∀ a, P a) :
    ∀ x : Prog Op Res ε α, x.Only p → x.Throws E → x.Meets A E P := by
  intro x
  induction x with
  | ret a => exact fun _ _ => hP a
  | throw e => exact fun _ h => h
  | await op k ih => exact fun h ht => ⟨hp op h.1, fun r _ => ih r (h.2 r) (ht r)⟩

end Prog

section Pools

variable {Op : Type} {Res : Op → Type} {Err Out Call Env Choice World : Type}
  {S : System Op Res Err Out Call Env Choice World} {π : Policy Op Res Call Choice World}
  {A : Agreement Op Res} {I : World → Prop} {E : Call → Err → Prop} {P : Call → Out → Prop}
  {w₀ : World} {c : Config Op Res Err Out Call Choice World}

/-- Under a policy the pool does its side of an agreement, and keeps an
    invariant of the world by it. -/
structure Honours (S : System Op Res Err Out Call Env Choice World)
    (π : Policy Op Res Call Choice World) (A : Agreement Op Res) (I : World → Prop) : Prop where
  exec : ∀ (st : State Op Res Call Choice World) i call op ch r w, π.mayDo st i call op ch →
    I st.world → A.asks op → S.exec i op ch st.world = some (r, w) → A.answers op r ∧ I w
  env : ∀ e w w', I w → S.env e w = some w' → I w'
  reap : ∀ i w, I w → I (S.reap i w)

/-- So it does under a policy that permits no more. -/
theorem Honours.under {π' : Policy Op Res Call Choice World} (hS : Honours S π A I)
    (h : ∀ st i call op ch, π'.mayDo st i call op ch → π.mayDo st i call op ch) :
    Honours S π' A I where
  exec := fun st i call op ch r w hmay => hS.exec st i call op ch r w (h st i call op ch hmay)
  env := hS.env
  reap := hS.reap

/-- What is left of each thread meets the agreement, in a world with the
    invariant. -/
theorem run_meets (hS : Honours S π A I) (hbody : ∀ call, (S.body call).Meets A (E call) (P call))
    (h₀ : I w₀) (hc : Run S π w₀ c) :
    I c.state.world ∧ ∀ t ∈ c.threads, t.prog.Meets A (E t.call) (P t.call) := by
  induction hc with
  | start => exact ⟨h₀, fun t ht => by cases ht⟩
  | step d d' a _ hp hs ih =>
      rcases ih with ⟨hI, hthreads⟩
      cases a with
      | spawn call =>
          simp only [Config.step, Option.some.injEq] at hs
          subst hs
          refine ⟨hI, fun t ht => ?_⟩
          rcases List.mem_append.mp ht with ht | ht
          · exact hthreads t ht
          · rw [List.mem_singleton.mp ht]
            exact hbody call
      | run i ch =>
          rcases step_run_inv hs with ⟨t, op, k, r, w, ht, _, hprog, hx, rfl⟩
          have hmeets := hthreads t (List.mem_of_getElem? ht)
          rw [hprog] at hmeets
          rcases hS.exec d.state i t.call op ch r w (hp t op k ht hprog) hI hmeets.1 hx with
            ⟨hanswer, hI'⟩
          refine ⟨hI', fun u hu => ?_⟩
          rcases List.mem_or_eq_of_mem_set hu with hu | rfl
          · exact hthreads u hu
          · exact hmeets.2 r hanswer
      | env e =>
          rcases step_env_inv hs with ⟨w, hw, rfl⟩
          exact ⟨hS.env e _ w hI hw, hthreads⟩
      | kill i =>
          rcases step_kill_inv hs with ⟨t, ht, _, rfl⟩
          refine ⟨hS.reap i _ hI, fun u hu => ?_⟩
          rcases List.mem_or_eq_of_mem_set hu with hu | rfl
          · exact hthreads u hu
          · exact hthreads t (List.mem_of_getElem? ht)

/-- A thread that has ended did so as its call should. -/
theorem run_ends (hS : Honours S π A I) (hbody : ∀ call, (S.body call).Meets A (E call) (P call))
    (h₀ : I w₀) (hc : Run S π w₀ c) {i : Nat} {t : Thread Op Res Err Out Call}
    (ht : c.threads[i]? = some t) {r : Except Err Out} (hr : t.result = some r) :
    (∃ a, r = .ok a ∧ P t.call a) ∨ ∃ e, r = .error e ∧ E t.call e := by
  have hmeets := (run_meets hS hbody h₀ hc).2 t (List.mem_of_getElem? ht)
  unfold Thread.result at hr
  cases hprog : t.prog with
  | ret a =>
      rw [hprog] at hr hmeets
      exact Or.inl ⟨a, (Option.some.inj hr).symm, hmeets⟩
  | throw e =>
      rw [hprog] at hr hmeets
      exact Or.inr ⟨e, (Option.some.inj hr).symm, hmeets⟩
  | await op k =>
      rw [hprog] at hr
      cases hr

end Pools

end Async
