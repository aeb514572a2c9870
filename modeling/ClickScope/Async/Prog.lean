import Mathlib.Logic.Function.Basic

/-!
# Asynchronous Programs

A function that awaits one operation after another, as data.

An `async` function of a single-threaded runtime runs without interruption
between two awaits, so the only places another task can intervene are the
awaits themselves. `Prog` keeps exactly those places: a program has returned,
has thrown, or waits for the result of one operation. Everything between two
awaits is folded into the continuation, which is an ordinary function.

The tree is an inductive type, so a program awaits finitely many operations
on every path; a function with an unbounded loop has no embedding here.

`seqRun` runs one program alone. The world answers each operation through
`exec`, and a list of choices resolves what the operation leaves open: a
random draw, a fault, a foreign service's answer. Interleaving several
programs is `Async.Pool`.

## Main definitions

* `Prog`: A program awaiting operations one at a time.
* `Prog.bind`: Sequencing, with a throw cutting the rest off.
* `Prog.tryCatch`: Handling what the first program throws.
* `Prog.Only`: Every operation a program can perform satisfies a predicate.
* `Prog.Once`: A program performs such an operation at most once.
* `Prog.embed`: A program among more operations and errors.
* `Prog.seqRun`: Running one program alone against a list of choices.
* `Prog.Matches`: Equal results in related worlds.

## Theorems

* `only_bind`, `only_tryCatch`: What a composed program can perform.
* `seqRun_bind`: A sequential run of a sequence splits at the join.
* `seqRun_matches`: A program cannot tell apart what its operations cannot.
* `seqRun_keeps`: What its operations keep, a program keeps.
-/

namespace Async

/-- A program that awaits one operation at a time. It has returned a value,
    has thrown an error, or waits for an operation's result before going on. -/
inductive Prog (Op : Type) (Res : Op → Type) (ε α : Type) : Type
  | ret (a : α) : Prog Op Res ε α
  | throw (e : ε) : Prog Op Res ε α
  | await (op : Op) (k : Res op → Prog Op Res ε α) : Prog Op Res ε α

namespace Prog

variable {Op : Type} {Res : Op → Type} {ε α β γ : Type}

/-- Sequencing: the second program starts where the first one returns, and a
    throw of the first is the throw of the whole. -/
def bind : Prog Op Res ε α → (α → Prog Op Res ε β) → Prog Op Res ε β
  | .ret a, f => f a
  | .throw e, _ => .throw e
  | .await op k, f => .await op (fun r => (k r).bind f)

/-- Run a program, handing what it throws to a handler. -/
def tryCatch : Prog Op Res ε α → (ε → Prog Op Res ε α) → Prog Op Res ε α
  | .ret a, _ => .ret a
  | .throw e, h => h e
  | .await op k, h => .await op (fun r => (k r).tryCatch h)

instance : Monad (Prog Op Res ε) where
  pure := .ret
  bind := bind

/-- Await one operation and return its result. -/
def perform (op : Op) : Prog Op Res ε (Res op) :=
  .await op .ret

/-- A program that has returned or thrown. -/
def finished : Prog Op Res ε α → Bool
  | .ret _ => true
  | .throw _ => true
  | .await _ _ => false

/-- What a finished program ended with. -/
def result : Prog Op Res ε α → Option (Except ε α)
  | .ret a => some (.ok a)
  | .throw e => some (.error e)
  | .await _ _ => none

@[simp] theorem pure_eq (a : α) : (pure a : Prog Op Res ε α) = .ret a := rfl

@[simp] theorem bind_eq (p : Prog Op Res ε α) (f : α → Prog Op Res ε β) :
    (p >>= f) = p.bind f := rfl

@[simp] theorem ret_bind (a : α) (f : α → Prog Op Res ε β) :
    (Prog.ret a).bind f = f a := rfl

@[simp] theorem throw_bind (e : ε) (f : α → Prog Op Res ε β) :
    (Prog.throw e : Prog Op Res ε α).bind f = .throw e := rfl

@[simp] theorem await_bind (op : Op) (k : Res op → Prog Op Res ε α)
    (f : α → Prog Op Res ε β) :
    (Prog.await op k).bind f = .await op (fun r => (k r).bind f) := rfl

@[simp] theorem perform_bind (op : Op) (f : Res op → Prog Op Res ε β) :
    (perform op : Prog Op Res ε (Res op)).bind f = .await op f := rfl

@[simp] theorem ret_tryCatch (a : α) (h : ε → Prog Op Res ε α) :
    (Prog.ret a).tryCatch h = .ret a := rfl

@[simp] theorem throw_tryCatch (e : ε) (h : ε → Prog Op Res ε α) :
    (Prog.throw e : Prog Op Res ε α).tryCatch h = h e := rfl

@[simp] theorem await_tryCatch (op : Op) (k : Res op → Prog Op Res ε α)
    (h : ε → Prog Op Res ε α) :
    (Prog.await op k).tryCatch h = .await op (fun r => (k r).tryCatch h) := rfl

/-- Every operation the program can ever perform satisfies `p`. -/
def Only (p : Op → Prop) : Prog Op Res ε α → Prop
  | .ret _ => True
  | .throw _ => True
  | .await op k => p op ∧ ∀ r, (k r).Only p

theorem only_bind {p : Op → Prop} {f : α → Prog Op Res ε β} (hf : ∀ a, (f a).Only p) :
    ∀ (x : Prog Op Res ε α), x.Only p → (x.bind f).Only p := by
  intro x
  induction x with
  | ret a => exact fun _ => hf a
  | throw e => exact fun h => h
  | await op k ih =>
      intro h
      exact ⟨h.1, fun r => ih r (h.2 r)⟩

/-- Passing on what a program returns performs nothing more. -/
theorem only_map {p : Op → Prop} {f : α → β} (x : Prog Op Res ε α) (h : x.Only p) :
    (x.bind (fun a => .ret (f a))).Only p :=
  only_bind (fun _ => by trivial) x h

theorem only_tryCatch {p : Op → Prop} {h : ε → Prog Op Res ε α} (hh : ∀ e, (h e).Only p) :
    ∀ (x : Prog Op Res ε α), x.Only p → (x.tryCatch h).Only p := by
  intro x
  induction x with
  | ret a => exact fun hx => hx
  | throw e => exact fun _ => hh e
  | await op k ih =>
      intro hx
      exact ⟨hx.1, fun r => ih r (hx.2 r)⟩

theorem only_mono {p q : Op → Prop} (hpq : ∀ op, p op → q op) :
    ∀ (x : Prog Op Res ε α), x.Only p → x.Only q := by
  intro x
  induction x with
  | ret a => exact fun h => h
  | throw e => exact fun h => h
  | await op k ih =>
      intro h
      exact ⟨hpq op h.1, fun r => ih r (h.2 r)⟩

/-- The program performs an operation that satisfies `p` at most once. -/
def Once (p : Op → Prop) : Prog Op Res ε α → Prop
  | .ret _ => True
  | .throw _ => True
  | .await op k => (p op ∧ ∀ r, (k r).Only (fun op => ¬ p op)) ∨ (¬ p op ∧ ∀ r, (k r).Once p)

theorem once_bind {p : Op → Prop} {f : α → Prog Op Res ε β} (hf : ∀ a, (f a).Once p) :
    ∀ (x : Prog Op Res ε α), x.Only (fun op => ¬ p op) → (x.bind f).Once p := by
  intro x
  induction x with
  | ret a => exact fun _ => hf a
  | throw e => exact fun _ => trivial
  | await op k ih =>
      intro h
      exact Or.inr ⟨h.1, fun r => ih r (h.2 r)⟩

section Embedding

variable {Op' : Type} {Res' : Op' → Type} {ε' : Type}

/-- A program as one of more operations and more errors: its operations under
    the names they have there. -/
def embed (f : Op → Op') (g : ∀ op, Res' (f op) → Res op) (e : ε → ε') :
    Prog Op Res ε α → Prog Op' Res' ε' α
  | .ret a => .ret a
  | .throw err => .throw (e err)
  | .await op k => .await (f op) (fun r => (k (g op r)).embed f g e)

end Embedding

section Sequential

variable {Choice World : Type} (exec : (op : Op) → Choice → World → Option (Res op × World))

/-- Run a program alone. Each awaited operation consumes one choice; the run
    is undefined when an operation is not enabled or the choices do not match
    the operations one for one. -/
def seqRun : Prog Op Res ε α → List Choice → World → Option (Except ε α × World)
  | .ret a, [], w => some (.ok a, w)
  | .ret _, _ :: _, _ => none
  | .throw e, [], w => some (.error e, w)
  | .throw _, _ :: _, _ => none
  | .await _ _, [], _ => none
  | .await op k, ch :: chs, w =>
      match exec op ch w with
      | none => none
      | some (r, w') => (k r).seqRun chs w'

@[simp] theorem seqRun_ret_nil (a : α) (w : World) :
    (Prog.ret a : Prog Op Res ε α).seqRun exec [] w = some (.ok a, w) := rfl

@[simp] theorem seqRun_throw_nil (e : ε) (w : World) :
    (Prog.throw e : Prog Op Res ε α).seqRun exec [] w = some (.error e, w) := rfl

/-- A sequential run that awaits spends its first choice on that await. -/
theorem seqRun_await {op : Op} {k : Res op → Prog Op Res ε α} {chs : List Choice}
    {w : World} {out : Except ε α × World}
    (h : (Prog.await op k).seqRun exec chs w = some out) :
    ∃ ch rest r w', chs = ch :: rest ∧ exec op ch w = some (r, w') ∧
      (k r).seqRun exec rest w' = some out := by
  cases chs with
  | nil => simp only [seqRun, reduceCtorEq] at h
  | cons ch rest =>
      simp only [seqRun] at h
      cases hx : exec op ch w with
      | none => simp only [hx, reduceCtorEq] at h
      | some rw' =>
          rcases rw' with ⟨r, w'⟩
          simp only [hx] at h
          exact ⟨ch, rest, r, w', rfl, hx, h⟩

/-- A finished program runs only against no choices, and changes nothing. -/
theorem seqRun_ret {a : α} {chs : List Choice} {w : World} {out : Except ε α × World}
    (h : (Prog.ret a : Prog Op Res ε α).seqRun exec chs w = some out) :
    chs = [] ∧ out = (.ok a, w) := by
  cases chs with
  | nil =>
      simp only [seqRun, Option.some.injEq] at h
      exact ⟨rfl, h.symm⟩
  | cons ch rest => simp only [seqRun, reduceCtorEq] at h

theorem seqRun_throw {e : ε} {chs : List Choice} {w : World} {out : Except ε α × World}
    (h : (Prog.throw e : Prog Op Res ε α).seqRun exec chs w = some out) :
    chs = [] ∧ out = (.error e, w) := by
  cases chs with
  | nil =>
      simp only [seqRun, Option.some.injEq] at h
      exact ⟨rfl, h.symm⟩
  | cons ch rest => simp only [seqRun, reduceCtorEq] at h

/-- Programs whose first operations always get answers on which they continue
    alike, in an unchanged world, run alike. -/
theorem seqRun_first {op op' : Op} {k : Res op → Prog Op Res ε α} {k' : Res op' → Prog Op Res ε α}
    {w : World} {r : Res op} {r' : Res op'} (hx : ∀ ch, exec op ch w = some (r, w))
    (hx' : ∀ ch, exec op' ch w = some (r', w)) (hk : k r = k' r') (chs : List Choice) :
    (Prog.await op k).seqRun exec chs w = (Prog.await op' k').seqRun exec chs w := by
  cases chs with
  | nil => rfl
  | cons ch rest => simp only [seqRun, hx, hx', hk]

/-- A sequential run of a sequence is a run of its first program, followed by
    a run of the second from where the first returned. -/
theorem seqRun_bind (p : Prog Op Res ε α) (f : α → Prog Op Res ε β) :
    ∀ (chs : List Choice) (w : World) (out : Except ε β × World),
      (p.bind f).seqRun exec chs w = some out →
      ∃ chs₁ chs₂ r w₁, chs = chs₁ ++ chs₂ ∧ p.seqRun exec chs₁ w = some (r, w₁) ∧
        match r with
        | .ok a => (f a).seqRun exec chs₂ w₁ = some out
        | .error e => chs₂ = [] ∧ out = (.error e, w₁) := by
  induction p with
  | ret a => intro chs w out h; exact ⟨[], chs, .ok a, w, rfl, rfl, h⟩
  | throw e =>
      intro chs w out h
      rcases seqRun_throw exec h with ⟨hnil, hout⟩
      exact ⟨[], chs, .error e, w, rfl, rfl, hnil, hout⟩
  | await op k ih =>
      intro chs w out h
      rcases seqRun_await exec h with ⟨ch, rest, r, w', rfl, hx, hrest⟩
      rcases ih r rest w' out hrest with ⟨c₁, c₂, q, w₁, rfl, hp, hq⟩
      -- The operation belongs to the first program.
      refine ⟨ch :: c₁, c₂, q, w₁, rfl, ?_, hq⟩
      simp only [seqRun, hx]
      exact hp

/-- Two outcomes of one operation or program in two worlds: undefined in both,
    or the same result in worlds that are related again. -/
def Matches {ρ : Type} (R : World → World → Prop) : Option (ρ × World) → Option (ρ × World) → Prop
  | none, none => True
  | some (r, w), some (r', w') => r = r' ∧ R w w'
  | _, _ => False

theorem matches_none {ρ : Type} {R : World → World → Prop} :
    Matches R (none : Option (ρ × World)) none := trivial

theorem matches_some {ρ : Type} {R : World → World → Prop} {r r' : ρ} {w w' : World}
    (hr : r = r') (hw : R w w') : Matches R (some (r, w)) (some (r', w')) := ⟨hr, hw⟩

/-- Two outcomes in related worlds, whatever the results are. -/
def Together {ρ : Type} (R : World → World → Prop) :
    Option (ρ × World) → Option (ρ × World) → Prop
  | none, none => True
  | some (_, w), some (_, w') => R w w'
  | _, _ => False

theorem matches_together {ρ : Type} {R : World → World → Prop} :
    ∀ {o o' : Option (ρ × World)}, Matches R o o' → Together R o o'
  | none, none, _ => trivial
  | some _, some _, h => h.2

theorem together_ret {R : World → World → Prop} {w w' : World} (hw : R w w') (a b : α)
    (chs : List Choice) :
    Together R ((Prog.ret a : Prog Op Res ε α).seqRun exec chs w)
      ((Prog.ret b : Prog Op Res ε α).seqRun exec chs w') := by
  cases chs with
  | nil => exact hw
  | cons ch rest => trivial

theorem together_throw {R : World → World → Prop} {w w' : World} (hw : R w w') (e e' : ε)
    (chs : List Choice) :
    Together R ((Prog.throw e : Prog Op Res ε α).seqRun exec chs w)
      ((Prog.throw e' : Prog Op Res ε α).seqRun exec chs w') := by
  cases chs with
  | nil => exact hw
  | cons ch rest => trivial

/-- Programs that start with the same operation run together if they continue
    together from whatever it answers. -/
theorem together_await {R : World → World → Prop} {op : Op} {k k' : Res op → Prog Op Res ε α}
    {w w' : World}
    (hdef : ∀ ch, (exec op ch w).isSome = (exec op ch w').isSome)
    (hk : ∀ ch r v r' v', exec op ch w = some (r, v) → exec op ch w' = some (r', v') →
      ∀ chs, Together R ((k r).seqRun exec chs v) ((k' r').seqRun exec chs v'))
    (chs : List Choice) :
    Together R ((Prog.await op k).seqRun exec chs w) ((Prog.await op k').seqRun exec chs w') := by
  cases chs with
  | nil => trivial
  | cons ch rest =>
      -- The operation is enabled in both worlds or in neither.
      have hd := hdef ch
      simp only [seqRun]
      rcases hx : exec op ch w with _ | ⟨r, v⟩ <;> rcases hx' : exec op ch w' with _ | ⟨r', v'⟩ <;>
        rw [hx, hx'] at hd
      · trivial
      · exact absurd hd (by simp only [Option.isSome_none, Option.isSome_some, reduceCtorEq,
          not_false_eq_true])
      · exact absurd hd (by simp only [Option.isSome_none, Option.isSome_some, reduceCtorEq,
          not_false_eq_true])
      · exact hk ch r v r' v' hx hx' rest

/-- A program cannot tell two worlds apart that its operations cannot. -/
theorem seqRun_matches {R : World → World → Prop} {p : Op → Prop}
    (hop : ∀ op ch w w', p op → R w w' → Matches R (exec op ch w) (exec op ch w')) :
    ∀ (x : Prog Op Res ε α), x.Only p → ∀ (chs : List Choice) (w w' : World), R w w' →
      Matches R (x.seqRun exec chs w) (x.seqRun exec chs w') := by
  intro x
  induction x with
  | ret a =>
      intro _ chs w w' hR
      cases chs with
      | nil => exact matches_some rfl hR
      | cons ch rest => exact matches_none
  | throw e =>
      intro _ chs w w' hR
      cases chs with
      | nil => exact matches_some rfl hR
      | cons ch rest => exact matches_none
  | await op k ih =>
      intro honly chs w w' hR
      cases chs with
      | nil => exact matches_none
      | cons ch rest =>
          have hm := hop op ch w w' honly.1 hR
          simp only [seqRun]
          -- Worlds that match enable the same operations.
          rcases hx : exec op ch w with _ | ⟨r, v⟩ <;>
            rcases hx' : exec op ch w' with _ | ⟨r', v'⟩ <;> rw [hx, hx'] at hm
          · exact matches_none
          · exact hm.elim
          · exact hm.elim
          · rcases hm with ⟨rfl, hv⟩
            exact ih r (honly.2 r) rest v v' hv

/-- What each operation of a program keeps, a run of the program keeps. -/
theorem seqRun_keeps {I : World → Prop} {p : Op → Prop}
    (hop : ∀ op ch w r w', p op → I w → exec op ch w = some (r, w') → I w') :
    ∀ (x : Prog Op Res ε α), x.Only p → ∀ (chs : List Choice) (w : World)
      (out : Except ε α × World), I w → x.seqRun exec chs w = some out → I out.2 := by
  intro x
  induction x with
  | ret a =>
      intro _ chs w out hI h
      rw [(seqRun_ret exec h).2]
      exact hI
  | throw e =>
      intro _ chs w out hI h
      rw [(seqRun_throw exec h).2]
      exact hI
  | await op k ih =>
      intro honly chs w out hI h
      rcases seqRun_await exec h with ⟨ch, rest, r, w', _, hx, hrest⟩
      exact ih r (honly.2 r) rest w' out (hop op ch w r w' honly.1 hI hx) hrest

end Sequential

end Prog

end Async
