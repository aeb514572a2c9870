import ClickScope.Async.Prog

/-!
# Preconditions of Sequential Runs

What a program run alone ends with, by recursion over the program.

`wp` is the weakest precondition under which every sequential run of a program
ends in a postcondition. It says what `Prog.seqRun` says about all choices at
once, and composes with the program: a sequence is proved from its first
program, a handler from the handled one, and a function from the proofs about
the functions it calls.

## Main definitions

* `wp`: Every run from a world ends in the postcondition.
* `ThenWp`, `CatchWp`: What a program in a sequence or under a handler ends with.
* `Throws`: Everything a program can throw satisfies a predicate.
* `may`: Some run from a world ends in the postcondition.

## Theorems

* `wp_iff`: What `wp` means.
* `wp_mono`, `wp_bind`, `wp_tryCatch`, `wp_map`: The rules.
* `wp_keeps`: A program whose operations all keep an invariant.
* `throws_bind`, `throws_tryCatch`, `throws_wp`: What a composed program throws.
* `exists_seqRun`: A program whose operations never have to wait has a run.
* `may_iff`: What `may` means.
* `may_mono`, `may_bind`, `may_tryCatch`: Its rules.
-/

namespace Async

namespace Prog

variable {Op : Type} {Res : Op → Type} {ε α β Choice World : Type}
  (exec : (op : Op) → Choice → World → Option (Res op × World))

/-- Run alone from this world, the program ends in `Post` if it ends at all. -/
def wp (Post : Except ε α → World → Prop) : Prog Op Res ε α → World → Prop
  | .ret a, w => Post (.ok a) w
  | .throw e, w => Post (.error e) w
  | .await op k, w => ∀ ch r w', exec op ch w = some (r, w') → wp Post (k r) w'

/-- What the first program of a sequence has to end with. -/
def ThenWp (Post : Except ε β → World → Prop) (f : α → Prog Op Res ε β) :
    Except ε α → World → Prop
  | .ok a, w => (f a).wp exec Post w
  | .error e, w => Post (.error e) w

/-- What a handled program has to end with. -/
def CatchWp (Post : Except ε α → World → Prop) (h : ε → Prog Op Res ε α) :
    Except ε α → World → Prop
  | .ok a, w => Post (.ok a) w
  | .error e, w => (h e).wp exec Post w

variable {exec}

@[simp] theorem wp_ret (Post : Except ε α → World → Prop) (a : α) (w : World) :
    (Prog.ret a : Prog Op Res ε α).wp exec Post w ↔ Post (.ok a) w := Iff.rfl

@[simp] theorem wp_throw (Post : Except ε α → World → Prop) (e : ε) (w : World) :
    (Prog.throw e : Prog Op Res ε α).wp exec Post w ↔ Post (.error e) w := Iff.rfl

@[simp] theorem thenWp_ok (Post : Except ε β → World → Prop) (f : α → Prog Op Res ε β) (a : α)
    (w : World) : ThenWp exec Post f (.ok a) w ↔ (f a).wp exec Post w := Iff.rfl

@[simp] theorem thenWp_error (Post : Except ε β → World → Prop) (f : α → Prog Op Res ε β) (e : ε)
    (w : World) : ThenWp exec Post f (.error e) w ↔ Post (.error e) w := Iff.rfl

@[simp] theorem catchWp_ok (Post : Except ε α → World → Prop) (h : ε → Prog Op Res ε α) (a : α)
    (w : World) : CatchWp exec Post h (.ok a) w ↔ Post (.ok a) w := Iff.rfl

@[simp] theorem catchWp_error (Post : Except ε α → World → Prop) (h : ε → Prog Op Res ε α) (e : ε)
    (w : World) : CatchWp exec Post h (.error e) w ↔ (h e).wp exec Post w := Iff.rfl

/-- `wp` holds exactly if every sequential run ends in the postcondition. -/
theorem wp_iff {Post : Except ε α → World → Prop} :
    ∀ (x : Prog Op Res ε α) (w : World), x.wp exec Post w ↔
      ∀ chs r w', x.seqRun exec chs w = some (r, w') → Post r w' := by
  intro x
  induction x with
  | ret a =>
      intro w
      refine ⟨fun h chs r w' hrun => ?_, fun h => h [] _ _ rfl⟩
      have hout := (seqRun_ret exec hrun).2
      rw [Prod.mk.injEq] at hout
      rw [hout.1, hout.2]
      exact h
  | throw e =>
      intro w
      refine ⟨fun h chs r w' hrun => ?_, fun h => h [] _ _ rfl⟩
      have hout := (seqRun_throw exec hrun).2
      rw [Prod.mk.injEq] at hout
      rw [hout.1, hout.2]
      exact h
  | await op k ih =>
      intro w
      refine ⟨fun h chs r w' hrun => ?_, fun h ch r w' hx => ?_⟩
      · -- A run spends its first choice on the operation.
        rcases seqRun_await exec hrun with ⟨ch, rest, a, w₁, _, hx, hrest⟩
        exact (ih a w₁).mp (h ch a w₁ hx) rest r w' hrest
      · refine (ih r w').mpr (fun chs r' w'' hrun => h (ch :: chs) r' w'' ?_)
        simp only [seqRun, hx]
        exact hrun

theorem wp_mono {Post Post' : Except ε α → World → Prop} (hpost : ∀ r w, Post r w → Post' r w) :
    ∀ (x : Prog Op Res ε α) (w : World), x.wp exec Post w → x.wp exec Post' w := by
  intro x
  induction x with
  | ret a => exact fun w h => hpost _ w h
  | throw e => exact fun w h => hpost _ w h
  | await op k ih => exact fun w h ch r w' hx => ih r w' (h ch r w' hx)

theorem wp_bind {Post : Except ε β → World → Prop} {f : α → Prog Op Res ε β} :
    ∀ (x : Prog Op Res ε α) (w : World), x.wp exec (ThenWp exec Post f) w →
      (x.bind f).wp exec Post w := by
  intro x
  induction x with
  | ret a => exact fun w h => h
  | throw e => exact fun w h => h
  | await op k ih => exact fun w h ch r w' hx => ih r w' (h ch r w' hx)

theorem wp_tryCatch {Post : Except ε α → World → Prop} {h : ε → Prog Op Res ε α} :
    ∀ (x : Prog Op Res ε α) (w : World), x.wp exec (CatchWp exec Post h) w →
      (x.tryCatch h).wp exec Post w := by
  intro x
  induction x with
  | ret a => exact fun w hx => hx
  | throw e => exact fun w hx => hx
  | await op k ih => exact fun w hx ch r w' hr => ih r w' (hx ch r w' hr)

/-- Renaming what a program returns renames it in its postcondition. -/
theorem wp_map {Post : Except ε β → World → Prop} {f : α → β} {x : Prog Op Res ε α} {w : World}
    (h : x.wp exec (fun r w' => Post (r.map f) w') w) :
    (x.bind (fun a => .ret (f a))).wp exec Post w := by
  refine wp_bind x w (wp_mono (fun r w' hr => ?_) x w h)
  cases r <;> exact hr

/-- What all its operations keep, a program keeps. -/
theorem wp_keeps {I : World → Prop} {p : Op → Prop} {Post : Except ε α → World → Prop}
    (hop : ∀ op ch w r w', p op → I w → exec op ch w = some (r, w') → I w')
    (hpost : ∀ r w, I w → Post r w) :
    ∀ (x : Prog Op Res ε α), x.Only p → ∀ w, I w → x.wp exec Post w := by
  intro x
  induction x with
  | ret a => exact fun _ w hI => hpost _ w hI
  | throw e => exact fun _ w hI => hpost _ w hI
  | await op k ih =>
      exact fun h w hI ch r w' hx => ih r (h.2 r) w' (hop op ch w r w' h.1 hI hx)

/-- A program whose operations never have to wait runs to its end. -/
theorem exists_seqRun {p : Op → Prop}
    (hop : ∀ op w, p op → ∃ ch r w', exec op ch w = some (r, w')) :
    ∀ (x : Prog Op Res ε α), x.Only p → ∀ w, ∃ chs r w', x.seqRun exec chs w = some (r, w') := by
  intro x
  induction x with
  | ret a => exact fun _ w => ⟨[], .ok a, w, rfl⟩
  | throw e => exact fun _ w => ⟨[], .error e, w, rfl⟩
  | await op k ih =>
      intro h w
      rcases hop op w h.1 with ⟨ch, a, w₁, hx⟩
      rcases ih a (h.2 a) w₁ with ⟨chs, r, w', hrun⟩
      refine ⟨ch :: chs, r, w', ?_⟩
      simp only [seqRun, hx]
      exact hrun

/-- Whatever the program throws satisfies `p`. -/
def Throws (p : ε → Prop) : Prog Op Res ε α → Prop
  | .ret _ => True
  | .throw e => p e
  | .await _ k => ∀ r, (k r).Throws p

theorem throws_bind {p : ε → Prop} {f : α → Prog Op Res ε β} (hf : ∀ a, (f a).Throws p) :
    ∀ (x : Prog Op Res ε α), x.Throws p → (x.bind f).Throws p := by
  intro x
  induction x with
  | ret a => exact fun _ => hf a
  | throw e => exact fun h => h
  | await op k ih => exact fun h r => ih r (h r)

/-- A handled program throws only what its handler does. -/
theorem throws_tryCatch {p : ε → Prop} {h : ε → Prog Op Res ε α} (hh : ∀ e, (h e).Throws p) :
    ∀ (x : Prog Op Res ε α), (x.tryCatch h).Throws p := by
  intro x
  induction x with
  | ret a => trivial
  | throw e => exact hh e
  | await op k ih => exact ih

theorem throws_wp {p : ε → Prop} :
    ∀ (x : Prog Op Res ε α), x.Throws p →
      ∀ w, x.wp exec (fun r _ => ∀ e, r = .error e → p e) w := by
  intro x
  induction x with
  | ret a => exact fun _ w e he => by cases he
  | throw e =>
      intro h w e' he
      rw [Except.error.injEq] at he
      rw [← he]
      exact h
  | await op k ih => exact fun h w ch r w' _ => ih r (h r) w'

/-- Run alone from this world, the program can end in `Post`. -/
def may (exec : (op : Op) → Choice → World → Option (Res op × World))
    (Post : Except ε α → World → Prop) : Prog Op Res ε α → World → Prop
  | .ret a, w => Post (.ok a) w
  | .throw e, w => Post (.error e) w
  | .await op k, w => ∃ ch r w', exec op ch w = some (r, w') ∧ may exec Post (k r) w'

/-- What the first program of a sequence has to be able to end with. -/
def ThenMay (exec : (op : Op) → Choice → World → Option (Res op × World))
    (Post : Except ε β → World → Prop) (f : α → Prog Op Res ε β) :
    Except ε α → World → Prop
  | .ok a, w => (f a).may exec Post w
  | .error e, w => Post (.error e) w

/-- What a handled program has to be able to end with. -/
def CatchMay (exec : (op : Op) → Choice → World → Option (Res op × World))
    (Post : Except ε α → World → Prop) (h : ε → Prog Op Res ε α) :
    Except ε α → World → Prop
  | .ok a, w => Post (.ok a) w
  | .error e, w => (h e).may exec Post w

/-- `may` holds exactly if some sequential run ends in the postcondition. -/
theorem may_iff {Post : Except ε α → World → Prop} :
    ∀ (x : Prog Op Res ε α) (w : World), x.may exec Post w ↔
      ∃ chs r w', x.seqRun exec chs w = some (r, w') ∧ Post r w' := by
  intro x
  induction x with
  | ret a =>
      refine fun w => ⟨fun h => ⟨[], _, _, rfl, h⟩, fun h => ?_⟩
      rcases h with ⟨chs, r, w', hrun, hpost⟩
      have hout := (seqRun_ret exec hrun).2
      rw [Prod.mk.injEq] at hout
      rw [hout.1, hout.2] at hpost
      exact hpost
  | throw e =>
      refine fun w => ⟨fun h => ⟨[], _, _, rfl, h⟩, fun h => ?_⟩
      rcases h with ⟨chs, r, w', hrun, hpost⟩
      have hout := (seqRun_throw exec hrun).2
      rw [Prod.mk.injEq] at hout
      rw [hout.1, hout.2] at hpost
      exact hpost
  | await op k ih =>
      refine fun w => ⟨fun h => ?_, fun h => ?_⟩
      · -- The choice of the operation goes before those of what follows.
        rcases h with ⟨ch, a, w₁, hx, hrest⟩
        rcases (ih a w₁).mp hrest with ⟨chs, r, w', hrun, hpost⟩
        refine ⟨ch :: chs, r, w', ?_, hpost⟩
        simp only [seqRun, hx]
        exact hrun
      · rcases h with ⟨chs, r, w', hrun, hpost⟩
        rcases seqRun_await exec hrun with ⟨ch, rest, a, w₁, _, hx, hrest⟩
        exact ⟨ch, a, w₁, hx, (ih a w₁).mpr ⟨rest, r, w', hrest, hpost⟩⟩

theorem may_mono {Post Post' : Except ε α → World → Prop} (hpost : ∀ r w, Post r w → Post' r w) :
    ∀ (x : Prog Op Res ε α) (w : World), x.may exec Post w → x.may exec Post' w := by
  intro x
  induction x with
  | ret a => exact fun w h => hpost _ w h
  | throw e => exact fun w h => hpost _ w h
  | await op k ih =>
      rintro w ⟨ch, r, w', hx, h⟩
      exact ⟨ch, r, w', hx, ih r w' h⟩

theorem may_bind {Post : Except ε β → World → Prop} {f : α → Prog Op Res ε β} :
    ∀ (x : Prog Op Res ε α) (w : World), x.may exec (ThenMay exec Post f) w →
      (x.bind f).may exec Post w := by
  intro x
  induction x with
  | ret a => exact fun w h => h
  | throw e => exact fun w h => h
  | await op k ih =>
      rintro w ⟨ch, r, w', hx, h⟩
      exact ⟨ch, r, w', hx, ih r w' h⟩

theorem may_tryCatch {Post : Except ε α → World → Prop} {h : ε → Prog Op Res ε α} :
    ∀ (x : Prog Op Res ε α) (w : World), x.may exec (CatchMay exec Post h) w →
      (x.tryCatch h).may exec Post w := by
  intro x
  induction x with
  | ret a => exact fun w hx => hx
  | throw e => exact fun w hx => hx
  | await op k ih =>
      rintro w ⟨ch, r, w', hx, hr⟩
      exact ⟨ch, r, w', hx, ih r w' hr⟩

end Prog

end Async
