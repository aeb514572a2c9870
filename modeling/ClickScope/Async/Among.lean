import ClickScope.Async.Wp

/-!
# Running Among Others

One program, and any others at all between its operations.

`Pool` interleaves programs that are known. Where a result does not depend on
what the others are, only on what they leave intact, it is enough to say how
they may move the world: `among` lets them do so before each operation. A run
among others is a sequential run that chooses, with each operation, the world
the operation finds.

`Safe` is the rule for such runs. It asks of each operation what it does in any
world of the invariant, and so needs no world of its own; `safe_wp` and
`safe_sends` give what it says about the runs.

## Main definitions

* `among`: What an operation does after the others have moved.
* `Sends`: Every operation a program performs in its runs satisfies a predicate.
* `Safe`: What a program sends and throws, from an invariant alone.

## Theorems

* `safe_bind`, `safe_tryCatch`: The rules.
* `wp_await_among`: The rule for one operation, from an invariant.
* `safe_wp`, `safe_sends`: The runs of a safe program.
* `seqRun_among`: A run alone is one among others that do nothing.
-/

namespace Async

namespace Prog

variable {Op : Type} {Res : Op → Type} {ε α β Choice World : Type}

/-- What an operation does in the world the others have left, which is chosen
    with its other choices. -/
def among (exec : (op : Op) → Choice → World → Option (Res op × World))
    (moves : World → World → Bool) (op : Op) (x : World × Choice) (w : World) :
    Option (Res op × World) :=
  if moves w x.1 then exec op x.2 x.1 else none

variable {exec : (op : Op) → Choice → World → Option (Res op × World)}

/-- Every operation the program performs in its runs from this world satisfies
    `q`. -/
def Sends (exec : (op : Op) → Choice → World → Option (Res op × World)) (q : Op → Prop) :
    Prog Op Res ε α → World → Prop
  | .ret _, _ => True
  | .throw _, _ => True
  | .await op k, w => q op ∧ ∀ ch r w', exec op ch w = some (r, w') → (k r).Sends exec q w'

/-- Whatever worlds of the invariant its operations find, they keep it, each of
    them satisfies `q`, and what the program throws satisfies `p`. -/
def Safe (exec : (op : Op) → Choice → World → Option (Res op × World)) (I : World → Prop)
    (q : Op → Prop) (p : ε → Prop) : Prog Op Res ε α → Prop
  | .ret _ => True
  | .throw e => p e
  | .await op k => q op ∧ ∀ ch w r w', I w → exec op ch w = some (r, w') →
      I w' ∧ (k r).Safe exec I q p

variable {I : World → Prop} {q : Op → Prop} {p : ε → Prop}

theorem safe_bind {f : α → Prog Op Res ε β} (hf : ∀ a, (f a).Safe exec I q p) :
    ∀ (x : Prog Op Res ε α), x.Safe exec I q p → (x.bind f).Safe exec I q p := by
  intro x
  induction x with
  | ret a => exact fun _ => hf a
  | throw e => exact fun h => h
  | await op k ih =>
      intro h
      refine ⟨h.1, fun ch w r w' hI hx => ?_⟩
      have hnext := h.2 ch w r w' hI hx
      exact ⟨hnext.1, ih r hnext.2⟩

/-- A handler only meets what the handled program throws. -/
theorem safe_tryCatch {p' : ε → Prop} {h : ε → Prog Op Res ε α}
    (hh : ∀ e, p' e → (h e).Safe exec I q p) :
    ∀ (x : Prog Op Res ε α), x.Safe exec I q p' → (x.tryCatch h).Safe exec I q p := by
  intro x
  induction x with
  | ret a => exact fun _ => trivial
  | throw e => exact fun hx => hh e hx
  | await op k ih =>
      intro hx
      refine ⟨hx.1, fun ch w r w' hI hstep => ?_⟩
      have hnext := hx.2 ch w r w' hI hstep
      exact ⟨hnext.1, ih r hnext.2⟩

section Moves

variable {moves : World → World → Bool} (hmoves : ∀ w w', moves w w' = true → I w → I w')

/-- A step among others finds a world the others may leave. -/
theorem among_inv {op : Op} {x : World × Choice} {w w' : World} {r : Res op}
    (h : among exec moves op x w = some (r, w')) :
    moves w x.1 = true ∧ exec op x.2 x.1 = some (r, w') := by
  unfold among at h
  by_cases hmove : moves w x.1 = true
  · rw [if_pos hmove] at h
    exact ⟨hmove, h⟩
  · rw [if_neg hmove] at h
    cases h

include hmoves in
/-- An operation among others finds the invariant they keep. -/
theorem wp_await_among {op : Op} {k : Res op → Prog Op Res ε α}
    {Post : Except ε α → World → Prop} {w : World} (hI : I w)
    (h : ∀ ch v r v', I v → exec op ch v = some (r, v') → (k r).wp (among exec moves) Post v') :
    (Prog.await op k).wp (among exec moves) Post w := by
  intro x r w' hx
  have hstep := among_inv hx
  exact h x.2 x.1 r w' (hmoves w x.1 hstep.1 hI) hstep.2

include hmoves in
/-- What a safe program throws among others. Induction on the program; the
    invariant carries it across the moves of the others. -/
theorem safe_wp : ∀ (x : Prog Op Res ε α), x.Safe exec I q p → ∀ w, I w →
    x.wp (among exec moves) (fun r _ => ∀ e, r = .error e → p e) w := by
  intro x
  induction x with
  | ret a => exact fun _ w _ e he => by cases he
  | throw e =>
      intro h w _ e' he
      rw [Except.error.injEq] at he
      rw [← he]
      exact h
  | await op k ih =>
      intro h w hI y r w' hx
      have hstep := among_inv hx
      have hfound : I y.1 := hmoves w y.1 hstep.1 hI
      have hnext := h.2 y.2 y.1 r w' hfound hstep.2
      exact ih r hnext.2 w' hnext.1

include hmoves in
theorem safe_sends : ∀ (x : Prog Op Res ε α), x.Safe exec I q p → ∀ w, I w →
    x.Sends (among exec moves) q w := by
  intro x
  induction x with
  | ret a => exact fun _ w _ => trivial
  | throw e => exact fun _ w _ => trivial
  | await op k ih =>
      intro h w hI
      refine ⟨h.1, fun y r w' hx => ?_⟩
      have hstep := among_inv hx
      have hfound : I y.1 := hmoves w y.1 hstep.1 hI
      have hnext := h.2 y.2 y.1 r w' hfound hstep.2
      exact ih r hnext.2 w' hnext.1

end Moves

/-- If the others may do nothing, a run alone is a run among them. -/
theorem seqRun_among {moves : World → World → Bool} (hrefl : ∀ w, moves w w = true) :
    ∀ (x : Prog Op Res ε α) (chs : List Choice) (w : World) (out : Except ε α × World),
      x.seqRun exec chs w = some out → ∃ xs, x.seqRun (among exec moves) xs w = some out := by
  intro x
  induction x with
  | ret a =>
      intro chs w out h
      rw [(seqRun_ret exec h).2]
      exact ⟨[], rfl⟩
  | throw e =>
      intro chs w out h
      rw [(seqRun_throw exec h).2]
      exact ⟨[], rfl⟩
  | await op k ih =>
      intro chs w out h
      rcases seqRun_await exec h with ⟨ch, rest, r, w', _, hx, hrest⟩
      rcases ih r rest w' out hrest with ⟨xs, hxs⟩
      -- Nothing else moves before this operation.
      have hstep : among exec moves op (w, ch) w = some (r, w') := by
        unfold among
        rw [if_pos (hrefl w)]
        exact hx
      refine ⟨(w, ch) :: xs, ?_⟩
      simp only [seqRun, hstep]
      exact hxs

end Prog

end Async
