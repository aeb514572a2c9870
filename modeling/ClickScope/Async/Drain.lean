import ClickScope.Async.Pool
import Mathlib.Data.List.Perm.Basic
import Mathlib.Logic.Hydra

/-!
# Draining a Pool

A pool in which some thread can always move can be run until every thread that
is alive has ended.

A program is a tree of finite depth, but it may branch without a bound on what
its operations answer, so no number bounds the steps that are left. What
decreases is the tree itself: a step replaces it by one of its branches. Over
all threads of a pool, one tree of a multiset is replaced by a smaller one,
which is the game Mathlib plays against the hydra.

## Main definitions

* `Prog.Branch`: One program is a branch of another.
* `Config.left`: The programs that are left to run.
* `Config.runs`: Steps of threads, one after another.
* `Config.Stuck`: No thread can move with a choice of some kind.

## Theorems

* `branch_wf`: Branches are well-founded.
* `left_step`: A step of a thread shrinks the programs that are left.
* `no_endless_steps`: Threads cannot go on for ever.
* `exists_drained`: A pool that never gets stuck can be drained.
-/

namespace Async

namespace Prog

variable {Op : Type} {Res : Op → Type} {ε α : Type}

/-- What is left of a program after its first operation. -/
def Branch (p' p : Prog Op Res ε α) : Prop := ∃ op k r, p = .await op k ∧ p' = k r

theorem branch_wf : WellFounded (@Branch Op Res ε α) := by
  refine ⟨fun p => ?_⟩
  induction p with
  | ret a =>
      refine ⟨_, fun p' h => ?_⟩
      rcases h with ⟨op, k, r, heq, _⟩
      cases heq
  | throw e =>
      refine ⟨_, fun p' h => ?_⟩
      rcases h with ⟨op, k, r, heq, _⟩
      cases heq
  | await op k ih =>
      refine ⟨_, fun p' h => ?_⟩
      rcases h with ⟨op', k', r, heq, rfl⟩
      cases heq
      exact ih r

end Prog

variable {Op : Type} {Res : Op → Type} {Err Out Call Env Choice World : Type}

namespace Config

/-- The programs of all threads. -/
def left (c : Config Op Res Err Out Call Choice World) : Multiset (Prog Op Res Err Out) :=
  ((c.threads.map (·.prog) : List _) : Multiset _)

/-- Let threads move, one after another. -/
def runs (S : System Op Res Err Out Call Env Choice World) :
    Config Op Res Err Out Call Choice World → List (Nat × Choice) →
      Option (Config Op Res Err Out Call Choice World)
  | c, [] => some c
  | c, (i, ch) :: rest =>
      match c.step S (.run i ch) with
      | none => none
      | some c' => runs S c' rest

/-- Every thread that is alive has ended. -/
def Drained (c : Config Op Res Err Out Call Choice World) : Prop :=
  ∀ t ∈ c.threads, t.alive = true → t.prog.finished = true

/-- No thread can move with a choice of this kind. -/
def Stuck (S : System Op Res Err Out Call Env Choice World) (ok : Choice → Prop)
    (c : Config Op Res Err Out Call Choice World) : Prop :=
  ∀ i ch, ok ch → c.step S (.run i ch) = none

variable {c : Config Op Res Err Out Call Choice World}

/-- A step of a thread shrinks the programs that are left. -/
theorem left_advance {i : Nat} {t : Thread Op Res Err Out Call} {op : Op}
    {k : Res op → Prog Op Res Err Out} {ch : Choice} {r : Res op} {w : World}
    (ht : c.threads[i]? = some t) (hp : t.prog = .await op k) :
    Relation.CutExpand Prog.Branch (c.advance i t op ch r w (k r)).left c.left := by
  refine ⟨{k r}, .await op k, fun p' hp' => ?_, ?_⟩
  · rw [Multiset.mem_singleton.mp hp']
    exact ⟨op, k, r, rfl, rfl⟩
  · have hlt := (List.getElem?_eq_some_iff.mp ht).1
    -- The thread that moves is taken out of both sides.
    have hset := List.set_perm_cons_eraseIdx hlt (t.goOn (c.state.log.length + 1) (k r))
    have hself : c.threads.Perm (t :: c.threads.eraseIdx i) := by
      have h := List.set_perm_cons_eraseIdx hlt c.threads[i]
      rwa [List.set_getElem_self, (List.getElem?_eq_some_iff.mp ht).2] at h
    have hnew := Multiset.coe_eq_coe.mpr (hset.map (·.prog))
    have hold := Multiset.coe_eq_coe.mpr (hself.map (·.prog))
    unfold left advance
    simp only
    rw [hnew, hold, List.map_cons, List.map_cons, ← Multiset.cons_coe, ← Multiset.cons_coe, hp,
      ← Multiset.singleton_add, ← Multiset.singleton_add]
    exact (add_assoc _ _ _).trans ((add_comm _ _).trans (congrArg (· + _) (add_comm _ _)))

variable {S : System Op Res Err Out Call Env Choice World} {ok : Choice → Prop}

theorem left_step {c' : Config Op Res Err Out Call Choice World} {i : Nat} {ch : Choice}
    (h : c.step S (.run i ch) = some c') : Relation.CutExpand Prog.Branch c'.left c.left := by
  rcases step_run_inv h with ⟨t, op, k, r, w, ht, _, hp, _, rfl⟩
  exact left_advance ht hp

/-- Threads cannot go on taking steps for ever. -/
theorem no_endless_steps (f : Nat → Config Op Res Err Out Call Choice World) :
    ¬ ∀ n, ∃ i ch, (f n).step S (.run i ch) = some (f (n + 1)) := by
  intro h
  -- The programs that are left would shrink for ever.
  refine (wellFounded_iff_isEmpty_descending_chain.mp Prog.branch_wf.cutExpand).false
    ⟨fun n => (f n).left, fun n => ?_⟩
  rcases h n with ⟨i, ch, hstep⟩
  exact left_step hstep

/-- A pool that never gets stuck while a thread is left can be drained. The
    induction is on the programs that are left. -/
theorem exists_drained {I : Config Op Res Err Out Call Choice World → Prop}
    (hkeeps : ∀ c c' i ch, I c → c.step S (.run i ch) = some c' → I c')
    (hmoves : ∀ c, I c → ¬ c.Drained → ¬ c.Stuck S ok) :
    ∀ c, I c → ∃ acts c', (∀ a ∈ acts, ok a.2) ∧ c.runs S acts = some c' ∧ I c' ∧ c'.Drained := by
  intro c
  induction hm : c.left using Prog.branch_wf.cutExpand.induction generalizing c with
  | _ m ih =>
      intro hI
      by_cases hdone : c.Drained
      · exact ⟨[], c, fun a ha => (by cases ha), rfl, hI, hdone⟩
      · have hmove := hmoves c hI hdone
        unfold Stuck at hmove
        push Not at hmove
        rcases hmove with ⟨i, ch, hch, hstep⟩
        rcases Option.ne_none_iff_exists'.mp hstep with ⟨d, hd⟩
        have hless := left_step hd
        rw [hm] at hless
        rcases ih _ hless d rfl (hkeeps c d i ch hI hd) with ⟨acts, c', hacts, hruns, hI', hc'⟩
        refine ⟨(i, ch) :: acts, c', fun a ha => ?_, ?_, hI', hc'⟩
        · rcases List.mem_cons.mp ha with rfl | ha
          · exact hch
          · exact hacts a ha
        · simp only [runs, hd]
          exact hruns

end Config

end Async
