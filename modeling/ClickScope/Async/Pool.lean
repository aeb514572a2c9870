import ClickScope.Async.Prog
import Mathlib.Data.List.Basic

/-!
# Pools of Interleaved Programs

Any number of programs over one shared world, one operation at a time.

A `System` says what an operation does to the world, which program a call
runs, and what the environment may do on its own. A `Config` is the shared
state together with the threads started so far, and `Config.step` takes one
action: start a call, let one thread perform the operation it awaits, let the
environment move, or kill a thread. Nothing else is atomic, so a statement
about every run is a statement about every interleaving at the await points.

The state carries the run's own history. Each performed operation is an
`Event` holding its position, the thread and call it belongs to, its result,
and the world it left behind; `State.log` lists them, newest first. Questions
about order ("did this happen before that") become arithmetic on positions,
and no ghost variable has to be added to the world to ask them.

A `Policy` restricts which calls may start and which operations may happen
in which state, so a theorem about the runs whose steps all meet a condition
is a theorem about `Run` at that policy.

## Main definitions

* `Event`: One performed operation, with its position and outcome.
* `State`: The shared world and the history so far.
* `System`: Operations, calls and environment of a pool.
* `Config.step`: One action of the pool.
* `Run`: The configurations reachable under a policy.
* `State.mine`: The events of one thread.
* `State.Fits`: A history a given thread can have.

## Theorems

* `step_run_inv`: What a thread's step does to a configuration.
* `run_of_runAll`, `exists_run_of`, `exists_run`: Executing a list of actions
  is a run.
* `Run.mono`: A run under a policy is a run under any weaker one.
* `run_state`: An invariant of the state and its history.
* `run_seq_lt`: Positions in the history are below its length.
* `run_event_thread`, `run_fits`: Every event belongs to a started thread.
* `run_threads`: A property of threads that no action takes back.
* `run_calls`: What every started call keeps from when it was allowed to start.
* `run_only`: What a thread still has to perform is in its call's footprint.
-/

namespace Async

/-- One performed operation: its position in the history, the thread and the
    call it belongs to, the choice that resolved it, its result, and the
    world right after it. -/
structure Event (Op : Type) (Res : Op → Type) (Call Choice World : Type) where
  seq : Nat
  tid : Nat
  call : Call
  op : Op
  choice : Choice
  res : Res op
  after : World

/-- The shared world and the history that led to it, newest event first. -/
structure State (Op : Type) (Res : Op → Type) (Call Choice World : Type) where
  world : World
  log : List (Event Op Res Call Choice World)

/-- A started call: how long the history was when it started, what is left to
    run, whether it was killed, and how long the history was when it ended. -/
structure Thread (Op : Type) (Res : Op → Type) (Err Out Call : Type) where
  call : Call
  born : Nat
  prog : Prog Op Res Err Out
  alive : Bool
  ended : Option Nat

/-- A pool: the shared state and the threads, a thread's id being its place. -/
structure Config (Op : Type) (Res : Op → Type) (Err Out Call Choice World : Type) where
  state : State Op Res Call Choice World
  threads : List (Thread Op Res Err Out Call)

/-- What a pool consists of: the meaning of an operation performed by a given
    thread, the program of a call, the environment's own moves, and what
    happens to the world when a thread is killed. -/
structure System (Op : Type) (Res : Op → Type) (Err Out Call Env Choice World : Type) where
  exec : Nat → (op : Op) → Choice → World → Option (Res op × World)
  body : Call → Prog Op Res Err Out
  env : Env → World → Option World
  reap : Nat → World → World

/-- One action of a pool. -/
inductive Action (Call Env Choice : Type) : Type
  | spawn (call : Call)
  | run (tid : Nat) (ch : Choice)
  | env (e : Env)
  | kill (tid : Nat)

/-- Which calls may start, and which operations may be performed, in a state. -/
structure Policy (Op : Type) (Res : Op → Type) (Call Choice World : Type) where
  mayStart : State Op Res Call Choice World → Call → Prop
  mayDo : State Op Res Call Choice World → Nat → Call → Op → Choice → Prop

variable {Op : Type} {Res : Op → Type} {Err Out Call Env Choice World : Type}

namespace State

/-- The state after thread `i` performed an operation. -/
def push (st : State Op Res Call Choice World) (i : Nat) (call : Call) (op : Op)
    (ch : Choice) (r : Res op) (w : World) : State Op Res Call Choice World :=
  { world := w, log := ⟨st.log.length, i, call, op, ch, r, w⟩ :: st.log }

/-- The events of thread `i`, newest first. -/
def mine (st : State Op Res Call Choice World) (i : Nat) :
    List (Event Op Res Call Choice World) :=
  st.log.filter (fun e => e.tid == i)

/-- Every event's position is below the length of the history. -/
def SeqLt (st : State Op Res Call Choice World) : Prop :=
  ∀ e ∈ st.log, e.seq < st.log.length

/-- The history can be that of a run in which thread `i` runs `call`. -/
structure Fits (st : State Op Res Call Choice World) (i : Nat) (call : Call) : Prop where
  seqLt : st.SeqLt
  own : ∀ e ∈ st.log, e.tid = i → e.call = call

@[simp] theorem push_world (st : State Op Res Call Choice World) (i : Nat) (call : Call)
    (op : Op) (ch : Choice) (r : Res op) (w : World) :
    (st.push i call op ch r w).world = w := rfl

@[simp] theorem push_log (st : State Op Res Call Choice World) (i : Nat) (call : Call)
    (op : Op) (ch : Choice) (r : Res op) (w : World) :
    (st.push i call op ch r w).log = ⟨st.log.length, i, call, op, ch, r, w⟩ :: st.log := rfl

@[simp] theorem push_mine (st : State Op Res Call Choice World) (i : Nat) (call : Call)
    (op : Op) (ch : Choice) (r : Res op) (w : World) :
    (st.push i call op ch r w).mine i = ⟨st.log.length, i, call, op, ch, r, w⟩ :: st.mine i := by
  simp only [mine, push_log, List.filter_cons, beq_self_eq_true, if_true]

theorem push_mine_other (st : State Op Res Call Choice World) (i j : Nat) (call : Call)
    (op : Op) (ch : Choice) (r : Res op) (w : World) (h : i ≠ j) :
    (st.push i call op ch r w).mine j = st.mine j := by
  simp only [mine, push_log, List.filter_cons, beq_iff_eq, if_neg h]

theorem mem_mine {st : State Op Res Call Choice World} {i : Nat}
    {e : Event Op Res Call Choice World} : e ∈ st.mine i ↔ e ∈ st.log ∧ e.tid = i := by
  simp only [mine, List.mem_filter, beq_iff_eq]

theorem push_seqLt {st : State Op Res Call Choice World} (h : st.SeqLt) (i : Nat)
    (call : Call) (op : Op) (ch : Choice) (r : Res op) (w : World) :
    (st.push i call op ch r w).SeqLt := by
  intro e he
  simp only [push_log, List.mem_cons, List.length_cons] at he ⊢
  rcases he with rfl | he
  · exact Nat.lt_succ_self _
  · exact Nat.lt_succ_of_lt (h e he)

end State

namespace Thread

/-- What a thread ended with, if it has ended. -/
def result (t : Thread Op Res Err Out Call) : Option (Except Err Out) :=
  t.prog.result

/-- A freshly started call. -/
def start (S : System Op Res Err Out Call Env Choice World) (n : Nat) (call : Call) :
    Thread Op Res Err Out Call :=
  { call := call, born := n, prog := S.body call, alive := true,
    ended := if (S.body call).finished then some n else none }

/-- The thread after its program moved to `p`, the history then being `n` long. -/
def goOn (t : Thread Op Res Err Out Call) (n : Nat) (p : Prog Op Res Err Out) :
    Thread Op Res Err Out Call :=
  { t with prog := p, ended := if p.finished then some n else none }

end Thread

namespace Config

/-- A pool with no threads and no history. -/
def init (w : World) : Config Op Res Err Out Call Choice World :=
  { state := { world := w, log := [] }, threads := [] }

/-- The pool after thread `i` performed an operation and went on with `p`. -/
def advance (c : Config Op Res Err Out Call Choice World) (i : Nat)
    (t : Thread Op Res Err Out Call) (op : Op) (ch : Choice) (r : Res op) (w : World)
    (p : Prog Op Res Err Out) : Config Op Res Err Out Call Choice World :=
  { state := c.state.push i t.call op ch r w,
    threads := c.threads.set i (t.goOn (c.state.log.length + 1) p) }

/-- One action of the pool, if it is enabled. -/
def step (S : System Op Res Err Out Call Env Choice World)
    (c : Config Op Res Err Out Call Choice World) :
    Action Call Env Choice → Option (Config Op Res Err Out Call Choice World)
  | .spawn call =>
      some { c with threads := c.threads ++ [Thread.start S c.state.log.length call] }
  | .run i ch =>
      match c.threads[i]? with
      | none => none
      | some t =>
          match t.alive, t.prog with
          | true, .await op k =>
              match S.exec i op ch c.state.world with
              | none => none
              | some (r, w) => some (c.advance i t op ch r w (k r))
          | _, _ => none
  | .env e =>
      match S.env e c.state.world with
      | none => none
      | some w => some { c with state := { c.state with world := w } }
  | .kill i =>
      match c.threads[i]? with
      | none => none
      | some t =>
          if t.prog.finished then none
          else some
            { state := { c.state with world := S.reap i c.state.world },
              threads := c.threads.set i { t with alive := false } }

/-- Execute a list of actions in order, each passing a test where it is taken. -/
def runAll (S : System Op Res Err Out Call Env Choice World)
    (ok : Config Op Res Err Out Call Choice World → Action Call Env Choice → Bool) :
    Config Op Res Err Out Call Choice World → List (Action Call Env Choice) →
      Option (Config Op Res Err Out Call Choice World)
  | c, [] => some c
  | c, a :: as =>
      if ok c a then
        match c.step S a with
        | none => none
        | some c' => runAll S ok c' as
      else none

/-- What thread `i` ended with, if it was started and has ended. -/
def resultOf (c : Config Op Res Err Out Call Choice World) (i : Nat) : Option (Except Err Out) :=
  (c.threads[i]?).bind Thread.result

end Config

/-- A policy permits an action: the call may start, or the operation the
    thread awaits may be performed. -/
def Policy.permits (π : Policy Op Res Call Choice World)
    (c : Config Op Res Err Out Call Choice World) : Action Call Env Choice → Prop
  | .spawn call => π.mayStart c.state call
  | .run i ch => ∀ t op k, c.threads[i]? = some t → t.prog = .await op k →
      π.mayDo c.state i t.call op ch
  | .env _ => True
  | .kill _ => True

/-- The policy that permits everything. -/
def Policy.free : Policy Op Res Call Choice World :=
  { mayStart := fun _ _ => True, mayDo := fun _ _ _ _ _ => True }

/-- The configurations a pool reaches from world `w₀` under a policy. -/
inductive Run (S : System Op Res Err Out Call Env Choice World)
    (π : Policy Op Res Call Choice World) (w₀ : World) :
    Config Op Res Err Out Call Choice World → Prop
  | start : Run S π w₀ (Config.init w₀)
  | step (c c' : Config Op Res Err Out Call Choice World) (a : Action Call Env Choice) :
      Run S π w₀ c → π.permits c a → c.step S a = some c' → Run S π w₀ c'

section Steps

variable {S : System Op Res Err Out Call Env Choice World}
  {c c' : Config Op Res Err Out Call Choice World}

/-- A thread's step: the thread is alive and awaits an operation that is
    enabled, and the pool moves by exactly that operation. -/
theorem step_run_inv {i : Nat} {ch : Choice} (h : c.step S (.run i ch) = some c') :
    ∃ t op k r w, c.threads[i]? = some t ∧ t.alive = true ∧ t.prog = .await op k ∧
      S.exec i op ch c.state.world = some (r, w) ∧ c' = c.advance i t op ch r w (k r) := by
  simp only [Config.step] at h
  rcases ht : c.threads[i]? with _ | t
  · simp only [ht, reduceCtorEq] at h
  · simp only [ht] at h
    rcases ha : t.alive with _ | _
    · simp only [ha, reduceCtorEq] at h
    · rcases hp : t.prog with a | e | ⟨op, k⟩
      · simp only [ha, hp, reduceCtorEq] at h
      · simp only [ha, hp, reduceCtorEq] at h
      · simp only [ha, hp] at h
        rcases hx : S.exec i op ch c.state.world with _ | ⟨r, w⟩
        · simp only [hx, reduceCtorEq] at h
        · simp only [hx, Option.some.injEq] at h
          exact ⟨t, op, k, r, w, rfl, ha, hp, hx, h.symm⟩

theorem step_env_inv {e : Env} (h : c.step S (.env e) = some c') :
    ∃ w, S.env e c.state.world = some w ∧ c' = { c with state := { c.state with world := w } } := by
  simp only [Config.step] at h
  rcases hx : S.env e c.state.world with _ | w
  · simp only [hx, reduceCtorEq] at h
  · simp only [hx, Option.some.injEq] at h
    exact ⟨w, rfl, h.symm⟩

theorem step_kill_inv {i : Nat} (h : c.step S (.kill i) = some c') :
    ∃ t, c.threads[i]? = some t ∧ t.prog.finished = false ∧
      c' = { state := { c.state with world := S.reap i c.state.world },
             threads := c.threads.set i { t with alive := false } } := by
  simp only [Config.step] at h
  rcases ht : c.threads[i]? with _ | t
  · simp only [ht, reduceCtorEq] at h
  · simp only [ht] at h
    cases hf : t.prog.finished with
    | true => simp only [hf, if_true, reduceCtorEq] at h
    | false =>
        simp only [hf, Bool.false_eq_true, if_false, Option.some.injEq] at h
        exact ⟨t, rfl, hf, h.symm⟩

end Steps

section Runs

variable {S : System Op Res Err Out Call Env Choice World}
  {π : Policy Op Res Call Choice World} {w₀ : World}

/-- Executing a list of actions extends a run, when the test they pass is one
    the policy agrees with. -/
theorem run_of_runAll
    {ok : Config Op Res Err Out Call Choice World → Action Call Env Choice → Bool}
    (hok : ∀ c a, ok c a = true → π.permits c a)
    {c c' : Config Op Res Err Out Call Choice World} {acts : List (Action Call Env Choice)}
    (hc : Run S π w₀ c) (h : c.runAll S ok acts = some c') : Run S π w₀ c' := by
  induction acts generalizing c with
  | nil =>
      simp only [Config.runAll, Option.some.injEq] at h
      rw [← h]
      exact hc
  | cons a as ih =>
      simp only [Config.runAll] at h
      by_cases ha : ok c a = true
      · rw [if_pos ha] at h
        -- An action that is not enabled ends the list without a configuration.
        rcases hs : c.step S a with _ | d
        · simp only [hs, reduceCtorEq] at h
        · simp only [hs] at h
          exact ih (Run.step c d a hc (hok c a ha) hs) h
      · rw [if_neg ha] at h
        exact absurd h (by simp only [reduceCtorEq, not_false_eq_true])

/-- An executed list of actions, as a run to a configuration that passes a test. -/
theorem exists_run_of (S : System Op Res Err Out Call Env Choice World)
    (π : Policy Op Res Call Choice World) (w₀ : World)
    (ok : Config Op Res Err Out Call Choice World → Action Call Env Choice → Bool)
    (hok : ∀ c a, ok c a = true → π.permits c a) (acts : List (Action Call Env Choice))
    (p : Config Op Res Err Out Call Choice World → Bool)
    (h : ((Config.init w₀).runAll S ok acts).any p = true) :
    ∃ c, Run S π w₀ c ∧ p c = true := by
  rcases hx : (Config.init w₀).runAll S ok acts with _ | c
  · simp only [hx, Option.any_none, Bool.false_eq_true] at h
  · simp only [hx, Option.any_some] at h
    exact ⟨c, run_of_runAll hok Run.start hx, h⟩

/-- The same for the policy that permits everything. -/
theorem exists_run (S : System Op Res Err Out Call Env Choice World) (w₀ : World)
    (acts : List (Action Call Env Choice)) (p : Config Op Res Err Out Call Choice World → Bool)
    (h : ((Config.init w₀).runAll S (fun _ _ => true) acts).any p = true) :
    ∃ c, Run S Policy.free w₀ c ∧ p c = true := by
  refine exists_run_of S Policy.free w₀ (fun _ _ => true) (fun c a _ => ?_) acts p h
  cases a <;> simp only [Policy.permits, Policy.free, implies_true]

/-- A run under a policy is a run under any policy that permits as much in
    the states the run visits. -/
theorem Run.mono {π' : Policy Op Res Call Choice World}
    {c : Config Op Res Err Out Call Choice World} (hc : Run S π w₀ c)
    (hstart : ∀ d : Config Op Res Err Out Call Choice World, Run S π w₀ d →
      ∀ call, π.mayStart d.state call → π'.mayStart d.state call)
    (hdo : ∀ d : Config Op Res Err Out Call Choice World, Run S π w₀ d →
      ∀ i t op ch, d.threads[i]? = some t → π.mayDo d.state i t.call op ch →
        π'.mayDo d.state i t.call op ch) :
    Run S π' w₀ c := by
  induction hc with
  | start => exact Run.start
  | step d d' a hd hp hs ih =>
      refine Run.step d d' a ih ?_ hs
      cases a with
      | spawn call => exact hstart d hd call hp
      | run i ch => exact fun t op k ht hk => hdo d hd i t op ch ht (hp t op k ht hk)
      | env e => trivial
      | kill i => trivial

/-- An invariant of the state and its history holds in every reachable
    configuration if the operations, the environment and a death keep it. -/
theorem run_state {I : State Op Res Call Choice World → Prop}
    (hstart : I { world := w₀, log := [] })
    (hexec : ∀ st i call op ch r w, st.SeqLt → I st → S.exec i op ch st.world = some (r, w) →
      I (st.push i call op ch r w))
    (henv : ∀ st e w, I st → S.env e st.world = some w → I { st with world := w })
    (hreap : ∀ st i, I st → I { st with world := S.reap i st.world })
    {c : Config Op Res Err Out Call Choice World} (hc : Run S π w₀ c) :
    c.state.SeqLt ∧ I c.state := by
  induction hc with
  | start => exact ⟨fun _ he => (by cases he), hstart⟩
  | step d d' a _ _ hs ih =>
      rcases ih with ⟨hlt, hi⟩
      cases a with
      | spawn call =>
          simp only [Config.step, Option.some.injEq] at hs
          rw [← hs]
          exact ⟨hlt, hi⟩
      | run i ch =>
          -- Only an operation that is run is logged.
          rcases step_run_inv hs with ⟨t, op, k, r, w, _, _, _, hx, rfl⟩
          exact ⟨State.push_seqLt hlt i t.call op ch r w,
            hexec d.state i t.call op ch r w hlt hi hx⟩
      | env e =>
          rcases step_env_inv hs with ⟨w, hw, rfl⟩
          exact ⟨hlt, henv d.state e w hi hw⟩
      | kill i =>
          -- The log stays, and the world lets go of what the thread held.
          rcases step_kill_inv hs with ⟨_, _, _, rfl⟩
          exact ⟨hlt, hreap d.state i hi⟩

/-- Positions in the history stay below its length. -/
theorem run_seq_lt {c : Config Op Res Err Out Call Choice World} (hc : Run S π w₀ c) :
    c.state.SeqLt :=
  (run_state (I := fun _ => True) trivial (fun _ _ _ _ _ _ _ _ _ _ => trivial)
    (fun _ _ _ _ _ => trivial) (fun _ _ _ => trivial) hc).1

/-- Every event belongs to a thread that was started, with the call that
    thread runs. -/
theorem run_event_thread {c : Config Op Res Err Out Call Choice World} (hc : Run S π w₀ c) :
    ∀ e ∈ c.state.log, ∃ t, c.threads[e.tid]? = some t ∧ t.call = e.call := by
  induction hc with
  | start => intro e he; cases he
  | step d d' a _ _ hs ih =>
      -- Replacing a thread by one with the same call keeps every event's owner.
      have hset : ∀ (i : Nat) (t u : Thread Op Res Err Out Call), d.threads[i]? = some t →
          u.call = t.call → ∀ e : Event Op Res Call Choice World,
          (∃ v, d.threads[e.tid]? = some v ∧ v.call = e.call) →
          ∃ v, (d.threads.set i u)[e.tid]? = some v ∧ v.call = e.call := by
        intro i t u ht hu e hv
        rcases hv with ⟨v, hv, hcall⟩
        by_cases hie : i = e.tid
        · subst hie
          rw [hv, Option.some.injEq] at ht
          refine ⟨u, ?_, by rw [hu, ← ht]; exact hcall⟩
          rw [List.getElem?_set_self (List.getElem?_eq_some_iff.mp hv).1]
        · exact ⟨v, by rw [List.getElem?_set_ne hie]; exact hv, hcall⟩
      cases a with
      | spawn call =>
          simp only [Config.step, Option.some.injEq] at hs
          rw [← hs]
          intro e he
          rcases ih e he with ⟨t, ht, hcall⟩
          exact ⟨t, by rw [List.getElem?_append_left (List.getElem?_eq_some_iff.mp ht).1]; exact ht,
            hcall⟩
      | run i ch =>
          rcases step_run_inv hs with ⟨t, op, k, r, w, ht, _, _, _, rfl⟩
          intro e he
          simp only [Config.advance, State.push_log, List.mem_cons] at he
          rcases he with rfl | he
          · refine ⟨_, List.getElem?_set_self (List.getElem?_eq_some_iff.mp ht).1, rfl⟩
          · exact hset i t (t.goOn (d.state.log.length + 1) (k r)) ht rfl e (ih e he)
      | env e =>
          rcases step_env_inv hs with ⟨w, _, rfl⟩
          exact ih
      | kill i =>
          rcases step_kill_inv hs with ⟨t, ht, _, rfl⟩
          exact fun e he => hset i t { t with alive := false } ht rfl e (ih e he)

theorem run_fits {c : Config Op Res Err Out Call Choice World} (hc : Run S π w₀ c) {i : Nat}
    {t : Thread Op Res Err Out Call} (ht : c.threads[i]? = some t) : c.state.Fits i t.call := by
  refine ⟨run_seq_lt hc, fun e he htid => ?_⟩
  rcases run_event_thread hc e he with ⟨u, hu, hcall⟩
  rw [htid, ht, Option.some.injEq] at hu
  rw [← hcall, hu]

/-- A property of threads holds of every thread of a run if it holds of the
    threads that start, and no action takes it back. -/
theorem run_threads {p : World → Thread Op Res Err Out Call → Prop}
    (hstart : ∀ st n call, π.mayStart st call → p st.world (Thread.start S n call))
    (hgoOn : ∀ w t n op k r, t.prog = .await op k → p w t → p w (t.goOn n (k r)))
    (hdead : ∀ w t, p w t → p w { t with alive := false })
    (hexec : ∀ i op ch w r w' t, S.exec i op ch w = some (r, w') → p w t → p w' t)
    (henv : ∀ e w w' t, S.env e w = some w' → p w t → p w' t)
    (hreap : ∀ i w t, p w t → p (S.reap i w) t)
    {c : Config Op Res Err Out Call Choice World} (hc : Run S π w₀ c) :
    ∀ t ∈ c.threads, p c.state.world t := by
  induction hc with
  | start => exact fun t ht => by cases ht
  | step d d' a _ hp hs ih =>
      cases a with
      | spawn call =>
          simp only [Config.step, Option.some.injEq] at hs
          rw [← hs]
          intro t ht
          rcases List.mem_append.mp ht with ht | ht
          · exact ih t ht
          · rw [List.mem_singleton.mp ht]
            exact hstart d.state _ call hp
      | run i ch =>
          rcases step_run_inv hs with ⟨t, op, k, r, w, ht, _, hprog, hx, rfl⟩
          intro u hu
          -- A thread that does not move only sees the world change.
          refine hexec i op ch _ r w u hx ?_
          rcases List.mem_or_eq_of_mem_set hu with hu | rfl
          · exact ih u hu
          · exact hgoOn _ t _ op k r hprog (ih t (List.mem_of_getElem? ht))
      | env e =>
          rcases step_env_inv hs with ⟨w, hw, rfl⟩
          exact fun t ht => henv e _ w t hw (ih t ht)
      | kill i =>
          rcases step_kill_inv hs with ⟨t, ht, _, rfl⟩
          intro u hu
          refine hreap i _ u ?_
          rcases List.mem_or_eq_of_mem_set hu with hu | rfl
          · exact ih u hu
          · exact hdead _ t (ih t (List.mem_of_getElem? ht))

/-- What a policy asks of a call that starts holds of every started call, if
    the world cannot take it back. -/
theorem run_calls {q : World → Call → Prop}
    (hstart : ∀ st call, π.mayStart st call → q st.world call)
    (hexec : ∀ i op ch w r w' call, S.exec i op ch w = some (r, w') → q w call → q w' call)
    (henv : ∀ e w w' call, S.env e w = some w' → q w call → q w' call)
    (hreap : ∀ i w call, q w call → q (S.reap i w) call)
    {c : Config Op Res Err Out Call Choice World} (hc : Run S π w₀ c) (i : Nat)
    (t : Thread Op Res Err Out Call) (ht : c.threads[i]? = some t) : q c.state.world t.call :=
  run_threads (p := fun w t => q w t.call) (fun st _ call h => hstart st call h)
    (fun _ _ _ _ _ _ _ h => h) (fun _ _ h => h)
    (fun i op ch w r w' t => hexec i op ch w r w' t.call) (fun e w w' t => henv e w w' t.call)
    (fun i w t => hreap i w t.call) hc t (List.mem_of_getElem? ht)

/-- What is left of a thread performs only what its call performs. -/
theorem run_only {p : Call → Op → Prop} (hbody : ∀ call, (S.body call).Only (p call))
    {c : Config Op Res Err Out Call Choice World} (hc : Run S π w₀ c) (i : Nat)
    (t : Thread Op Res Err Out Call) (ht : c.threads[i]? = some t) : t.prog.Only (p t.call) := by
  refine run_threads (p := fun _ t => t.prog.Only (p t.call)) (fun _ _ call _ => hbody call)
    (fun w t n op k r hprog honly => ?_) (fun _ _ h => h) (fun _ _ _ _ _ _ _ _ h => h)
    (fun _ _ _ _ _ h => h) (fun _ _ _ h => h) hc t (List.mem_of_getElem? ht)
  rw [hprog] at honly
  exact honly.2 r

end Runs

end Async
