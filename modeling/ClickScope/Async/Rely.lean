import ClickScope.Async.Pool

/-!
# A Rule for Interleaved Programs

How an invariant of a pool is proved one program at a time.

A `Protocol` splits the argument in two. The invariant `Inv` speaks of the
shared state; `Pre` says what a call owes when it performs an operation.
`Sound.exec` asks, once per operation, that an operation performed with its
`Pre` keeps `Inv`. `Sound.body` asks, once per call, that its program meets
`Pre` at every operation it reaches. Neither mentions an interleaving.

Between two of its operations a thread may assume `Later`: the history only
grew, none of the new events are its own, and the part of the world that `loc`
assigns to it is as it was. Whatever a thread wants to remember across an
await it therefore reads off its own events (`State.mine`) or its own part of
the world. `Sat` is that reasoning as a recursion over the program, and
`run_sound` is the induction over the run that makes it hold in every
reachable configuration.

`sat_bind` and `sat_tryCatch` let a proof about a function be used where the
function is called.

## Main definitions

* `Protocol`: An invariant, the obligations of calls, and their results.
* `Later`: What a thread may assume about others between its operations.
* `Sat`: A program meets its obligations from a state on.
* `ThenSat`, `CatchSat`: What a program in a sequence or under a handler ends
  with.
* `Sound`: The proof obligations of a protocol.
* `ThreadOk`: What the protocol says about one thread of a configuration.

## Theorems

* `later_refl`, `later_trans`: `Later` is a preorder.
* `sat_mono`: Weakening what a program ends with.
* `sat_bind`, `sat_map`: A sequence, from its first program's proof.
* `sat_tryCatch`: A handler, from the handled program's proof.
* `sat_keeps`, `sat_of_only`: A program whose operations owe nothing in
  particular.
* `run_sound`: A sound protocol holds in every reachable configuration.
* `run_inv`: The invariant of a sound protocol.
* `run_result`: What an ended thread of a sound protocol ended with.
-/

namespace Async

variable {Op : Type} {Res : Op → Type} {Err Out Call Env Choice World L α β : Type}

/-- An invariant of the shared state, what a call owes when it performs an
    operation, and what it ends with: `Post i call st₀ r st` relates the state
    it started in to its result and the state it ended in. `loc i` is the part
    of the world that belongs to thread `i` alone. -/
structure Protocol (Op : Type) (Res : Op → Type) (Err Out Call Choice World L : Type) extends
    Policy Op Res Call Choice World where
  loc : Nat → World → L
  Inv : State Op Res Call Choice World → Prop
  Pre : State Op Res Call Choice World → Nat → Call → Op → Prop
  Post : Nat → Call → State Op Res Call Choice World → Except Err Out →
    State Op Res Call Choice World → Prop

/-- What thread `i` may assume has happened between two of its operations. -/
structure Later (loc : Nat → World → L) (i : Nat) (st st' : State Op Res Call Choice World) :
    Prop where
  log_le : st.log <:+ st'.log
  mine_eq : st'.mine i = st.mine i
  loc_eq : loc i st'.world = loc i st.world

theorem later_refl (loc : Nat → World → L) (i : Nat) (st : State Op Res Call Choice World) :
    Later loc i st st :=
  ⟨List.suffix_refl _, rfl, rfl⟩

theorem later_trans {loc : Nat → World → L} {i : Nat} {a b c : State Op Res Call Choice World}
    (h1 : Later loc i a b) (h2 : Later loc i b c) : Later loc i a c :=
  ⟨h1.log_le.trans h2.log_le, h2.mine_eq.trans h1.mine_eq, h2.loc_eq.trans h1.loc_eq⟩

/-- An event once in the history stays in it. -/
theorem Later.mem {loc : Nat → World → L} {i : Nat} {a b : State Op Res Call Choice World}
    (h : Later loc i a b) {e : Event Op Res Call Choice World} (he : e ∈ a.log) : e ∈ b.log :=
  h.log_le.subset he

/-- From `st` on, the program meets its obligations at every operation it
    reaches, whatever the other threads do in between, and ends in `Post`. -/
def Sat (S : System Op Res Err Out Call Env Choice World)
    (Q : Protocol Op Res Err Out Call Choice World L) (i : Nat) (call : Call)
    (Post : Except Err α → State Op Res Call Choice World → Prop) :
    Prog Op Res Err α → State Op Res Call Choice World → Prop
  | .ret a, st => Post (.ok a) st
  | .throw e, st => Post (.error e) st
  | .await op k, st => ∀ st₁, Later Q.loc i st st₁ → Q.Inv st₁ → st₁.Fits i call →
      Q.Pre st₁ i call op ∧
        ∀ ch r w, Q.mayDo st₁ i call op ch → S.exec i op ch st₁.world = some (r, w) →
          Sat S Q i call Post (k r) (st₁.push i call op ch r w)

section Rules

variable {S : System Op Res Err Out Call Env Choice World}
  {Q : Protocol Op Res Err Out Call Choice World L} {i : Nat} {call : Call}

@[simp] theorem sat_ret (Post : Except Err α → State Op Res Call Choice World → Prop) (a : α)
    (st : State Op Res Call Choice World) :
    Sat S Q i call Post (.ret a) st ↔ Post (.ok a) st := Iff.rfl

@[simp] theorem sat_throw (Post : Except Err α → State Op Res Call Choice World → Prop) (e : Err)
    (st : State Op Res Call Choice World) :
    Sat S Q i call Post (.throw e) st ↔ Post (.error e) st := Iff.rfl

theorem sat_mono {Post Post' : Except Err α → State Op Res Call Choice World → Prop}
    (hpost : ∀ r st, Post r st → Post' r st) :
    ∀ (p : Prog Op Res Err α) (st : State Op Res Call Choice World),
      Sat S Q i call Post p st → Sat S Q i call Post' p st := by
  intro p
  induction p with
  | ret a => exact fun st h => hpost _ _ h
  | throw e => exact fun st h => hpost _ _ h
  | await op k ih =>
      intro st h st₁ hl hi hs
      rcases h st₁ hl hi hs with ⟨hpre, hk⟩
      exact ⟨hpre, fun ch r w hd hx => ih r _ (hk ch r w hd hx)⟩

/-- What the first program of a sequence has to end with: a state the second
    program can take over in, or the throw of the whole. -/
def ThenSat (S : System Op Res Err Out Call Env Choice World)
    (Q : Protocol Op Res Err Out Call Choice World L) (i : Nat) (call : Call)
    (Post : Except Err β → State Op Res Call Choice World → Prop) (f : α → Prog Op Res Err β) :
    Except Err α → State Op Res Call Choice World → Prop
  | .ok a, st => Sat S Q i call Post (f a) st
  | .error e, st => Post (.error e) st

/-- What a handled program has to end with: the result of the whole, or a
    throw in a state the handler can take over in. -/
def CatchSat (S : System Op Res Err Out Call Env Choice World)
    (Q : Protocol Op Res Err Out Call Choice World L) (i : Nat) (call : Call)
    (Post : Except Err α → State Op Res Call Choice World → Prop) (h : Err → Prog Op Res Err α) :
    Except Err α → State Op Res Call Choice World → Prop
  | .ok a, st => Post (.ok a) st
  | .error e, st => Sat S Q i call Post (h e) st

@[simp] theorem thenSat_ok (Post : Except Err β → State Op Res Call Choice World → Prop)
    (f : α → Prog Op Res Err β) (a : α) (st : State Op Res Call Choice World) :
    ThenSat S Q i call Post f (.ok a) st ↔ Sat S Q i call Post (f a) st := Iff.rfl

@[simp] theorem thenSat_error (Post : Except Err β → State Op Res Call Choice World → Prop)
    (f : α → Prog Op Res Err β) (e : Err) (st : State Op Res Call Choice World) :
    ThenSat S Q i call Post f (.error e) st ↔ Post (.error e) st := Iff.rfl

@[simp] theorem catchSat_ok (Post : Except Err α → State Op Res Call Choice World → Prop)
    (h : Err → Prog Op Res Err α) (a : α) (st : State Op Res Call Choice World) :
    CatchSat S Q i call Post h (.ok a) st ↔ Post (.ok a) st := Iff.rfl

@[simp] theorem catchSat_error (Post : Except Err α → State Op Res Call Choice World → Prop)
    (h : Err → Prog Op Res Err α) (e : Err) (st : State Op Res Call Choice World) :
    CatchSat S Q i call Post h (.error e) st ↔ Sat S Q i call Post (h e) st := Iff.rfl

/-- A sequence is proved from its first program, whose postcondition is that
    the second program can take over. -/
theorem sat_bind {Post : Except Err β → State Op Res Call Choice World → Prop}
    {f : α → Prog Op Res Err β} :
    ∀ (p : Prog Op Res Err α) (st : State Op Res Call Choice World),
      Sat S Q i call (ThenSat S Q i call Post f) p st → Sat S Q i call Post (p.bind f) st := by
  intro p
  induction p with
  | ret a => exact fun st h => h
  | throw e => exact fun st h => h
  | await op k ih =>
      intro st h st₁ hl hi hs
      rcases h st₁ hl hi hs with ⟨hpre, hk⟩
      exact ⟨hpre, fun ch r w hd hx => ih r _ (hk ch r w hd hx)⟩

/-- Renaming what a program returns renames it in its postcondition. -/
theorem sat_map {Post : Except Err β → State Op Res Call Choice World → Prop} {f : α → β}
    {p : Prog Op Res Err α} {st : State Op Res Call Choice World}
    (h : Sat S Q i call (fun r st' => Post (r.map f) st') p st) :
    Sat S Q i call Post (p.bind (fun a => .ret (f a))) st := by
  refine sat_bind p st (sat_mono (fun r st' hr => ?_) p st h)
  cases r <;> exact hr

/-- A handled program is proved from the program, whose postcondition on a
    throw is that the handler can take over. -/
theorem sat_tryCatch {Post : Except Err α → State Op Res Call Choice World → Prop}
    {h : Err → Prog Op Res Err α} :
    ∀ (p : Prog Op Res Err α) (st : State Op Res Call Choice World),
      Sat S Q i call (CatchSat S Q i call Post h) p st →
      Sat S Q i call Post (p.tryCatch h) st := by
  intro p
  induction p with
  | ret a => exact fun st h => h
  | throw e => exact fun st h => h
  | await op k ih =>
      intro st h st₁ hl hi hs
      rcases h st₁ hl hi hs with ⟨hpre, hk⟩
      exact ⟨hpre, fun ch r w hd hx => ih r _ (hk ch r w hd hx)⟩

/-- A program whose operations owe nothing that depends on what happened
    before ends with whatever neither the others nor its own operations undo. -/
theorem sat_keeps {Post : Except Err α → State Op Res Call Choice World → Prop} {p : Op → Prop}
    {F : State Op Res Call Choice World → Prop}
    (hlater : ∀ st st' : State Op Res Call Choice World, Later Q.loc i st st' → F st → F st')
    (hpush : ∀ (st : State Op Res Call Choice World) op ch (r : Res op) w, p op → F st →
      F (st.push i call op ch r w))
    (hpre : ∀ st op, Q.Inv st → F st → p op → Q.Pre st i call op)
    (hpost : ∀ r st, F st → Post r st) :
    ∀ (x : Prog Op Res Err α) (st : State Op Res Call Choice World),
      x.Only p → F st → Sat S Q i call Post x st := by
  intro x
  induction x with
  | ret a => exact fun st _ hF => hpost _ st hF
  | throw e => exact fun st _ hF => hpost _ st hF
  | await op k ih =>
      intro st h hF st₁ hl hi _
      have hF₁ := hlater st st₁ hl hF
      exact ⟨hpre st₁ op hi hF₁ h.1, fun ch r w _ _ => ih r _ (h.2 r) (hpush st₁ op ch r w h.1 hF₁)⟩

/-- The same with nothing to remember. -/
theorem sat_of_only {Post : Except Err α → State Op Res Call Choice World → Prop} {p : Op → Prop}
    (hpre : ∀ st op, Q.Inv st → p op → Q.Pre st i call op) (hpost : ∀ r st, Post r st)
    (x : Prog Op Res Err α) (st : State Op Res Call Choice World) (h : x.Only p) :
    Sat S Q i call Post x st :=
  sat_keeps (F := fun _ => True) (fun _ _ _ _ => trivial) (fun _ _ _ _ _ _ _ => trivial)
    (fun st op hi _ hop => hpre st op hi hop) (fun r st _ => hpost r st) x st h trivial

end Rules

/-- What has to be shown for a protocol: the environment, a kill and every
    operation performed with its `Pre` keep the invariant; nobody touches
    another thread's part of the world; and every call that may start has a
    program that meets its obligations. -/
structure Sound (S : System Op Res Err Out Call Env Choice World)
    (Q : Protocol Op Res Err Out Call Choice World L) : Prop where
  env : ∀ st e w, Q.Inv st → S.env e st.world = some w → Q.Inv { st with world := w }
  env_loc : ∀ i e w w', S.env e w = some w' → Q.loc i w' = Q.loc i w
  reap : ∀ st i, Q.Inv st → Q.Inv { st with world := S.reap i st.world }
  reap_loc : ∀ i j w, i ≠ j → Q.loc j (S.reap i w) = Q.loc j w
  exec : ∀ st i call op ch r w, Q.Inv st → st.Fits i call → Q.Pre st i call op →
    Q.mayDo st i call op ch → S.exec i op ch st.world = some (r, w) →
    Q.Inv (st.push i call op ch r w)
  exec_loc : ∀ i j op ch w r w', i ≠ j → S.exec i op ch w = some (r, w') → Q.loc j w' = Q.loc j w
  body : ∀ st i call, Q.Inv st → st.SeqLt → st.mine i = [] → Q.mayStart st call →
    Sat S Q i call (Q.Post i call st) (S.body call) st

/-- What a protocol says about thread `i`: it started in a state of the run,
    and either has ended in its `Post`, in a state of the run, or, while it is
    alive, still meets its obligations. -/
def ThreadOk (S : System Op Res Err Out Call Env Choice World)
    (Q : Protocol Op Res Err Out Call Choice World L) (st : State Op Res Call Choice World)
    (i : Nat) (t : Thread Op Res Err Out Call) : Prop :=
  ∃ st₀, st₀.log.length = t.born ∧ st₀.log <:+ st.log ∧
    match t.result with
    | some r => ∃ st₁, t.ended = some st₁.log.length ∧ st₀.log <:+ st₁.log ∧
        st₁.log <:+ st.log ∧ st₁.mine i = st.mine i ∧ Q.Post i t.call st₀ r st₁
    | none => t.alive = true →
        ∃ st₁, Later Q.loc i st₁ st ∧ st₀.log <:+ st₁.log ∧
          Sat S Q i t.call (Q.Post i t.call st₀) t.prog st₁

section Soundness

variable {S : System Op Res Err Out Call Env Choice World}
  {Q : Protocol Op Res Err Out Call Choice World L} {w₀ : World}

/-- A thread that does not move stays as good as it was. -/
theorem threadOk_later {st st' : State Op Res Call Choice World} {i : Nat}
    {t : Thread Op Res Err Out Call} (h : ThreadOk S Q st i t) (hl : Later Q.loc i st st') :
    ThreadOk S Q st' i t := by
  rcases h with ⟨st₀, hborn, hle, hrest⟩
  refine ⟨st₀, hborn, hle.trans hl.log_le, ?_⟩
  cases hr : t.result with
  | some r =>
      simp only [hr] at hrest ⊢
      rcases hrest with ⟨st₁, hend, h01, h1, hmine, hpost⟩
      exact ⟨st₁, hend, h01, h1.trans hl.log_le, hmine.trans hl.mine_eq.symm, hpost⟩
  | none =>
      simp only [hr] at hrest ⊢
      intro ha
      rcases hrest ha with ⟨st₁, hl₁, h01, hsat⟩
      exact ⟨st₁, later_trans hl₁ hl, h01, hsat⟩

/-- The thread that starts in `st` with a good program is good. -/
theorem threadOk_start {st : State Op Res Call Choice World} {i : Nat} {call : Call}
    (h : Sat S Q i call (Q.Post i call st) (S.body call) st) :
    ThreadOk S Q st i (Thread.start S st.log.length call) := by
  refine ⟨st, rfl, List.suffix_refl _, ?_⟩
  simp only [Thread.result, Thread.start]
  cases hp : S.body call with
  | ret a =>
      rw [hp] at h
      exact ⟨st, rfl, List.suffix_refl _, List.suffix_refl _, rfl, h⟩
  | throw e =>
      rw [hp] at h
      exact ⟨st, rfl, List.suffix_refl _, List.suffix_refl _, rfl, h⟩
  | await op k =>
      rw [hp] at h
      exact fun _ => ⟨st, later_refl Q.loc i st, List.suffix_refl _, h⟩

/-- The thread that moves is good after its move. -/
theorem threadOk_goOn {st : State Op Res Call Choice World} {i : Nat}
    {t : Thread Op Res Err Out Call} {op : Op} {k : Res op → Prog Op Res Err Out} {ch : Choice}
    {r : Res op} {w : World} (h : ThreadOk S Q st i t) (hi : Q.Inv st) (hs : st.Fits i t.call)
    (ha : t.alive = true) (hp : t.prog = .await op k) (hd : Q.mayDo st i t.call op ch)
    (hx : S.exec i op ch st.world = some (r, w)) :
    ThreadOk S Q (st.push i t.call op ch r w) i (t.goOn (st.log.length + 1) (k r)) := by
  rcases h with ⟨st₀, hborn, hle, hrest⟩
  have hnone : t.result = none := by
    simp only [Thread.result, hp, Prog.result]
  simp only [hnone] at hrest
  rcases hrest ha with ⟨st₁, hl, h01, hsat⟩
  rw [hp] at hsat
  -- The program meets its obligation here, so what is left of it does from here on.
  have hk := (hsat st hl hi hs).2 ch r w hd hx
  have hpush : st.log <:+ (st.push i t.call op ch r w).log := List.suffix_cons _ _
  refine ⟨st₀, hborn, hle.trans hpush, ?_⟩
  simp only [Thread.result, Thread.goOn]
  cases hkr : k r with
  | ret a =>
      rw [hkr] at hk
      exact ⟨_, rfl, hle.trans hpush, List.suffix_refl _, rfl, hk⟩
  | throw e =>
      rw [hkr] at hk
      exact ⟨_, rfl, hle.trans hpush, List.suffix_refl _, rfl, hk⟩
  | await op' k' =>
      rw [hkr] at hk
      exact fun _ => ⟨_, later_refl Q.loc i _, hle.trans hpush, hk⟩

/-- The invariant of a sound protocol holds in every reachable configuration,
    and every thread is as the protocol says. Induction on the run; a thread
    that does not take the step is carried by `threadOk_later`. -/
theorem run_sound (hQ : Sound S Q) (h0 : Q.Inv { world := w₀, log := [] })
    {c : Config Op Res Err Out Call Choice World} (hc : Run S Q.toPolicy w₀ c) :
    Q.Inv c.state ∧ ∀ i t, c.threads[i]? = some t → ThreadOk S Q c.state i t := by
  induction hc with
  | start => exact ⟨h0, fun i t ht => by simp [Config.init] at ht⟩
  | step d d' a hd hp hs ih =>
      rcases ih with ⟨hinv, hthreads⟩
      have hseq := run_seq_lt hd
      cases a with
      | spawn call =>
          simp only [Config.step, Option.some.injEq] at hs
          subst hs
          refine ⟨hinv, fun i t ht => ?_⟩
          rcases Nat.lt_or_ge i d.threads.length with hlt | hge
          · rw [List.getElem?_append_left hlt] at ht
            exact hthreads i t ht
          · have hi : i = d.threads.length := by
              have := (List.getElem?_eq_some_iff.mp ht).1
              simp only [List.length_append, List.length_cons, List.length_nil] at this
              omega
            subst hi
            -- No event can belong to a thread that has only just started.
            have hfresh : d.state.mine d.threads.length = [] := by
              simp only [State.mine, List.filter_eq_nil_iff, beq_iff_eq]
              intro e he hte
              rcases run_event_thread hd e he with ⟨u, hu, _⟩
              rw [hte, List.getElem?_eq_none (Nat.le_refl _)] at hu
              exact absurd hu (by simp only [reduceCtorEq, not_false_eq_true])
            rw [List.getElem?_append_right (Nat.le_refl _), Nat.sub_self] at ht
            simp only [List.getElem?_cons_zero, Option.some.injEq] at ht
            subst ht
            exact threadOk_start (hQ.body d.state _ call hinv hseq hfresh hp)
      | run i ch =>
          rcases step_run_inv hs with ⟨t, op, k, r, w, ht, ha, hprog, hx, rfl⟩
          have hmay : Q.mayDo d.state i t.call op ch := hp t op k ht hprog
          have hok := hthreads i t ht
          have hfits := run_fits hd ht
          have hpre : Q.Pre d.state i t.call op := by
            rcases hok with ⟨st₀, _, _, hrest⟩
            have hnone : t.result = none := by
              simp only [Thread.result, hprog, Prog.result]
            simp only [hnone] at hrest
            rcases hrest ha with ⟨st₁, hl, _, hsat⟩
            rw [hprog] at hsat
            exact (hsat d.state hl hinv hfits).1
          refine ⟨hQ.exec d.state i t.call op ch r w hinv hfits hpre hmay hx, ?_⟩
          intro j u hu
          by_cases hij : i = j
          · subst hij
            simp only [Config.advance] at hu
            rw [List.getElem?_set_self (List.getElem?_eq_some_iff.mp ht).1,
              Option.some.injEq] at hu
            subst hu
            exact threadOk_goOn hok hinv hfits ha hprog hmay hx
          · simp only [Config.advance] at hu
            rw [List.getElem?_set_ne hij] at hu
            refine threadOk_later (hthreads j u hu) ⟨List.suffix_cons _ _, ?_, ?_⟩
            · exact State.push_mine_other _ i j _ _ _ _ _ hij
            · exact hQ.exec_loc i j op ch _ r w hij hx
      | env e =>
          rcases step_env_inv hs with ⟨w, hw, rfl⟩
          refine ⟨hQ.env d.state e w hinv hw, fun i t ht => ?_⟩
          exact threadOk_later (hthreads i t ht)
            ⟨List.suffix_refl _, rfl, hQ.env_loc i e _ w hw⟩
      | kill i =>
          rcases step_kill_inv hs with ⟨t, ht, hfin, rfl⟩
          refine ⟨hQ.reap d.state i hinv, fun j u hu => ?_⟩
          by_cases hij : i = j
          · subst hij
            simp only at hu
            rw [List.getElem?_set_self (List.getElem?_eq_some_iff.mp ht).1,
              Option.some.injEq] at hu
            subst hu
            rcases hthreads i t ht with ⟨st₀, hborn, hle, _⟩
            refine ⟨st₀, hborn, hle, ?_⟩
            -- A killed thread has not ended, and nothing is asked of it.
            have hnone : ({ t with alive := false } : Thread Op Res Err Out Call).result
                = none := by
              simp only [Thread.result]
              cases hpr : t.prog with
              | ret a => rw [hpr] at hfin; simp only [Prog.finished, reduceCtorEq] at hfin
              | throw e => rw [hpr] at hfin; simp only [Prog.finished, reduceCtorEq] at hfin
              | await op k => rfl
            simp only [hnone, Bool.false_eq_true, false_implies]
          · simp only at hu
            rw [List.getElem?_set_ne hij] at hu
            exact threadOk_later (hthreads j u hu)
              ⟨List.suffix_refl _, rfl, hQ.reap_loc i j _ hij⟩

theorem run_inv (hQ : Sound S Q) (h0 : Q.Inv { world := w₀, log := [] })
    {c : Config Op Res Err Out Call Choice World} (hc : Run S Q.toPolicy w₀ c) :
    Q.Inv c.state :=
  (run_sound hQ h0 hc).1

/-- A thread that ended did so in a state of the run that satisfies its
    postcondition, and has performed nothing since. -/
theorem run_result (hQ : Sound S Q) (h0 : Q.Inv { world := w₀, log := [] })
    {c : Config Op Res Err Out Call Choice World} (hc : Run S Q.toPolicy w₀ c) {i : Nat}
    {t : Thread Op Res Err Out Call} (ht : c.threads[i]? = some t) {r : Except Err Out}
    (hr : t.result = some r) :
    ∃ st₀ st₁, st₀.log.length = t.born ∧ t.ended = some st₁.log.length ∧
      st₀.log <:+ st₁.log ∧ st₁.log <:+ c.state.log ∧ st₁.mine i = c.state.mine i ∧
      Q.Post i t.call st₀ r st₁ := by
  rcases (run_sound hQ h0 hc).2 i t ht with ⟨st₀, hborn, _, hrest⟩
  simp only [hr] at hrest
  rcases hrest with ⟨st₁, hend, h01, h1, hmine, hpost⟩
  exact ⟨st₀, st₁, hborn, hend, h01, h1, hmine, hpost⟩

end Soundness

end Async
