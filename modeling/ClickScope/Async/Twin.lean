import ClickScope.Async.Pool

/-!
# Twin Runs

When the answers of some operations make no difference.

A program is `Blind` to a kind of operation if it goes on in the same way
whatever such an operation answers. If every program of a pool is, apart from
some calls that only look at the world, a run in which these operations
misbehave has a twin in which they do not: the same threads with the same
program left, in worlds that differ only in what nobody else can see, and the
same events up to the ones that make no difference. The calls that only look
are left where they started in the twin, so it is the others it speaks about.

`Twins` lists what has to hold of one operation, and `exists_twin` is the
induction over the run.

## Main definitions

* `Prog.Blind`: The answers of some operations make no difference to a program.
* `Twins`: What the operations of a pool have to keep.
* `Kept`, `SameEvent`: Threads and events of twin runs.
* `Twin`: Configurations of twin runs.

## Theorems

* `blind_bind`, `blind_of_only`: Composed programs.
* `twin_run`: One step of a thread in both runs.
* `exists_twin`: Every run has a twin.
-/

namespace Async

namespace Prog

variable {Op : Type} {Res : Op → Type} {ε α β : Type} {q : Op → Bool}

/-- The program goes on in the same way whatever an operation `q` answers. -/
def Blind (q : Op → Bool) : Prog Op Res ε α → Prop
  | .ret _ => True
  | .throw _ => True
  | .await op k => (q op = true → ∀ r r', k r = k r') ∧ ∀ r, (k r).Blind q

theorem blind_bind {f : α → Prog Op Res ε β} (hf : ∀ a, (f a).Blind q) :
    ∀ (x : Prog Op Res ε α), x.Blind q → (x.bind f).Blind q := by
  intro x
  induction x with
  | ret a => exact fun _ => hf a
  | throw e => exact fun h => h
  | await op k ih =>
      intro h
      exact ⟨fun hq r r' => congrArg (fun y => y.bind f) (h.1 hq r r'), fun r => ih r (h.2 r)⟩

theorem blind_tryCatch {h : ε → Prog Op Res ε α} (hh : ∀ e, (h e).Blind q) :
    ∀ (x : Prog Op Res ε α), x.Blind q → (x.tryCatch h).Blind q := by
  intro x
  induction x with
  | ret a => exact fun hx => hx
  | throw e => exact fun _ => hh e
  | await op k ih =>
      intro hx
      exact ⟨fun hq r r' => congrArg (fun y => y.tryCatch h) (hx.1 hq r r'),
        fun r => ih r (hx.2 r)⟩

theorem only_of_forall {p : Op → Prop} (hp : ∀ op, p op) :
    ∀ (x : Prog Op Res ε α), x.Only p := by
  intro x
  induction x with
  | ret a => trivial
  | throw e => trivial
  | await op k ih => exact ⟨hp op, ih⟩

/-- A program that never performs such an operation. -/
theorem blind_of_only :
    ∀ (x : Prog Op Res ε α), x.Only (fun op => q op = false) → x.Blind q := by
  intro x
  induction x with
  | ret a => exact fun _ => trivial
  | throw e => exact fun _ => trivial
  | await op k ih =>
      intro h
      refine ⟨fun hq => ?_, fun r => ih r (h.2 r)⟩
      rw [h.1] at hq
      cases hq

end Prog

variable {Op : Type} {Res : Op → Type} {Err Out Call Env Choice World : Type}

/-- What makes a run have a twin. `q` are the operations whose answers make no
    difference, `looks` the calls that only look, `calm` the choices of the
    twin, and `R` relates its worlds to those of the run. -/
structure Twins (S : System Op Res Err Out Call Env Choice World) (q : Op → Bool)
    (looks : Call → Bool) (calm : Op → Choice → Choice) (R : World → World → Prop)
    (π π' : Policy Op Res Call Choice World) : Prop where
  /-- The other calls are blind. -/
  blind : ∀ st call, π.mayStart st call → looks call = false → (S.body call).Blind q
  /-- A call that looks does not end before its first operation, and changes
      nothing the twin could see. -/
  starts : ∀ call, looks call = true → (S.body call).finished = false
  look : ∀ call, looks call = true → (S.body call).Only (fun op => ∀ i ch w w' r w₁, R w w' →
    S.exec i op ch w = some (r, w₁) → R w₁ w')
  /-- An operation of `q` is always enabled. -/
  quiet : ∀ i op ch w w' r w₁, q op = true → R w w' → S.exec i op ch w = some (r, w₁) →
    ∃ r' w₁', S.exec i op (calm op ch) w' = some (r', w₁') ∧ R w₁ w₁'
  /-- Any other answers the same in both worlds. -/
  loud : ∀ i op ch w w' r w₁, q op = false → R w w' → S.exec i op ch w = some (r, w₁) →
    ∃ w₁', S.exec i op (calm op ch) w' = some (r, w₁') ∧ R w₁ w₁'
  env : ∀ e w w' w₁, R w w' → S.env e w = some w₁ → ∃ w₁', S.env e w' = some w₁' ∧ R w₁ w₁'
  reap : ∀ i w w', R w w' → R (S.reap i w) (S.reap i w')
  mayStart : ∀ st st' call, π.mayStart st call → π'.mayStart st' call
  mayDo : ∀ st i call op ch, π'.mayDo st i call op (calm op ch)

/-- A thread and its twin: the same program is left, unless it only looks. -/
structure Kept (S : System Op Res Err Out Call Env Choice World) (q : Op → Bool)
    (looks : Call → Bool) (t t' : Thread Op Res Err Out Call) : Prop where
  call : t'.call = t.call
  alive : t'.alive = t.alive
  prog : looks t.call = false → t'.prog = t.prog ∧ t.prog.Blind q
  waits : looks t.call = true → t'.prog = S.body t.call

/-- One operation of a thread in both runs, with the same answer. -/
structure SameEvent (R : World → World → Prop) (e e' : Event Op Res Call Choice World) : Prop where
  tid : e'.tid = e.tid
  call : e'.call = e.call
  answer : (⟨e'.op, e'.res⟩ : Σ op, Res op) = ⟨e.op, e.res⟩
  after : R e.after e'.after

/-- The events that make a difference to the calls that do more than look. -/
def visible (q : Op → Bool) (looks : Call → Bool) (log : List (Event Op Res Call Choice World)) :
    List (Event Op Res Call Choice World) :=
  log.filter (fun e => !looks e.call && !q e.op)

/-- A configuration and its twin. -/
structure Twin (S : System Op Res Err Out Call Env Choice World) (q : Op → Bool)
    (looks : Call → Bool) (R : World → World → Prop)
    (c c' : Config Op Res Err Out Call Choice World) : Prop where
  world : R c.state.world c'.state.world
  length : c'.threads.length = c.threads.length
  threads : ∀ (i : Nat) (t : Thread Op Res Err Out Call), c.threads[i]? = some t →
    ∃ t', c'.threads[i]? = some t' ∧ Kept S q looks t t'
  events : List.Forall₂ (SameEvent R) (visible q looks c.state.log) (visible q looks c'.state.log)

section Steps

variable {S : System Op Res Err Out Call Env Choice World} {q : Op → Bool} {looks : Call → Bool}
  {calm : Op → Choice → Choice} {R : World → World → Prop}
  {π π' : Policy Op Res Call Choice World} {w₀ : World}
  {c c' : Config Op Res Err Out Call Choice World}

/-- Replacing a thread and its twin by threads that are twins again. -/
theorem kept_set {ts ts' : List (Thread Op Res Err Out Call)} {i : Nat}
    {u u' : Thread Op Res Err Out Call} (hlen : ts'.length = ts.length) (hlt : i < ts.length)
    (h : ∀ (j : Nat) (t : Thread Op Res Err Out Call), ts[j]? = some t →
      ∃ t', ts'[j]? = some t' ∧ Kept S q looks t t') (hu : Kept S q looks u u') :
    ∀ (j : Nat) (t : Thread Op Res Err Out Call), (ts.set i u)[j]? = some t →
      ∃ t', (ts'.set i u')[j]? = some t' ∧ Kept S q looks t t' := by
  intro j t ht
  by_cases hij : i = j
  · subst hij
    rw [List.getElem?_set_self hlt, Option.some.injEq] at ht
    subst ht
    exact ⟨u', List.getElem?_set_self (by omega), hu⟩
  · rw [List.getElem?_set_ne hij] at ht ⊢
    exact h j t ht

/-- A thread that looks moves alone. -/
theorem twin_look {i : Nat} {t : Thread Op Res Err Out Call} {op : Op}
    {k : Res op → Prog Op Res Err Out} {ch : Choice} {r : Res op} {w : World}
    (h : Twin S q looks R c c') (ht : c.threads[i]? = some t)
    (hlooks : looks t.call = true)
    (honly : t.prog.Only (fun op => ∀ i ch w w' r w₁, R w w' →
      S.exec i op ch w = some (r, w₁) → R w₁ w'))
    (hprog : t.prog = .await op k) (hx : S.exec i op ch c.state.world = some (r, w)) :
    Twin S q looks R (c.advance i t op ch r w (k r)) c' := by
  have hlt := (List.getElem?_eq_some_iff.mp ht).1
  rcases h.threads i t ht with ⟨t', ht', hkept⟩
  rw [hprog] at honly
  refine ⟨honly.1 i ch _ _ r w h.world hx, ?_, fun j u hu => ?_, ?_⟩
  · simp only [Config.advance, List.length_set]
    exact h.length
  · simp only [Config.advance] at hu
    by_cases hij : i = j
    · subst hij
      rw [List.getElem?_set_self hlt, Option.some.injEq] at hu
      subst hu
      refine ⟨t', ht', hkept.call, hkept.alive, fun hno => ?_, hkept.waits⟩
      have hno' : looks t.call = false := hno
      rw [hlooks] at hno'
      cases hno'
    · rw [List.getElem?_set_ne hij] at hu
      exact h.threads j u hu
  · -- Its event is not among the visible ones.
    simp only [Config.advance, State.push_log, visible, List.filter_cons, hlooks, Bool.not_true,
      Bool.false_and, Bool.false_eq_true, if_false]
    exact h.events

/-- A thread that does more than look moves in both runs. -/
theorem twin_run {i : Nat} {t t' : Thread Op Res Err Out Call} {op : Op}
    {k : Res op → Prog Op Res Err Out} {ch : Choice} {r : Res op} {w : World}
    (hT : Twins S q looks calm R π π') (h : Twin S q looks R c c') (ht : c.threads[i]? = some t)
    (hkept : Kept S q looks t t') (hlooks : looks t.call = false)
    (hprog : t.prog = .await op k) (hx : S.exec i op ch c.state.world = some (r, w)) :
    ∃ r' w', S.exec i op (calm op ch) c'.state.world = some (r', w') ∧
      Twin S q looks R (c.advance i t op ch r w (k r))
        (c'.advance i t' op (calm op ch) r' w' (k r')) := by
  have hlt := (List.getElem?_eq_some_iff.mp ht).1
  rcases hkept.prog hlooks with ⟨_, hblind⟩
  rw [hprog] at hblind
  -- The two threads stay twins whatever was answered, as long as both go on the same.
  have hthreads : ∀ (r' : Res op) (n n' : Nat), k r = k r' →
      ∀ (j : Nat) (u : Thread Op Res Err Out Call),
        (c.threads.set i (t.goOn n (k r)))[j]? = some u →
        ∃ u', (c'.threads.set i (t'.goOn n' (k r')))[j]? = some u' ∧ Kept S q looks u u' := by
    intro r' n n' hk
    refine kept_set h.length hlt h.threads ⟨hkept.call, hkept.alive, fun _ => ⟨hk.symm, hblind.2 r⟩,
      fun hyes => ?_⟩
    have hyes' : looks t.call = true := hyes
    rw [hlooks] at hyes'
    cases hyes'
  have hlength : ∀ u u' : Thread Op Res Err Out Call,
      (c'.threads.set i u').length = (c.threads.set i u).length := by
    intro u u'
    rw [List.length_set, List.length_set]
    exact h.length
  cases hq : q op with
  | true =>
      -- The answer may differ, but the program does not look at it.
      rcases hT.quiet i op ch _ _ r w hq h.world hx with ⟨r', w', hx', hR⟩
      refine ⟨r', w', hx', hR, hlength _ _, hthreads r' _ _ (hblind.1 hq r r'), ?_⟩
      simp only [Config.advance, State.push_log, visible, List.filter_cons, hq, Bool.not_true,
        Bool.and_false, Bool.false_eq_true, if_false]
      exact h.events
  | false =>
      rcases hT.loud i op ch _ _ r w hq h.world hx with ⟨w', hx', hR⟩
      refine ⟨r, w', hx', hR, hlength _ _, hthreads r _ _ rfl, ?_⟩
      simp only [Config.advance, State.push_log, visible, List.filter_cons, hq, hkept.call, hlooks,
        Bool.not_false, Bool.and_self, if_true]
      exact List.Forall₂.cons ⟨rfl, rfl, rfl, hR⟩ h.events

/-- Every run has a twin. Induction on the run; the twin takes the same
    actions, except those of the threads that only look. -/
theorem exists_twin (hT : Twins S q looks calm R π π') (h0 : R w₀ w₀) (hc : Run S π w₀ c) :
    ∃ c', Run S π' w₀ c' ∧ Twin S q looks R c c' := by
  induction hc with
  | start =>
      exact ⟨Config.init w₀, Run.start, h0, rfl, fun i t ht => by simp [Config.init] at ht,
        List.Forall₂.nil⟩
  | step d d' a hd hp hs ih =>
      rcases ih with ⟨c', hc', htwin⟩
      cases a with
      | spawn call =>
          simp only [Config.step, Option.some.injEq] at hs
          subst hs
          refine ⟨_, Run.step c' _ (.spawn call) hc' (hT.mayStart d.state c'.state call hp) rfl,
            htwin.world, ?_, fun i t ht => ?_, htwin.events⟩
          · -- The new threads are at the same position.
            simp only [List.length_append, htwin.length, List.length_cons, List.length_nil]
          · rw [List.getElem?_append] at ht
            by_cases hlt : i < d.threads.length
            · rw [if_pos hlt] at ht
              rcases htwin.threads i t ht with ⟨t', ht', hkept⟩
              refine ⟨t', ?_, hkept⟩
              rw [List.getElem?_append_left (by rw [htwin.length]; exact hlt)]
              exact ht'
            · rw [if_neg hlt] at ht
              have hi : i = d.threads.length := by
                have := (List.getElem?_eq_some_iff.mp ht).1
                simp only [List.length_cons, List.length_nil] at this
                omega
              subst hi
              rw [Nat.sub_self, List.getElem?_cons_zero, Option.some.injEq] at ht
              subst ht
              refine ⟨Thread.start S c'.state.log.length call, ?_, rfl, rfl,
                fun hno => ⟨rfl, hT.blind d.state call hp hno⟩, fun _ => rfl⟩
              rw [← htwin.length, List.getElem?_append_right (Nat.le_refl _), Nat.sub_self,
                List.getElem?_cons_zero]
      | run i ch =>
          rcases step_run_inv hs with ⟨t, op, k, r, w, ht, ha, hprog, hx, rfl⟩
          cases hlooks : looks t.call with
          | true =>
              -- The twin does not move: nothing it could see has changed.
              have honly := run_only (p := fun call op => looks call = true →
                ∀ i ch w w' r w₁, R w w' → S.exec i op ch w = some (r, w₁) → R w₁ w')
                (fun call => ?_) hd i t ht
              · exact ⟨c', hc', twin_look htwin ht hlooks
                  (Prog.only_mono (fun _ hop => hop hlooks) _ honly) hprog hx⟩
              · cases hl : looks call with
                | true => exact Prog.only_mono (fun _ hop _ => hop) _ (hT.look call hl)
                | false => exact Prog.only_of_forall (fun _ hl' => by cases hl') _
          | false =>
              rcases htwin.threads i t ht with ⟨t', ht', hkept⟩
              -- The twin performs the same operation, with the choice made calm.
              rcases twin_run hT htwin ht hkept hlooks hprog hx with ⟨r', w', hx', htwin'⟩
              have hprog' : t'.prog = .await op k := (hkept.prog hlooks).1.trans hprog
              refine ⟨_, Run.step c' _ (.run i (calm op ch)) hc' (fun u op' k' hu hk' => ?_) ?_,
                htwin'⟩
              · rw [ht', Option.some.injEq] at hu
                rw [← hu, hprog'] at hk'
                cases hk'
                exact hT.mayDo c'.state i u.call op ch
              · simp only [Config.step, ht', hkept.alive.trans ha, hprog', hx']
      | env e =>
          rcases step_env_inv hs with ⟨w, hw, rfl⟩
          rcases hT.env e _ _ w htwin.world hw with ⟨w', hw', hR⟩
          refine ⟨{ c' with state := { c'.state with world := w' } },
            Run.step c' _ (.env e) hc' trivial (by simp only [Config.step, hw']),
            hR, htwin.length, htwin.threads, htwin.events⟩
      | kill i =>
          rcases step_kill_inv hs with ⟨t, ht, hfin, rfl⟩
          have hlt := (List.getElem?_eq_some_iff.mp ht).1
          rcases htwin.threads i t ht with ⟨t', ht', hkept⟩
          -- A thread can be killed exactly if its twin can.
          have hfin' : t'.prog.finished = false := by
            cases hlooks : looks t.call with
            | true =>
                rw [hkept.waits hlooks]
                exact hT.starts t.call hlooks
            | false =>
                rw [(hkept.prog hlooks).1]
                exact hfin
          refine ⟨{ state := { c'.state with world := S.reap i c'.state.world },
                    threads := c'.threads.set i { t' with alive := false } },
            Run.step c' _ (.kill i) hc' trivial ?_, hT.reap i _ _ htwin.world, ?_,
            kept_set htwin.length hlt htwin.threads ⟨hkept.call, rfl, hkept.prog, hkept.waits⟩,
            htwin.events⟩
          · simp only [Config.step, ht', hfin', Bool.false_eq_true, if_false]
          · simp only [List.length_set]
            exact htwin.length

end Steps

end Async
