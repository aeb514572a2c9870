import ClickScope.Async.Pool

/-!
# Along a Run

Two inductions over a run, packaged once.

`run_state` of `Async.Pool` proves an invariant from what operations do, and
knows nothing of the state but the invariant. Here a step may use whatever has
been proved of every reachable configuration before, so that invariants build
on each other without being proved together.

The second is about two moments of one run. What every step does to the world,
if it is reflexive and transitive, relates any earlier moment of the history to
any later one.

## Main definitions

* `Moves`: A relation between the worlds before and after any step of a run.
* `Chained`: A relation between any two moments of a history.

## Theorems

* `run_state_in`: An invariant whose steps are those of a run.
* `run_chained`: Any two moments of a run.
* `run_after`: What holds of reachable worlds held at every moment.
* `run_seq_suffix`: Positions in an earlier part of the history.
* `run_born`: A thread has performed nothing before it started.
* `run_sorted`: The history is in order, newest first.
* `run_started`: A thread was permitted to start, in a state of the run.
-/

namespace Async

variable {Op : Type} {Res : Op → Type} {Err Out Call Env Choice World : Type}
  {S : System Op Res Err Out Call Env Choice World} {π : Policy Op Res Call Choice World}
  {w₀ : World} {c : Config Op Res Err Out Call Choice World}

/-- An invariant of the state, where a step may use that it is one of a run. -/
theorem run_state_in {I : State Op Res Call Choice World → Prop}
    (hstart : I { world := w₀, log := [] })
    (hexec : ∀ (d : Config Op Res Err Out Call Choice World) i t op k ch r w,
      Run S π w₀ d → d.threads[i]? = some t → t.alive = true → t.prog = .await op k →
      I d.state → S.exec i op ch d.state.world = some (r, w) →
      I (d.state.push i t.call op ch r w))
    (henv : ∀ (d : Config Op Res Err Out Call Choice World) e w,
      Run S π w₀ d → I d.state → S.env e d.state.world = some w → I { d.state with world := w })
    (hreap : ∀ (d : Config Op Res Err Out Call Choice World) i,
      Run S π w₀ d → I d.state → I { d.state with world := S.reap i d.state.world })
    (hc : Run S π w₀ c) : I c.state := by
  induction hc with
  | start => exact hstart
  | step d d' a hd _ hs ih =>
      cases a with
      | spawn call =>
          simp only [Config.step, Option.some.injEq] at hs
          rw [← hs]
          exact ih
      | run i ch =>
          rcases step_run_inv hs with ⟨t, op, k, r, w, ht, ha, hp, hx, rfl⟩
          exact hexec d i t op k ch r w hd ht ha hp ih hx
      | env e =>
          rcases step_env_inv hs with ⟨w, hw, rfl⟩
          exact henv d e w hd ih hw
      | kill i =>
          rcases step_kill_inv hs with ⟨_, _, _, rfl⟩
          exact hreap d i hd ih

/-- The steps of a run stand in a relation between worlds. -/
structure Moves (S : System Op Res Err Out Call Env Choice World)
    (π : Policy Op Res Call Choice World) (w₀ : World) (R : World → World → Prop) : Prop where
  refl : ∀ w, R w w
  trans : ∀ u v w, R u v → R v w → R u w
  exec : ∀ (d : Config Op Res Err Out Call Choice World) i t op k ch r w,
    Run S π w₀ d → d.threads[i]? = some t → t.alive = true → t.prog = .await op k →
    S.exec i op ch d.state.world = some (r, w) → R d.state.world w
  env : ∀ (d : Config Op Res Err Out Call Choice World) e w,
    Run S π w₀ d → S.env e d.state.world = some w → R d.state.world w
  reap : ∀ (d : Config Op Res Err Out Call Choice World) i,
    Run S π w₀ d → R d.state.world (S.reap i d.state.world)

/-- Any moment of a history is related to any later one: the start, the moment
    after each event, and now. -/
structure Chained (R : World → World → Prop) (w₀ : World)
    (st : State Op Res Call Choice World) : Prop where
  whole : R w₀ st.world
  since : ∀ e ∈ st.log, R w₀ e.after ∧ R e.after st.world
  between : ∀ e ∈ st.log, ∀ e' ∈ st.log, e.seq ≤ e'.seq → R e.after e'.after

/-- The history goes on with one more event, or without one. -/
theorem chained_push {R : World → World → Prop} {st : State Op Res Call Choice World}
    (hrefl : ∀ w, R w w) (htrans : ∀ u v w, R u v → R v w → R u w) (hseq : st.SeqLt)
    (h : Chained R w₀ st) {i : Nat} {call : Call} {op : Op} {ch : Choice} {r : Res op} {w : World}
    (hw : R st.world w) : Chained R w₀ (st.push i call op ch r w) where
  whole := htrans _ _ _ h.whole hw
  since := by
    intro e he
    rcases List.mem_cons.mp he with rfl | he
    · exact ⟨htrans _ _ _ h.whole hw, hrefl w⟩
    · exact ⟨(h.since e he).1, htrans _ _ _ (h.since e he).2 hw⟩
  between := by
    intro e he e' he' hle
    rcases List.mem_cons.mp he' with rfl | he'
    · rcases List.mem_cons.mp he with rfl | he
      · exact hrefl w
      · exact htrans _ _ _ (h.since e he).2 hw
    · rcases List.mem_cons.mp he with rfl | he
      · -- Nothing comes after the new event.
        have hlt := hseq e' he'
        simp only at hle
        omega
      · exact h.between e he e' he' hle

theorem chained_move {R : World → World → Prop} {st : State Op Res Call Choice World}
    (htrans : ∀ u v w, R u v → R v w → R u w) (h : Chained R w₀ st) {w : World}
    (hw : R st.world w) : Chained R w₀ { st with world := w } :=
  ⟨htrans _ _ _ h.whole hw, fun e he => ⟨(h.since e he).1, htrans _ _ _ (h.since e he).2 hw⟩,
    h.between⟩

/-- What every step of a run does, any two moments of it have done. -/
theorem run_chained {R : World → World → Prop} (hR : Moves S π w₀ R) (hc : Run S π w₀ c) :
    Chained R w₀ c.state := by
  refine run_state_in ?_ ?_ ?_ ?_ hc
  · exact ⟨hR.refl w₀, fun e he => (by cases he), fun e he => by cases he⟩
  · exact fun d i t op k ch r w hd ht ha hp h hx =>
      chained_push hR.refl hR.trans (run_seq_lt hd) h (hR.exec d i t op k ch r w hd ht ha hp hx)
  · exact fun d e w hd h hw => chained_move hR.trans h (hR.env d e w hd hw)
  · exact fun d i hd h => chained_move hR.trans h (hR.reap d i hd)

/-- What holds of every reachable world held after each event. -/
theorem run_after {I : World → Prop}
    (h : ∀ d : Config Op Res Err Out Call Choice World, Run S π w₀ d → I d.state.world)
    (hc : Run S π w₀ c) : ∀ e ∈ c.state.log, I e.after := by
  induction hc with
  | start => exact fun e he => by cases he
  | step d d' a hd hp hs ih =>
      have hd' : Run S π w₀ d' := Run.step d d' a hd hp hs
      cases a with
      | spawn call =>
          simp only [Config.step, Option.some.injEq] at hs
          rw [← hs]
          exact ih
      | run i ch =>
          rcases step_run_inv hs with ⟨t, op, k, r, w, _, _, _, _, rfl⟩
          intro e he
          rcases List.mem_cons.mp he with rfl | he
          · exact h _ hd'
          · exact ih e he
      | env e =>
          rcases step_env_inv hs with ⟨w, _, rfl⟩
          exact ih
      | kill i =>
          rcases step_kill_inv hs with ⟨_, _, _, rfl⟩
          exact ih

/-- The events of an earlier history have their positions in it. -/
theorem run_seq_suffix (hc : Run S π w₀ c) :
    ∀ l, l <:+ c.state.log → ∀ e ∈ l, e.seq < l.length := by
  refine run_state_in (I := fun st : State Op Res Call Choice World =>
    ∀ l, l <:+ st.log → ∀ e ∈ l, e.seq < l.length) ?_ ?_ ?_ ?_ hc
  · intro l hl e he
    rw [List.suffix_nil.mp hl] at he
    cases he
  · intro d i t op k ch r w hd _ _ _ h _ l hl e he
    rcases List.suffix_cons_iff.mp hl with rfl | hl
    · rcases List.mem_cons.mp he with rfl | he
      · exact Nat.lt_succ_self _
      · exact Nat.lt_succ_of_lt (run_seq_lt hd e he)
    · exact h l hl e he
  · exact fun _ _ _ _ h _ => h
  · exact fun _ _ _ h => h

/-- No thread started later than now. -/
theorem run_born_le (hc : Run S π w₀ c) : ∀ t ∈ c.threads, t.born ≤ c.state.log.length := by
  induction hc with
  | start => exact fun t ht => by cases ht
  | step d d' a _ _ hs ih =>
      cases a with
      | spawn call =>
          simp only [Config.step, Option.some.injEq] at hs
          subst hs
          intro t ht
          rcases List.mem_append.mp ht with ht | ht
          · exact ih t ht
          · rw [List.mem_singleton.mp ht]
            exact Nat.le_refl _
      | run i ch =>
          rcases step_run_inv hs with ⟨t, op, k, r, w, ht, _, _, _, rfl⟩
          intro u hu
          refine Nat.le_succ_of_le ?_
          rcases List.mem_or_eq_of_mem_set hu with hu | rfl
          · exact ih u hu
          · exact ih t (List.mem_of_getElem? ht)
      | env e =>
          rcases step_env_inv hs with ⟨w, _, rfl⟩
          exact ih
      | kill i =>
          rcases step_kill_inv hs with ⟨t, ht, _, rfl⟩
          intro u hu
          rcases List.mem_or_eq_of_mem_set hu with hu | rfl
          · exact ih u hu
          · exact ih t (List.mem_of_getElem? ht)

/-- A thread has performed nothing before it started. -/
theorem run_born (hc : Run S π w₀ c) : ∀ (i : Nat) (t : Thread Op Res Err Out Call),
    c.threads[i]? = some t → ∀ e ∈ c.state.log, e.tid = i → t.born ≤ e.seq := by
  induction hc with
  | start => exact fun i t ht => by simp only [Config.init, List.getElem?_nil, reduceCtorEq] at ht
  | step d d' a hd _ hs ih =>
      cases a with
      | spawn call =>
          simp only [Config.step, Option.some.injEq] at hs
          subst hs
          intro i t ht e he htid
          -- The events there are belong to threads that were there before.
          rcases run_event_thread hd e he with ⟨u, hu, _⟩
          rw [htid] at hu
          rw [List.getElem?_append_left (List.getElem?_eq_some_iff.mp hu).1, hu,
            Option.some.injEq] at ht
          subst ht
          exact ih i u hu e he htid
      | run i ch =>
          rcases step_run_inv hs with ⟨t, op, k, r, w, ht, _, _, _, rfl⟩
          intro j u hu e he htid
          -- A step of a thread does not move the moment it started.
          have hsame : ∃ v, d.threads[j]? = some v ∧ v.born = u.born := by
            by_cases hij : i = j
            · subst hij
              simp only [Config.advance] at hu
              rw [List.getElem?_set_self (List.getElem?_eq_some_iff.mp ht).1,
                Option.some.injEq] at hu
              subst hu
              exact ⟨t, ht, rfl⟩
            · simp only [Config.advance] at hu
              rw [List.getElem?_set_ne hij] at hu
              exact ⟨u, hu, rfl⟩
          rcases hsame with ⟨v, hv, hborn⟩
          rcases List.mem_cons.mp he with rfl | he
          · rw [← hborn]
            exact run_born_le hd v (List.mem_of_getElem? hv)
          · rw [← hborn]
            exact ih j v hv e he htid
      | env e =>
          rcases step_env_inv hs with ⟨w, _, rfl⟩
          exact ih
      | kill i =>
          rcases step_kill_inv hs with ⟨t, ht, _, rfl⟩
          intro j u hu e he htid
          by_cases hij : i = j
          · subst hij
            simp only at hu
            rw [List.getElem?_set_self (List.getElem?_eq_some_iff.mp ht).1, Option.some.injEq] at hu
            subst hu
            exact ih i t ht e he htid
          · simp only at hu
            rw [List.getElem?_set_ne hij] at hu
            exact ih j u hu e he htid

/-- The history is in order, newest first. -/
theorem run_sorted (hc : Run S π w₀ c) : c.state.log.Pairwise (fun a b => b.seq < a.seq) :=
  run_state_in (I := fun st : State Op Res Call Choice World =>
    st.log.Pairwise (fun a b => b.seq < a.seq)) List.Pairwise.nil
    (fun _ _ _ _ _ _ _ _ hd _ _ _ h _ =>
      List.pairwise_cons.mpr ⟨fun e he => run_seq_lt hd e he, h⟩)
    (fun _ _ _ _ h _ => h) (fun _ _ _ h => h) hc

/-- Whatever a thread was permitted to start on held when it started. -/
theorem run_started (hc : Run S π w₀ c) : ∀ (i : Nat) (t : Thread Op Res Err Out Call),
    c.threads[i]? = some t → ∃ st : State Op Res Call Choice World, st.log <:+ c.state.log ∧
      st.log.length = t.born ∧ π.mayStart st t.call := by
  induction hc with
  | start => exact fun i t ht => by simp only [Config.init, List.getElem?_nil, reduceCtorEq] at ht
  | step d d' a _ hp hs ih =>
      -- A thread that was there keeps its call and the moment it started.
      have hold : ∀ {l : List (Event Op Res Call Choice World)} {v t : Thread Op Res Err Out Call}
          {i : Nat}, d.state.log <:+ l → d.threads[i]? = some v → v.call = t.call →
          v.born = t.born → ∃ st : State Op Res Call Choice World, st.log <:+ l ∧
            st.log.length = t.born ∧ π.mayStart st t.call := by
        intro l v t i hl hv hcall hborn
        rcases ih i v hv with ⟨st, hsub, hlen, hmay⟩
        exact ⟨st, hsub.trans hl, hlen.trans hborn, hcall ▸ hmay⟩
      have hset : ∀ {l : List (Event Op Res Call Choice World)} {i j : Nat}
          {t u v : Thread Op Res Err Out Call}, d.state.log <:+ l → d.threads[i]? = some t →
          u.call = t.call → u.born = t.born → (d.threads.set i u)[j]? = some v →
          ∃ st : State Op Res Call Choice World, st.log <:+ l ∧ st.log.length = v.born ∧
            π.mayStart st v.call := by
        intro l i j t u v hl ht hcall hborn hv
        by_cases hij : i = j
        · subst hij
          rw [List.getElem?_set_self (List.getElem?_eq_some_iff.mp ht).1, Option.some.injEq] at hv
          exact hold hl ht (by rw [← hv, hcall]) (by rw [← hv, hborn])
        · rw [List.getElem?_set_ne hij] at hv
          exact hold hl hv rfl rfl
      cases a with
      | spawn call =>
          simp only [Config.step, Option.some.injEq] at hs
          subst hs
          intro i t ht
          rw [List.getElem?_append] at ht
          split_ifs at ht with hlt
          · exact hold (List.suffix_refl _) ht rfl rfl
          · rcases List.getElem?_eq_some_iff.mp ht with ⟨hone, rfl⟩
            rw [List.getElem_singleton]
            exact ⟨d.state, List.suffix_refl _, rfl, hp⟩
      | run i ch =>
          rcases step_run_inv hs with ⟨t, op, k, r, w, ht, _, _, _, rfl⟩
          exact fun j v hv => hset (u := t.goOn (d.state.log.length + 1) (k r))
            (List.suffix_cons _ _) ht rfl rfl hv
      | env e =>
          rcases step_env_inv hs with ⟨w, _, rfl⟩
          exact fun i v hv => hold (List.suffix_refl _) hv rfl rfl
      | kill i =>
          rcases step_kill_inv hs with ⟨t, ht, _, rfl⟩
          exact fun j v hv => hset (u := { t with alive := false }) (List.suffix_refl _) ht rfl rfl
            hv

end Async
