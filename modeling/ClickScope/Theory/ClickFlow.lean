import Mathlib.Data.List.Nodup
import ClickScope.Theory.ExactlyOnce
import ClickScope.Theory.Visits

/-!
# Clicks from the Visit to the Counter

The way of a click through the redirect handler, the queue and the worker.

The three processes share nothing but the click id. The handler draws it and
the draws never repeat, the queue refuses a second job with the same id, and
the worker inserts one row per id. `FlowInv` follows an id on the first half of
the way, from the request that drew it to the job in the queue; `ClicksInv`
follows it on the second half, from the job to the row. Together they name the
request behind every row.

The count then is a matter of two lists without repetitions: the job ids of a
link's rows and the click ids of the requests that passed for that link. The
first is always part of the second, and all of it once nothing is under way and
nothing was lost.

## Main definitions

* `fromQueue`: The worker attempts only jobs the queue holds.
* `FlowInv`: The invariant of the first half.
* `passes`: The requests that have passed the checks for a link.
* `Drained`: Nothing is under way and nothing was lost, for a link.

## Theorems

* `flowInv_push`: Every operation keeps the invariant.
* `click_visit`: The request behind a click row.
* `clicks_conserved`: Clicks and requests in every reachable state.
-/

namespace ClickScope

open Async

/-- The job of an acknowledged enqueue. -/
def jobStored : (op : Op) → op.Res → Option ClickJobData
  | .enqueue data, .ok _ => some data
  | _, _ => none

section Operations

variable {P : Platform} {i : Nat} {op : Op} {ch : Choice} {w w' : World} {r : op.Res}

/-- A drawn id is new, and remembered. -/
theorem exec_draw (h : exec P i op ch w = some (r, w')) {id : String}
    (hid : visitStep op r = some (.drew id)) : id ∉ w.drawn ∧ id ∈ w'.drawn := by
  rcases visitStep_inv hid with ⟨l, hl⟩ | ⟨_, n, hn⟩ | ⟨rfl, _, _⟩ | ⟨data, _, hdata⟩
  · cases hl
  · cases hn
  · simp only [exec] at h
    by_cases hd : ch.draw ∈ w.drawn
    · rw [if_pos hd] at h
      cases h
    · rw [if_neg hd] at h
      cases h
      cases hid
      exact ⟨hd, List.mem_cons_self⟩
  · cases hdata

/-- Only an enqueue changes the queue. -/
theorem exec_queue_eq (hop : ∀ data, op ≠ .enqueue data) (h : exec P i op ch w = some (r, w')) :
    w'.queue = w.queue := by
  -- One operation writes to the queue.
  cases op with
  | enqueue data => exact absurd rfl (hop data)
  | db s =>
      rcases exec_db_inv h with ⟨db, _, rfl⟩
      rfl
  | redis c => rw [(exec_redis_inv h).2]
  | randomUUID | randomState =>
      simp only [exec] at h
      by_cases hd : ch.draw ∈ w.drawn
      · rw [if_pos hd] at h
        cases h
      · rw [if_neg hd] at h
        cases h
        rfl
  | poolConnect | getToken code | verifyIdToken token =>
      simp only [exec] at h
      cases hf : ch.fault <;> rw [hf] at h <;> cases h <;> rfl
  | _ =>
      cases h
      rfl

/-- An enqueue adds its job or leaves the queue alone. -/
theorem exec_queue (h : exec P i op ch w = some (r, w')) :
    w'.queue = w.queue ∨ ∃ data, op = .enqueue data ∧ w'.queue = addJob data w.queue := by
  by_cases hop : ∃ data, op = .enqueue data
  · rcases hop with ⟨data, rfl⟩
    simp only [exec] at h
    cases hf : ch.fault <;> rw [hf] at h <;> cases h
    · exact Or.inr ⟨data, rfl, rfl⟩
    · exact Or.inl rfl
    · exact Or.inr ⟨data, rfl, rfl⟩
  · exact Or.inl (exec_queue_eq (fun data hdata => hop ⟨data, hdata⟩) h)

/-- An acknowledged enqueue added its job. -/
theorem exec_stored {data : ClickJobData} (h : exec P i op ch w = some (r, w'))
    (hstored : jobStored op r = some data) :
    op = .enqueue data ∧ w'.queue = addJob data w.queue := by
  cases op with
  | enqueue d =>
      rcases r with u | u
      · cases hstored
      · cases hstored
        simp only [exec] at h
        cases hf : ch.fault <;> rw [hf] at h <;> cases h
        exact ⟨rfl, rfl⟩
  | _ => cases hstored

theorem mem_addJob {data j : ClickJobData} {queue : List ClickJobData}
    (h : j ∈ addJob data queue) : j ∈ queue ∨ j = data := by
  unfold addJob at h
  split at h
  · exact Or.inl h
  · rcases List.mem_append.mp h with h | h
    · exact Or.inl h
    · exact Or.inr (List.mem_singleton.mp h)

theorem addJob_subset {data : ClickJobData} {queue : List ClickJobData} :
    ∀ j ∈ queue, j ∈ addJob data queue := by
  intro j hj
  unfold addJob
  split
  · exact hj
  · exact List.mem_append_left _ hj

theorem addJob_pairwise {data : ClickJobData} {queue : List ClickJobData}
    (h : queue.Pairwise (fun a b => a.clickId ≠ b.clickId)) :
    (addJob data queue).Pairwise (fun a b => a.clickId ≠ b.clickId) := by
  unfold addJob
  split
  · exact h
  · rename_i hnone
    rw [List.pairwise_append]
    refine ⟨h, List.pairwise_singleton _ _, fun a ha b hb heq => hnone ?_⟩
    rw [List.mem_singleton.mp hb] at heq
    rw [List.any_eq_true]
    exact ⟨a, ha, beq_iff_eq.mpr heq⟩

end Operations

/-- The invariant of the way from a request to the queue. -/
structure FlowInv (P : Platform) (st : Hist) : Prop where
  drawn : ∀ e ∈ st.log, ∀ id, visitStep e.op e.res = some (.drew id) → id ∈ st.world.drawn
  drawer : ∀ e ∈ st.log, ∀ e' ∈ st.log, ∀ id, visitStep e.op e.res = some (.drew id) →
    visitStep e'.op e'.res = some (.drew id) → e'.tid = e.tid
  sent : ∀ e ∈ st.log, ∀ data, visitStep e.op e.res = some (.enqueued data) →
    ∃ req, e.call = .visit req ∧ OwnClick P req (visitSteps (st.mine e.tid)) data
  held : ∀ data ∈ st.world.queue, ∃ e ∈ st.log, visitStep e.op e.res = some (.enqueued data)
  kept : ∀ e ∈ st.log, ∀ data, jobStored e.op e.res = some data → data ∈ st.world.queue
  queueKey : st.world.queue.Pairwise (fun a b => a.clickId ≠ b.clickId)

/-- Only visits enqueue, and only as `VisitReady` allows. -/
def flowPre (P : Platform) (st : Hist) (i : Nat) (call : Call) (op : Op) : Prop :=
  (∀ req, call = .visit req → VisitReady P req (visitSteps (st.mine i)) op) ∧
    ∀ data, op = .enqueue data → ∃ req, call = .visit req

def clickFlow (P : Platform) : Protocol Op Op.Res Err Reply Call Choice World Unit where
  toPolicy := Policy.free
  loc := fun _ _ => ()
  Inv := FlowInv P
  Pre := flowPre P
  Post := fun _ _ _ _ _ => True

section Flow

variable {P : Platform} {i : Nat} {call : Call} {st : Hist} {ch : Choice}

theorem enqueued_op {op : Op} {r : op.Res} {data : ClickJobData}
    (h : visitStep op r = some (.enqueued data)) : op = .enqueue data := by
  rcases visitStep_inv h with ⟨l, hl⟩ | ⟨_, n, hn⟩ | ⟨_, id, hid⟩ | ⟨d, rfl, hd⟩
  · cases hl
  · cases hn
  · cases hid
  · rw [VisitStep.enqueued.injEq] at hd
    rw [hd]

/-- A request's own click is still its own after another step of another
    request, or after it was enqueued. -/
theorem ownClick_append {req : VisitRequest} {s : List VisitStep} {data : ClickJobData}
    (h : OwnClick P req s data) (more : List VisitStep) : OwnClick P req (s ++ more) data := by
  rcases h with ⟨link, hpass, hlink, hid⟩
  exact ⟨link, passedLink_append hpass more, hlink, clickIdOf_append hid more⟩

/-- The event at which a request drew its click id. -/
theorem drew_event {id : String} {j : Nat} (h : clickIdOf (visitSteps (st.mine j)) = some id) :
    ∃ e ∈ st.log, e.tid = j ∧ visitStep e.op e.res = some (.drew id) := by
  rcases mem_visitSteps.mp (clickIdOf_drew h) with ⟨e, he, hstep⟩
  rcases State.mem_mine.mp he with ⟨hlog, htid⟩
  exact ⟨e, hlog, htid, hstep⟩

/-- What is sent has been drawn by the request that sent it, so no job with the
    click id of a request that has sent nothing is in the queue. -/
theorem no_job_before {data : ClickJobData} (hi : FlowInv P st)
    (hun : Unsent (visitSteps (st.mine i)))
    (hid : clickIdOf (visitSteps (st.mine i)) = some data.clickId) :
    ∀ j ∈ st.world.queue, j.clickId ≠ data.clickId := by
  intro j hj heq
  rcases hi.held j hj with ⟨e, he, hsent⟩
  rcases hi.sent e he j hsent with ⟨_, _, _, _, _, hjid⟩
  rcases drew_event hjid with ⟨d, hd, hdtid, hdrew⟩
  rcases drew_event hid with ⟨d', hd', hdtid', hdrew'⟩
  rw [heq] at hdrew
  have htid := hi.drawer d hd d' hd' data.clickId hdrew hdrew'
  have hmine : e ∈ st.mine i :=
    State.mem_mine.mpr ⟨he, hdtid.symm.trans (htid.symm.trans hdtid')⟩
  exact hun j (mem_visitSteps.mpr ⟨e, hmine, hsent⟩)

/-- Every operation, performed as its call may, keeps the invariant. -/
theorem flowInv_push {op : Op} {r : op.Res} {w : World} (hi : FlowInv P st)
    (hfits : st.Fits i call) (hpre : flowPre P st i call op)
    (hx : exec P i op ch st.world = some (r, w)) : FlowInv P (st.push i call op ch r w) where
  drawn := by
    intro e he id hid
    rcases List.mem_cons.mp he with rfl | he
    · exact (exec_draw hx hid).2
    · exact exec_drawn hx id (hi.drawn e he id hid)
  drawer := by
    intro e he e' he' id hid hid'
    rcases List.mem_cons.mp he with rfl | he
    · rcases List.mem_cons.mp he' with rfl | he'
      · rfl
      · exact absurd (hi.drawn e' he' id hid') (exec_draw hx hid).1
    · rcases List.mem_cons.mp he' with rfl | he'
      · exact absurd (hi.drawn e he id hid) (exec_draw hx hid').1
      · exact hi.drawer e he e' he' id hid hid'
  sent := by
    intro e he data hsent
    rcases List.mem_cons.mp he with rfl | he
    · have hop := enqueued_op hsent
      rcases hpre.2 data hop with ⟨req, hcall⟩
      refine ⟨req, hcall, ?_⟩
      rw [State.push_mine, visitSteps_cons]
      exact ownClick_append ((hpre.1 req hcall).own data hop) _
    · rcases hi.sent e he data hsent with ⟨req, hcall, hown⟩
      refine ⟨req, hcall, ?_⟩
      by_cases htid : e.tid = i
      · -- A request that has enqueued its click performs nothing more.
        have hreq : call = .visit req := (hfits.own e he htid).symm.trans hcall
        refine absurd ?_ ((hpre.1 req hreq).unsent data)
        exact mem_visitSteps.mpr ⟨e, State.mem_mine.mpr ⟨he, htid⟩, hsent⟩
      · rw [State.push_mine_other _ _ _ _ _ _ _ _ (Ne.symm htid)]
        exact hown
  held := by
    intro data hdata
    rw [State.push_world] at hdata
    have hold : ∀ j ∈ st.world.queue, ∃ e ∈ (st.push i call op ch r w).log,
        visitStep e.op e.res = some (.enqueued j) := by
      intro j hj
      rcases hi.held j hj with ⟨e, he, hsent⟩
      exact ⟨e, List.mem_cons_of_mem _ he, hsent⟩
    rcases exec_queue hx with hq | ⟨d, rfl, hq⟩ <;> rw [hq] at hdata
    · exact hold data hdata
    · rcases mem_addJob hdata with hmem | rfl
      · exact hold data hmem
      · exact ⟨_, List.mem_cons_self, rfl⟩
  kept := by
    intro e he data hstored
    rw [State.push_world]
    rcases List.mem_cons.mp he with rfl | hold
    · rcases exec_stored hx hstored with ⟨rfl, hq⟩
      rcases hpre.2 data rfl with ⟨req, hcall⟩
      have hready := hpre.1 req hcall
      rcases hready.own data rfl with ⟨_, _, _, hid⟩
      rw [hq]
      unfold addJob
      rw [if_neg ?_]
      · exact List.mem_append_right _ (List.mem_singleton_self data)
      · rw [List.any_eq_true]
        rintro ⟨j, hj, hjid⟩
        exact no_job_before hi hready.unsent hid j hj (beq_iff_eq.mp hjid)
    · have hmem := hi.kept e hold data hstored
      rcases exec_queue hx with hq | ⟨d, _, hq⟩ <;> rw [hq]
      · exact hmem
      · exact addJob_subset data hmem
  queueKey := by
    rw [State.push_world]
    rcases exec_queue hx with hq | ⟨d, _, hq⟩ <;> rw [hq]
    · exact hi.queueKey
    · exact addJob_pairwise hi.queueKey

theorem clickFlow_sound : Sound (clickScope P) (clickFlow P) where
  env := by
    intro st e w hi hw
    rcases env_inv hw with ⟨ms, rfl⟩
    exact ⟨hi.drawn, hi.drawer, hi.sent, hi.held, hi.kept, hi.queueKey⟩
  env_loc := fun _ _ _ _ _ => rfl
  reap := fun st i hi => ⟨hi.drawn, hi.drawer, hi.sent, hi.held, hi.kept, hi.queueKey⟩
  reap_loc := fun _ _ _ _ => rfl
  exec := fun st i call op ch r w hi hfits hpre _ hx => flowInv_push hi hfits hpre hx
  exec_loc := fun _ _ _ _ _ _ _ _ _ => rfl
  body := by
    intro st i call _ _ hmine _
    by_cases hcall : ∃ req, call = .visit req
    · -- A visit enqueues its click when it has passed the checks.
      rcases hcall with ⟨req, rfl⟩
      refine sat_map (visit_sat (fun st₁ op _ hready => ⟨?_, ?_⟩) hmine (fun _ _ _ => trivial))
      · intro req' hreq
        rw [Call.visit.injEq] at hreq
        rw [← hreq]
        exact hready
      · exact fun _ _ => ⟨req, rfl⟩
    · -- No other call enqueues anything.
      refine sat_performs (fun st₁ op _ hop => ⟨?_, ?_⟩) (fun _ _ => trivial)
      · exact fun req hreq => absurd ⟨req, hreq⟩ hcall
      · rintro data rfl
        rcases performs_enqueue hop with ⟨req, hreq⟩
        exact ⟨req, hreq⟩

end Flow

/-- The worker attempts only jobs the queue holds. -/
def fromQueue : Policy Op Op.Res Call Choice World where
  mayStart := fun st call => ∀ data, call = .processClickJob data → data ∈ st.world.queue
  mayDo := fun _ _ _ _ _ => True

/-- The click id thread `i` has drawn. -/
def drewId (c : Site) (i : Nat) : Option String := clickIdOf (visitSteps (c.state.mine i))

/-- Thread `i` is a visit that has passed the checks for the link. -/
def passedFor (P : Platform) (c : Site) (linkId : String) (i : Nat) : Bool :=
  match c.threads[i]? with
  | none => false
  | some t =>
      match t.call with
      | .visit req =>
          (passedLink P req (visitSteps (c.state.mine i))).any (fun link => link.id == linkId)
      | _ => false

/-- The visits that have passed the checks for a link. -/
def passes (P : Platform) (c : Site) (linkId : String) : List Nat :=
  (List.range c.threads.length).filter (passedFor P c linkId)

/-- The answer lets the visitor through. -/
def isRedirect : Except Err Reply → Bool
  | .ok (.response (.redirect _ _)) => true
  | _ => false

/-- Nothing is under way and nothing was lost, for the clicks of a link: every
    visit has been answered, no enqueue failed, and every job that is stored
    has been processed. -/
structure Drained (c : Site) (linkId : String) : Prop where
  answered : ∀ (i : Nat) (t : Task) (req : VisitRequest), c.threads[i]? = some t →
    t.call = .visit req → ∃ r, t.result = some r
  accepted : ∀ e ∈ c.state.log, ∀ data, e.op = .enqueue data → data.linkId = linkId →
    jobStored e.op e.res = some data
  processed : ∀ data ∈ c.state.world.queue, data.linkId = linkId →
    ∃ e ∈ c.state.log, Landed data e

section Results

variable {P : Platform} {w₀ : World} {c : Site}

theorem passedFor_iff {linkId : String} {i : Nat} :
    passedFor P c linkId i = true ↔ ∃ t req link, c.threads[i]? = some t ∧ t.call = .visit req ∧
      passedLink P req (visitSteps (c.state.mine i)) = some link ∧ link.id = linkId := by
  unfold passedFor
  constructor
  · intro h
    split at h
    · cases h
    · rename_i t ht
      split at h
      · rename_i req hcall
        rcases (Option.any_eq_true _ _).mp h with ⟨link, hlink, hid⟩
        exact ⟨t, req, link, ht, hcall, hlink, beq_iff_eq.mp hid⟩
      · cases h
  · rintro ⟨t, req, link, ht, hcall, hlink, hid⟩
    simp only [ht, hcall, hlink, Option.any_some, hid, beq_self_eq_true]

theorem mem_passes {linkId : String} {i : Nat} :
    i ∈ passes P c linkId ↔ passedFor P c linkId i = true := by
  unfold passes
  rw [List.mem_filter, List.mem_range, and_iff_right_iff_imp]
  intro h
  rcases passedFor_iff.mp h with ⟨t, _, _, ht, _⟩
  exact (List.getElem?_eq_some_iff.mp ht).1

theorem run_flowInv {π : Policy Op Op.Res Call Choice World} (hqueue : w₀.queue = [])
    (hc : Run (clickScope P) π w₀ c) : FlowInv P c.state := by
  have hfree : Run (clickScope P) (clickFlow P).toPolicy w₀ c :=
    hc.mono (fun _ _ _ _ => trivial) (fun _ _ _ _ _ _ _ _ => trivial)
  refine run_inv clickFlow_sound ?_ hfree
  exact
    { drawn := fun e he => by cases he
      drawer := fun e he => by cases he
      sent := fun e he => by cases he
      held := fun data hdata => by
        rw [hqueue] at hdata
        cases hdata
      kept := fun e he => by cases he
      queueKey := by
        rw [hqueue]
        exact List.Pairwise.nil }

/-- Every attempt of a run is at a job the queue holds. -/
theorem run_fromQueue (hc : Run (clickScope P) fromQueue w₀ c) :
    ∀ (i : Nat) (t : Task), c.threads[i]? = some t →
      ∀ data, t.call = .processClickJob data → data ∈ c.state.world.queue := by
  refine run_calls (q := fun (w : World) (call : Call) =>
    ∀ data, call = .processClickJob data → data ∈ w.queue) (fun _ _ h => h) ?_ ?_ ?_ hc
  · intro i op ch w r w' call hx h data hcall
    rcases exec_queue hx with hq | ⟨d, _, hq⟩ <;> rw [hq]
    · exact h data hcall
    · exact addJob_subset data (h data hcall)
  · intro e w w' call hw h
    rcases env_inv hw with ⟨ms, rfl⟩
    exact h
  · exact fun _ _ _ h => h

theorem fromQueue_clicksInv (hlinks : w₀.db.links = []) (hclicks : w₀.db.clicks = [])
    (htxs : w₀.db.txs = []) (hqueue : w₀.queue = []) (hc : Run (clickScope P) fromQueue w₀ c) :
    ClicksInv c.state := by
  refine run_clicksInv hlinks hclicks htxs (run_coherent ?_ hc)
  intro d hd i j t u data data' ht hu hcall hcall' hid
  exact key_unique (run_flowInv hqueue hd).queueKey (run_fromQueue hd j u hu data' hcall')
    (run_fromQueue hd i t ht data hcall) hid

/-- Two requests never draw the same click id. -/
theorem drewId_unique (hi : FlowInv P c.state) {i j : Nat} {id : String}
    (h : drewId c i = some id) (h' : drewId c j = some id) : j = i := by
  rcases drew_event h with ⟨e, he, htid, hdrew⟩
  rcases drew_event h' with ⟨e', he', htid', hdrew'⟩
  rw [← htid, ← htid']
  exact hi.drawer e he e' he' id hdrew hdrew'

/-- The request behind an enqueued job. -/
theorem job_visit (hc : Run (clickScope P) fromQueue w₀ c) (hi : FlowInv P c.state)
    {data : ClickJobData} (hdata : data ∈ c.state.world.queue) :
    ∃ i, drewId c i = some data.clickId ∧ passedFor P c data.linkId i = true := by
  rcases hi.held data hdata with ⟨e, he, hsent⟩
  rcases hi.sent e he data hsent with ⟨req, hcall, link, hpass, hlink, hid⟩
  rcases run_event_thread hc e he with ⟨t, ht, htcall⟩
  exact ⟨e.tid, hid, passedFor_iff.mpr ⟨t, req, link, ht, htcall.trans hcall, hpass, hlink.symm⟩⟩

/-- The request behind a click row. -/
theorem click_visit (hc : Run (clickScope P) fromQueue w₀ c) (hi : FlowInv P c.state)
    (hk : ClicksInv c.state) {k : ClickRow} (hmem : k ∈ c.state.world.db.clicks) :
    ∃ i, drewId c i = some k.jobId ∧ passedFor P c k.linkId i = true := by
  rcases hk.rows k hmem with ⟨e, he, data, hland, hjob⟩
  rcases run_event_thread hc e he with ⟨t, ht, hcall⟩
  have hdata := run_fromQueue hc e.tid t ht data (hcall.trans hland.1)
  rw [hjob.1, hjob.2]
  exact job_visit hc hi hdata

/-- Once nothing is under way and nothing was lost, every request that has
    passed for an existing link has its row. -/
theorem pass_click {π : Policy Op Op.Res Call Choice World} (hc : Run (clickScope P) π w₀ c)
    (hi : FlowInv P c.state) (hk : ClicksInv c.state) {linkId : String}
    (hlink : c.state.world.db.HasLink linkId) (hdrained : Drained c linkId) {i : Nat}
    (h : passedFor P c linkId i = true) :
    ∃ k ∈ c.state.world.db.clicks, drewId c i = some k.jobId ∧ k.linkId = linkId := by
  rcases passedFor_iff.mp h with ⟨t, req, link, ht, hcall, hpass, hid⟩
  rcases hdrained.answered i t req ht hcall with ⟨r, hr⟩
  have hpost := run_visit hc ht hcall hr
  have hsent : ∃ data, data.linkId = linkId ∧ drewId c i = some data.clickId ∧
      .enqueued data ∈ visitSteps (c.state.mine i) := by
    unfold visitPost at hpost
    split at hpost
    · rcases hpost with ⟨link', data, hpass', _, hlink', hdrew, hmem⟩
      rw [hpass, Option.some.injEq] at hpass'
      rw [← hpass', hid] at hlink'
      exact ⟨data, hlink', hdrew, hmem⟩
    · rw [hpost.1] at hpass
      cases hpass
  rcases hsent with ⟨data, hdata, hdrew, hmem⟩
  -- The job it enqueued was accepted, delivered, and has landed.
  rcases mem_visitSteps.mp hmem with ⟨e, he, hstep⟩
  have hlog := (State.mem_mine.mp he).1
  have hqueued := hi.kept e hlog data (hdrained.accepted e hlog data (enqueued_op hstep) hdata)
  rcases hdrained.processed data hqueued hdata with ⟨e', he', hland⟩
  rcases (hk.landed e' he' data hland).2 (hdata ▸ hlink) with ⟨k, hkmem, hjob, hklink⟩
  exact ⟨k, hkmem, by rw [hdrew, hjob], hklink.trans hdata⟩

/-- The rows of a link are no more than the requests that passed for it. -/
theorem clicks_le_passes (hc : Run (clickScope P) fromQueue w₀ c) (hi : FlowInv P c.state)
    (hk : ClicksInv c.state) (linkId : String) :
    c.state.world.db.clicksOf linkId ≤ (passes P c linkId).length := by
  have hnodup : ((c.state.world.db.clicks.filter (fun k => k.linkId == linkId)).map
      (fun k => some k.jobId)).Nodup := by
    rw [List.Nodup, List.pairwise_map]
    exact (hk.ok.jobKey.sublist List.filter_sublist).imp
      (fun hne heq => hne (Option.some.inj heq))
  have hsub : (c.state.world.db.clicks.filter (fun k => k.linkId == linkId)).map
      (fun k => some k.jobId) ⊆ (passes P c linkId).map (drewId c) := by
    intro x hx
    rcases List.mem_map.mp hx with ⟨k, hkmem, rfl⟩
    rcases List.mem_filter.mp hkmem with ⟨hkmem, hlink⟩
    rcases click_visit hc hi hk hkmem with ⟨i, hdrew, hpass⟩
    rw [beq_iff_eq.mp hlink] at hpass
    exact List.mem_map.mpr ⟨i, mem_passes.mpr hpass, hdrew⟩
  have hle := (hnodup.subperm hsub).length_le
  rw [List.length_map, List.length_map] at hle
  exact hle

/-- Nor are they fewer once nothing is under way and nothing was lost. -/
theorem passes_le_clicks {π : Policy Op Op.Res Call Choice World} (hc : Run (clickScope P) π w₀ c)
    (hi : FlowInv P c.state) (hk : ClicksInv c.state) {linkId : String}
    (hlink : c.state.world.db.HasLink linkId) (hdrained : Drained c linkId) :
    (passes P c linkId).length ≤ c.state.world.db.clicksOf linkId := by
  have hnodup : ((passes P c linkId).map (drewId c)).Nodup := by
    refine List.Nodup.map_on (fun i hpass j _ heq => ?_) (List.nodup_range.filter _)
    rcases pass_click hc hi hk hlink hdrained (mem_passes.mp hpass) with ⟨k, _, hdrew, _⟩
    exact (drewId_unique hi hdrew (heq.symm.trans hdrew)).symm
  have hsub : (passes P c linkId).map (drewId c) ⊆
      (c.state.world.db.clicks.filter (fun k => k.linkId == linkId)).map
        (fun k => some k.jobId) := by
    intro x hx
    rcases List.mem_map.mp hx with ⟨i, hpass, rfl⟩
    rcases pass_click hc hi hk hlink hdrained (mem_passes.mp hpass) with ⟨k, hkmem, hdrew, hklink⟩
    exact List.mem_map.mpr
      ⟨k, List.mem_filter.mpr ⟨hkmem, beq_iff_eq.mpr hklink⟩, hdrew.symm⟩
  have hle := (hnodup.subperm hsub).length_le
  rw [List.length_map, List.length_map] at hle
  exact hle

end Results

def sampleVisit : VisitRequest :=
  { shortCode := "abcdefg", cookie := none, referrer := none, userAgent := none }

/-- The action starts no job but one the queue holds. -/
def startsQueued (c : Site) : Action Call EnvStep Choice → Bool
  | .spawn (.processClickJob data) => decide (data ∈ c.state.world.queue)
  | _ => true

theorem startsQueued_permits (c : Site) (a : Action Call EnvStep Choice)
    (h : startsQueued c a = true) : fromQueue.permits c a := by
  cases a with
  | spawn call =>
      rintro data rfl
      simp only [startsQueued, decide_eq_true_eq] at h
      exact h
  | run i ch => exact fun _ _ _ _ _ => trivial
  | _ => trivial

end ClickScope
