import ClickScope.Theory.Rules

/-!
# What a Visit Did

The `GET` of a short code, read off its events.

A visit looks the link up, reads the clock for the dead states, reads it again
for the grant if the link has a password, and then draws a click id and
enqueues the click. `visitSteps` is that sequence as far as a request has got,
and `passedLink` decides from it whether the request has passed the checks, and
for which link. Both are functions of the events, so a statement about a
request in the middle of a run can count it as passed or not.

`visit_sat` connects them with the program. A request that answers with a
redirect has passed, and enqueued one click for the link it passed for under
the id it drew. A request that answers with anything else has not passed, and
has neither drawn an id nor enqueued anything. It holds under any protocol
whose obligations at each operation follow from `VisitReady`.

## Main definitions

* `VisitStep`, `visitSteps`: What a visit did, oldest first.
* `passedLink`: The link a visit has passed the checks for.
* `clickIdOf`: The click id it drew.
* `visitPost`: What an answer says about the steps before it.

## Theorems

* `visit_sat`: The program of a visit meets `visitPost`.
* `run_visit`: An answered visit of any run.
-/

namespace ClickScope

open Async

/-- One step of a visit that a later one depends on. -/
inductive VisitStep : Type
  | looked (link : RedirectLink)
  | read (now : Nat)
  | drew (id : String)
  | enqueued (data : ClickJobData)
deriving DecidableEq, Repr

def visitStep : (op : Op) → op.Res → Option VisitStep
  | .redis (.get _), .ok (some (.link l)) => some (.looked l)
  | .db (.redirectLookup _), .ok rows => rows.head?.map (fun row => .looked (toRedirectLink row))
  | .dateNow, now => some (.read now)
  | .randomUUID, id => some (.drew id)
  | .enqueue data, _ => some (.enqueued data)
  | _, _ => none

/-- Which operation a step is. -/
theorem visitStep_inv {op : Op} {r : op.Res} {s : VisitStep} (h : visitStep op r = some s) :
    (∃ link, s = .looked link) ∨ (op = .dateNow ∧ ∃ now, s = .read now) ∨
      (op = .randomUUID ∧ ∃ id, s = .drew id) ∨
      ∃ data, op = .enqueue data ∧ s = .enqueued data := by
  cases op with
  | dateNow => exact Or.inr (Or.inl ⟨rfl, r, (Option.some.inj h).symm⟩)
  | randomUUID => exact Or.inr (Or.inr (Or.inl ⟨rfl, r, (Option.some.inj h).symm⟩))
  | enqueue data => exact Or.inr (Or.inr (Or.inr ⟨data, rfl, (Option.some.inj h).symm⟩))
  | db stmt =>
      cases stmt with
      | redirectLookup code =>
          rcases r with e | rows
          · cases h
          · rcases Option.map_eq_some_iff.mp h with ⟨row, _, rfl⟩
            exact Or.inl ⟨_, rfl⟩
      | _ => cases h
  | redis c =>
      cases c with
      | get key =>
          -- Only a cached link is a look at one: a miss and a foreign value are not.
          rcases r with e | _ | _ | l | _
          · cases h
          · cases h
          · cases h
          · exact Or.inl ⟨l, (Option.some.inj h).symm⟩
          · cases h
      | _ => cases h
  | _ => cases h

/-- The steps among some events, oldest first. -/
def visitSteps (l : List Ev) : List VisitStep :=
  l.reverse.filterMap (fun e => visitStep e.op e.res)

theorem visitSteps_cons (e : Ev) (l : List Ev) :
    visitSteps (e :: l) = visitSteps l ++ (visitStep e.op e.res).toList := by
  unfold visitSteps
  rw [List.reverse_cons, List.filterMap_append]
  rcases h : visitStep e.op e.res with _ | s <;>
    simp only [List.filterMap_cons, h, List.filterMap_nil, Option.toList]

theorem mem_visitSteps {s : VisitStep} {l : List Ev} :
    s ∈ visitSteps l ↔ ∃ e ∈ l, visitStep e.op e.res = some s := by
  simp only [visitSteps, List.mem_filterMap, List.mem_reverse]

/-- The link whose checks the steps have passed, if they have: not dead when
    the clock was first read, and either without a password or unlocked when it
    was read again. -/
def passedLink (P : Platform) (req : VisitRequest) : List VisitStep → Option RedirectLink
  | .looked link :: .read now :: rest =>
      if (deadStateError now link).isSome then none
      else
        match truthy link.passwordHash with
        | none => some link
        | some _ =>
            match rest with
            | .read now' :: _ =>
                match unlocked P now' req link with
                | .ok true => some link
                | _ => none
            | _ => none
  | _ => none

/-- The click id drawn in the steps. -/
def clickIdOf (s : List VisitStep) : Option String :=
  s.findSome? (fun x => match x with
    | .drew id => some id
    | _ => none)

theorem passedLink_grant {P : Platform} {req : VisitRequest} {link : RedirectLink}
    {now now' : Nat} {hash : String} (hlive : deadStateError now link = none)
    (ht : truthy link.passwordHash = some hash) (rest : List VisitStep) :
    passedLink P req (.looked link :: .read now :: .read now' :: rest) =
      match unlocked P now' req link with
      | .ok true => some link
      | _ => none := by
  simp only [passedLink, hlive, Option.isSome_none, Bool.false_eq_true, if_false, ht]

/-- Further steps do not take a pass back. -/
theorem passedLink_append {P : Platform} {req : VisitRequest} {s : List VisitStep}
    {link : RedirectLink} (h : passedLink P req s = some link) (more : List VisitStep) :
    passedLink P req (s ++ more) = some link := by
  rcases s with _ | ⟨x, _ | ⟨y, rest⟩⟩
  · cases h
  · cases x <;> cases h
  · cases x with
    | looked l =>
        cases y with
        | read now =>
            simp only [List.cons_append, passedLink] at h ⊢
            by_cases hdead : (deadStateError now l).isSome = true
            · rw [if_pos hdead] at h
              cases h
            · rw [if_neg hdead] at h ⊢
              -- The gate looks at the first steps only.
              rcases ht : truthy l.passwordHash with _ | hash
              · simp only [ht] at h ⊢
                exact h
              · simp only [ht] at h ⊢
                rcases rest with _ | ⟨z, rest⟩
                · cases h
                · cases z <;> exact h
        | _ => cases h
    | _ => cases h

/-- What a pass rests on. -/
theorem passedLink_inv {P : Platform} {req : VisitRequest} {s : List VisitStep}
    {link : RedirectLink} (h : passedLink P req s = some link) :
    .looked link ∈ s ∧ (truthy link.passwordHash = none ∨
      ∃ now, .read now ∈ s ∧ unlocked P now req link = .ok true) := by
  rcases s with _ | ⟨x, _ | ⟨y, rest⟩⟩
  · cases h
  · cases x <;> cases h
  · cases x with
    | looked l =>
        cases y with
        | read now =>
            simp only [passedLink] at h
            by_cases hdead : (deadStateError now l).isSome = true
            · rw [if_pos hdead] at h
              cases h
            · rw [if_neg hdead] at h
              -- A link with a password is only passed after a second look at the clock.
              rcases ht : truthy l.passwordHash with _ | hash
              · simp only [ht, Option.some.injEq] at h
                subst h
                exact ⟨List.mem_cons_self, Or.inl ht⟩
              · simp only [ht] at h
                rcases rest with _ | ⟨z, rest⟩
                · cases h
                · cases z with
                  | read now' =>
                      rcases hu : unlocked P now' req l with e | _ | _
                      · simp only [hu, reduceCtorEq] at h
                      · simp only [hu, reduceCtorEq] at h
                      · simp only [hu, Option.some.injEq] at h
                        subst h
                        refine ⟨List.mem_cons_self, Or.inr ⟨now', ?_, hu⟩⟩
                        exact List.mem_cons_of_mem _ (List.mem_cons_of_mem _ List.mem_cons_self)
                  | _ => cases h
        | _ => cases h
    | _ => cases h

theorem clickIdOf_append {s : List VisitStep} {id : String} (h : clickIdOf s = some id)
    (more : List VisitStep) : clickIdOf (s ++ more) = some id := by
  unfold clickIdOf at h ⊢
  rw [List.findSome?_append, h, Option.some_or]

theorem clickIdOf_drew {s : List VisitStep} {id : String} (h : clickIdOf s = some id) :
    .drew id ∈ s := by
  rcases List.exists_of_findSome?_eq_some h with ⟨x, hx, hid⟩
  cases x with
  | drew id' =>
      rw [Option.some.injEq] at hid
      rw [← hid]
      exact hx
  | _ => cases hid

/-- The steps have enqueued nothing. -/
def Unsent (s : List VisitStep) : Prop := ∀ data, .enqueued data ∉ s

/-- The steps of a request that is not let through. -/
def NotPassed (P : Platform) (req : VisitRequest) (s : List VisitStep) : Prop :=
  passedLink P req s = none ∧ clickIdOf s = none ∧ Unsent s

/-- The job a request that has passed enqueues. -/
def OwnClick (P : Platform) (req : VisitRequest) (s : List VisitStep) (data : ClickJobData) :
    Prop :=
  ∃ link, passedLink P req s = some link ∧ data.linkId = link.id ∧ clickIdOf s = some data.clickId

/-- What holds whenever a visit performs an operation: it has not enqueued its
    click yet, it enqueues no other, and what it stores in the cache is what it
    has looked up. -/
structure VisitReady (P : Platform) (req : VisitRequest) (s : List VisitStep) (op : Op) :
    Prop where
  performs : lookupOp req.shortCode op ∨ clickOp op
  unsent : Unsent s
  own : ∀ data, op = .enqueue data → OwnClick P req s data
  stores : ∀ key link ex, op = .redis (.set key (.link link) ex) → .looked link ∈ s

/-- What an answer says about the steps before it. -/
def visitPost (P : Platform) (req : VisitRequest) (s : List VisitStep) : Except Err Reply → Prop
  | .ok (.response (.redirect location _)) => ∃ link data, passedLink P req s = some link ∧
      location = link.destinationUrl ∧ data.linkId = link.id ∧
      clickIdOf s = some data.clickId ∧ .enqueued data ∈ s
  | _ => NotPassed P req s

/-- The steps of a lookup. -/
def lookedSteps : Except Err (Option RedirectLink) → List VisitStep
  | .ok (some link) => [.looked link]
  | _ => []

/-- What the cache answers is what the lookup sees. -/
theorem cachedOf_cases {key : String} (r : (Op.redis (.get key)).Res) :
    (∃ link, cachedOf r = .found link ∧
      (visitStep (.redis (.get key)) r).toList = lookedSteps (.ok link)) ∨
    (cachedOf r = .notFound ∧ visitStep (.redis (.get key)) r = none) := by
  rcases r with e | _ | _ | l | _
  · exact Or.inr ⟨rfl, rfl⟩
  · exact Or.inr ⟨rfl, rfl⟩
  · exact Or.inl ⟨none, rfl, rfl⟩
  · exact Or.inl ⟨some l, rfl, rfl⟩
  · exact Or.inr ⟨rfl, rfl⟩

theorem visitStep_fill {shortCode : String} {link : Option RedirectLink}
    (r : (Op.redis (fillCmd shortCode link)).Res) :
    visitStep (.redis (fillCmd shortCode link)) r = none := by
  cases link <;> rfl

/-- The lookup stores what it has found. -/
theorem ready_fill {P : Platform} {req : VisitRequest} (link : Option RedirectLink) :
    VisitReady P req (lookedSteps (.ok link)) (.redis (fillCmd req.shortCode link)) := by
  refine ⟨Or.inl ?_, fun data hmem => ?_, fun data hdata => ?_, fun key l ex hset => ?_⟩
  · cases link <;> rfl
  · rcases link with _ | l
    · cases hmem
    · rw [lookedSteps, List.mem_singleton] at hmem
      cases hmem
  · cases link <;> cases hdata
  · cases link <;> cases hset
    exact List.mem_singleton_self _

/-- Reading the clock and drawing an id only take that nothing was sent. -/
theorem ready_click {P : Platform} {req : VisitRequest} {s : List VisitStep} {op : Op}
    (hop : clickOp op) (hun : Unsent s) (hno : ∀ data, op ≠ .enqueue data) :
    VisitReady P req s op := by
  refine ⟨Or.inr hop, hun, fun data hdata => absurd hdata (hno data), fun key l ex hset => ?_⟩
  rw [hset] at hop
  cases hop

section Programs

variable {P : Platform} {L : Type} {Q : Protocol Op Op.Res Err Reply Call Choice World L}
  {i : Nat} {call : Call} {req : VisitRequest} {st : Hist}

/-- The lookup of a visit. -/
theorem lookup_visit_sat (req : VisitRequest)
    {Post : Except Err (Option RedirectLink) → Hist → Prop}
    (hpre : ∀ st₁ op, Q.Inv st₁ → VisitReady P req (visitSteps (st₁.mine i)) op →
      Q.Pre st₁ i call op)
    (hnil : visitSteps (st.mine i) = [])
    (hpost : ∀ r st', visitSteps (st'.mine i) = lookedSteps r → Post r st') :
    Sat (clickScope P) Q i call Post (getLinkByShortCode req.shortCode) st := by
  have hempty : ∀ op, lookupOp req.shortCode op → (∀ key link ex,
      op ≠ .redis (.set key (.link link) ex)) → VisitReady P req [] op := by
    intro op hop hset
    refine ⟨Or.inl hop, fun _ h => (by cases h), fun data hdata => ?_,
      fun key link ex h => absurd h (hset _ _ _)⟩
    rw [hdata] at hop
    cases hop
  refine sat_bind _ _ (getCachedLink_sat fun st₁ hl hi _ => ?_)
  have hnil₁ : visitSteps (st₁.mine i) = [] := by rw [hl.mine_eq, hnil]
  refine ⟨hpre st₁ _ hi (hnil₁ ▸ hempty _ rfl fun _ _ _ h => by cases h), fun ch r _ _ => ?_⟩
  rcases cachedOf_cases r with ⟨link, hc, hstep⟩ | ⟨hc, hstep⟩
  · -- A cached answer, of a link or of a miss.
    rw [hc]
    refine hpost _ _ ?_
    rw [State.push_mine, visitSteps_cons, hnil₁, List.nil_append]
    exact hstep
  · rw [hc]
    refine sat_bind _ _ (sat_query fun st₂ hl₂ hi₂ _ => ?_)
    have hnil₂ : visitSteps (st₂.mine i) = [] := by
      rw [hl₂.mine_eq, State.push_mine, visitSteps_cons, hnil₁, hstep]
      rfl
    refine ⟨hpre st₂ _ hi₂ (hnil₂ ▸ hempty _ rfl fun _ _ _ h => by cases h),
      fun ch₂ r₂ db _ _ => ?_⟩
    cases r₂ with
    | error e =>
        refine hpost _ _ ?_
        rw [State.push_mine, visitSteps_cons, hnil₂]
        rfl
    | ok rows =>
        have hlooked : ∀ st₃ : Hist, Later Q.loc i (st₂.push i call
            (.db (.redirectLookup req.shortCode)) ch₂ (.ok rows) { st₂.world with db := db }) st₃ →
            visitSteps (st₃.mine i) = lookedSteps (.ok (rows.head?.map toRedirectLink)) := by
          intro st₃ hl₃
          rw [hl₃.mine_eq, State.push_mine, visitSteps_cons, hnil₂]
          cases hrow : rows.head? <;>
            simp only [visitStep, hrow, Option.map_none, Option.map_some, Option.toList,
              List.nil_append, lookedSteps]
        refine sat_bind _ _ (fillCache_sat fun st₃ hl₃ hi₃ _ => ?_)
        refine ⟨hpre st₃ _ hi₃ ?_, fun ch₃ r₃ s _ _ => ?_⟩
        · rw [hlooked st₃ hl₃]
          exact ready_fill _
        · refine hpost _ _ ?_
          rw [State.push_mine, visitSteps_cons, hlooked st₃ hl₃]
          simp only [visitStep_fill, Option.toList, List.append_nil]

/-- The lookup and the check of the dead states. -/
theorem liveLink_visit_sat (req : VisitRequest) {Post : Except Err RedirectLink → Hist → Prop}
    (hpre : ∀ st₁ op, Q.Inv st₁ → VisitReady P req (visitSteps (st₁.mine i)) op →
      Q.Pre st₁ i call op)
    (hnil : visitSteps (st.mine i) = [])
    (hthrow : ∀ e st', NotPassed P req (visitSteps (st'.mine i)) → Post (.error e) st')
    (hlive : ∀ link now st', visitSteps (st'.mine i) = [.looked link, .read now] →
      deadStateError now link = none → Post (.ok link) st') :
    Sat (clickScope P) Q i call Post (liveLink req.shortCode) st := by
  refine sat_bind _ _ (lookup_visit_sat req hpre hnil fun r st₁ hr => ?_)
  have hempty : NotPassed P req [] := ⟨rfl, rfl, fun _ h => by cases h⟩
  rcases r with e | _ | link
  · -- A lookup that fails or finds nothing leaves no step behind.
    exact hthrow _ _ (hr ▸ hempty)
  · exact hthrow _ _ (hr ▸ hempty)
  · simp only [lookedSteps] at hr
    refine sat_bind _ _ (sat_perform fun st₂ hl₂ hi₂ _ => ?_)
    have hr₂ : visitSteps (st₂.mine i) = [.looked link] := by rw [hl₂.mine_eq, hr]
    refine ⟨hpre st₂ _ hi₂ (ready_click trivial ?_ fun _ h => by cases h), fun ch now w _ _ => ?_⟩
    · rw [hr₂]
      intro data hmem
      rw [List.mem_singleton] at hmem
      cases hmem
    · have hr₃ : visitSteps ((st₂.push i call .dateNow ch now w).mine i)
          = [.looked link, .read now] := by
        rw [State.push_mine, visitSteps_cons, hr₂]
        rfl
      rcases hdead : deadStateError now link with _ | e
      · simp only [thenSat_ok, hdead]
        exact hlive link now _ hr₃ hdead
      · simp only [thenSat_ok, hdead]
        refine hthrow _ _ ?_
        rw [hr₃]
        refine ⟨?_, rfl, fun data hmem => ?_⟩
        · simp only [passedLink, hdead, Option.isSome_some, if_true]
        · simp only [List.mem_cons, reduceCtorEq, List.not_mem_nil, or_self] at hmem

/-- The end of a visit that has passed. -/
theorem recordAndRedirect_sat {Post : Except Err Response → Hist → Prop} {link : RedirectLink}
    (hpre : ∀ st₁ op, Q.Inv st₁ → VisitReady P req (visitSteps (st₁.mine i)) op →
      Q.Pre st₁ i call op)
    (hpass : passedLink P req (visitSteps (st.mine i)) = some link)
    (hid : clickIdOf (visitSteps (st.mine i)) = none) (hun : Unsent (visitSteps (st.mine i)))
    (hpost : ∀ r st', visitPost P req (visitSteps (st'.mine i)) (r.map .response) → Post r st') :
    Sat (clickScope P) Q i call Post (recordAndRedirect req link) st := by
  refine sat_bind _ _ (sat_perform fun st₁ hl hi _ => ?_)
  refine ⟨hpre st₁ _ hi (ready_click trivial (hl.mine_eq ▸ hun) fun _ h => by cases h),
    fun ch id w _ _ => ?_⟩
  have hs₁ : visitSteps ((st₁.push i call .randomUUID ch id w).mine i)
      = visitSteps (st.mine i) ++ [.drew id] := by
    rw [State.push_mine, visitSteps_cons, hl.mine_eq]
    rfl
  have hid₁ : clickIdOf (visitSteps (st.mine i) ++ [.drew id]) = some id := by
    unfold clickIdOf at hid ⊢
    rw [List.findSome?_append, hid]
    rfl
  refine sat_bind _ _ (sat_tryCatch _ _ ?_)
  intro st₂ hl₂ hi₂ _
  have hs₂ := (congrArg visitSteps hl₂.mine_eq).trans hs₁
  refine ⟨hpre st₂ _ hi₂ ⟨Or.inr trivial, ?_, ?_, fun _ _ _ h => by cases h⟩,
    fun ch₂ r w₂ _ _ => ?_⟩
  · rw [hs₂]
    intro data hmem
    rcases List.mem_append.mp hmem with hmem | hmem
    · exact hun data hmem
    · rw [List.mem_singleton] at hmem
      cases hmem
  · intro data hdata
    rw [Op.enqueue.injEq] at hdata
    rw [hs₂, ← hdata]
    exact ⟨link, passedLink_append hpass _, rfl, hid₁⟩
  · -- A failed enqueue is swallowed, so either way the answer is the redirect.
    have hend : ∀ data, visitSteps ((st₂.push i call (.enqueue data) ch₂ r w₂).mine i)
        = visitSteps (st.mine i) ++ [.drew id] ++ [.enqueued data] := by
      intro data
      rw [State.push_mine, visitSteps_cons, hs₂]
      rfl
    cases r <;>
    · refine hpost _ _ ⟨link,
        { clickId := id, linkId := link.id, shortCode := req.shortCode,
          referrer := req.referrer, userAgent := req.userAgent }, ?_, rfl, rfl, ?_, ?_⟩
      · rw [hend]
        exact passedLink_append (passedLink_append hpass _) _
      · rw [hend]
        exact clickIdOf_append hid₁ _
      · rw [hend]
        exact List.mem_append_right _ (List.mem_singleton_self _)

/-- A visit answers with a redirect when it has passed the checks, having
    enqueued its click, and refuses otherwise. -/
theorem visit_sat {Post : Except Err Response → Hist → Prop}
    (hpre : ∀ st₁ op, Q.Inv st₁ → VisitReady P req (visitSteps (st₁.mine i)) op →
      Q.Pre st₁ i call op)
    (hmine : st.mine i = [])
    (hpost : ∀ r st', visitPost P req (visitSteps (st'.mine i)) (r.map .response) → Post r st') :
    Sat (clickScope P) Q i call Post (visit P req) st := by
  have hnil : visitSteps (st.mine i) = [] := by rw [hmine]; rfl
  refine sat_bind _ _ (liveLink_visit_sat req hpre hnil (fun e st' h => hpost _ _ h) ?_)
  intro link now st₁ hs hlive
  -- Nothing is enqueued before the end.
  have hun : ∀ l : List VisitStep, (∀ x ∈ l, ∀ data, x ≠ .enqueued data) → Unsent l :=
    fun l h data hmem => h _ hmem data rfl
  -- A link without a password asks for no token, and its visit reads the clock once.
  rcases ht : truthy link.passwordHash with _ | hash
  · simp only [thenSat_ok, ht]
    refine recordAndRedirect_sat hpre ?_ ?_ (hun _ ?_) hpost <;> rw [hs]
    · simp only [passedLink, hlive, Option.isSome_none, Bool.false_eq_true, if_false, ht]
    · rfl
    · simp only [List.mem_cons, List.not_mem_nil, or_false, forall_eq_or_imp, forall_eq, ne_eq,
        reduceCtorEq, not_false_eq_true, implies_true, and_self]
  · simp only [thenSat_ok, ht]
    refine sat_bind _ _ (sat_perform fun st₂ hl₂ hi₂ _ => ?_)
    have hs₂ : visitSteps (st₂.mine i) = [.looked link, .read now] := by rw [hl₂.mine_eq, hs]
    refine ⟨hpre st₂ _ hi₂ (ready_click trivial ?_ fun _ h => by cases h), fun ch now' w _ _ => ?_⟩
    · rw [hs₂]
      refine hun _ ?_
      simp only [List.mem_cons, List.not_mem_nil, or_false, forall_eq_or_imp, forall_eq, ne_eq,
        reduceCtorEq, not_false_eq_true, implies_true, and_self]
    · have hs₃ : visitSteps ((st₂.push i call .dateNow ch now' w).mine i)
          = [.looked link, .read now, .read now'] := by
        rw [State.push_mine, visitSteps_cons, hs₂]
        rfl
      have hun₃ : Unsent [.looked link, .read now, .read now'] := by
        refine hun _ ?_
        simp only [List.mem_cons, List.not_mem_nil, or_false, forall_eq_or_imp, forall_eq, ne_eq,
          reduceCtorEq, not_false_eq_true, implies_true, and_self]
      have hpassed : passedLink P req [.looked link, .read now, .read now'] = _ :=
        passedLink_grant hlive ht []
      rcases hu : unlocked P now' req link with e | _ | _
      · simp only [thenSat_ok, hu]
        refine hpost _ _ ?_
        rw [hs₃]
        exact ⟨by rw [hpassed, hu], rfl, hun₃⟩
      · simp only [thenSat_ok, hu]
        refine hpost _ _ ?_
        rw [hs₃]
        exact ⟨by rw [hpassed, hu], rfl, hun₃⟩
      · simp only [thenSat_ok, hu]
        refine recordAndRedirect_sat hpre ?_ ?_ ?_ hpost <;> rw [hs₃]
        · rw [hpassed, hu]
        · rfl
        · exact hun₃

end Programs

/-- The protocol that only records how visits end. -/
def visits (P : Platform) : Protocol Op Op.Res Err Reply Call Choice World Unit where
  toPolicy := Policy.free
  loc := fun _ _ => ()
  Inv := fun _ => True
  Pre := fun _ _ _ _ => True
  Post := fun i call _ r st => ∀ req, call = .visit req → visitPost P req (visitSteps (st.mine i)) r

theorem visits_sound (P : Platform) : Sound (clickScope P) (visits P) where
  env := fun _ _ _ _ _ => trivial
  env_loc := fun _ _ _ _ _ => rfl
  reap := fun _ _ _ => trivial
  reap_loc := fun _ _ _ _ => rfl
  exec := fun _ _ _ _ _ _ _ _ _ _ _ _ => trivial
  exec_loc := fun _ _ _ _ _ _ _ _ _ => rfl
  body := by
    intro st i call _ _ hmine _
    by_cases hcall : ∃ req, call = .visit req
    · rcases hcall with ⟨req, rfl⟩
      refine sat_map (visit_sat (fun _ _ _ _ => trivial) hmine fun r st' hr => ?_)
      intro req' hreq
      rw [Call.visit.injEq] at hreq
      rw [← hreq]
      exact hr
    · exact sat_performs (fun _ _ _ _ => trivial) (fun _ _ req hreq => absurd ⟨req, hreq⟩ hcall)

/-- How an answered visit ended, in any run. -/
theorem run_visit {P : Platform} {π : Policy Op Op.Res Call Choice World} {w₀ : World} {c : Site}
    (hc : Run (clickScope P) π w₀ c) {i : Nat} {t : Task} {req : VisitRequest}
    (ht : c.threads[i]? = some t) (hcall : t.call = .visit req) {r : Except Err Reply}
    (hr : t.result = some r) : visitPost P req (visitSteps (c.state.mine i)) r := by
  have hfree : Run (clickScope P) (visits P).toPolicy w₀ c :=
    hc.mono (fun _ _ _ _ => trivial) (fun _ _ _ _ _ _ _ _ => trivial)
  rcases run_result (visits_sound P) trivial hfree ht hr with ⟨_, st₁, _, _, _, _, hmine, hpost⟩
  rw [← hmine]
  exact hpost req hcall

end ClickScope
