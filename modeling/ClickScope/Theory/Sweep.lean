import ClickScope.Theory.Handlers
import ClickScope.Theory.SweptRows

/-!
# The Expiry Sweep

What a visitor can see of the scheduled sweep.

A timeline is a sequence of link calls, each run to its end, with time passing
in between and sweeps inserted anywhere. The same timeline is run a second time
without its sweeps, and the two are compared by what a `GET` evaluated on the
row comes to, for every request and at every moment.

The two runs stay related by `SweptDb` as long as no partial update revives a
row the sweep has marked, which is the condition of `sweep_invisible`. An update
that does so parts the two runs at once: without the sweep the link redirects
again, with it the link stays deactivated.

## Main definitions

* `outcome`: What a `GET` comes to on the row.
* `LinkCall`, `Moment`: The steps of a timeline.
* `runAll`, `unswept`: A timeline, and the same one without sweeps.
* `Meets`: The condition on an update.

## Theorems

* `visit_outcome`: The handler comes to the outcome of the row it reads.
* `sweep_invisible`: Under the condition no sweep changes an outcome.
* `sweep_visible`: An extended link that stays deactivated.
-/

namespace ClickScope

open Async

/-- The outcome classes of a `GET`. -/
inductive Outcome : Type
  | redirect
  | interstitial
  | notFound
  | gone
  | failed
deriving DecidableEq, Repr

/-- The outcome for a link that was looked up, or for none. -/
def linkOutcome (P : Platform) (now : Nat) (req : VisitRequest) : Option RedirectLink → Outcome
  | none => .notFound
  | some link =>
      if (deadStateError now link).isSome then .gone
      else
        match truthy link.passwordHash with
        | none => .redirect
        | some _ =>
            match unlocked P now req link with
            | .error _ => .failed
            | .ok false => .interstitial
            | .ok true => .redirect

/-- The outcome on the database row. -/
def outcome (P : Platform) (req : VisitRequest) (w : World) : Outcome :=
  match w.db.redirectLookup req.shortCode with
  | .error _ => .failed
  | .ok rows => linkOutcome P w.now req (rows.head?.map toRedirectLink)

/-- The calls that change links. -/
inductive LinkCall : Type
  | create (userId : String) (input : CreateLinkInput)
  | update (userId linkId : String) (input : UpdateLinkInput)
  | delete (userId linkId : String)
  | click (data : ClickJobData)
deriving DecidableEq, Repr

def LinkCall.call : LinkCall → Call
  | .create userId input => .createLink userId input
  | .update userId linkId input => .updateLink userId linkId input
  | .delete userId linkId => .deleteLink userId linkId
  | .click data => .processClickJob data

/-- One step of a timeline. -/
inductive Moment : Type
  | tick (ms : Nat)
  | perform (tid : Nat) (c : LinkCall) (chs : List Choice)
  | sweep
deriving DecidableEq, Repr

def Moment.run (P : Platform) : Moment → World → Option World
  | .tick ms, w => some { w with now := w.now + ms }
  | .perform tid c chs, w => ((body P c.call).seqRun (exec P tid) chs w).map (·.2)
  | .sweep, w => ((body P .sweepExpiredLinks).seqRun (exec P 0) [{}] w).map (·.2)

def runAll (P : Platform) : List Moment → World → Option World
  | [], w => some w
  | m :: ms, w => (m.run P w).bind (runAll P ms)

/-- The same timeline with no sweep at all. -/
def unswept (ms : List Moment) : List Moment := ms.filter (fun m => m != .sweep)

structure SweptWorld (w w' : World) : Prop where
  now : w.now = w'.now
  db : SweptDb w.now w.db w'.db

section Outcomes

variable {P : Platform} {w w' : World} {req : VisitRequest}

/-- Related worlds give every request the same outcome. -/
theorem outcome_eq (h : SweptWorld w w') : outcome P req w = outcome P req w' := by
  unfold outcome Db.redirectLookup
  by_cases htext : textOk req.shortCode = true
  · simp only [htext, if_true, List.head?_filter]
    rcases find_rel h.db.links (p := fun r => r.shortCode == req.shortCode)
      (q := fun r => r.shortCode == req.shortCode) (fun _ _ hr => by rw [hr.shortCode]) with
      ⟨hn, hn'⟩ | ⟨r, r', hs, hs', hr⟩
    · rw [hn, hn']
      rfl
    · have hdead := sweptRow_dead hr
      have hhash : (toRedirectLink r).passwordHash = (toRedirectLink r').passwordHash :=
        hr.passwordHash
      have hunlocked : unlocked P w.now req (toRedirectLink r)
          = unlocked P w.now req (toRedirectLink r') := by
        unfold unlocked
        rw [show (toRedirectLink r).id = (toRedirectLink r').id from hr.id]
      simp only [hs, hs', Option.map_some, linkOutcome, ← h.now, hdead, hhash, hunlocked]
  · simp only [htext, Bool.false_eq_true, if_false]

end Outcomes

/-- The outcome class of what the handler returned or threw. -/
def classOf : Except Err Response → Outcome
  | .ok (.redirect _ _) => .redirect
  | .ok (.html _ _) => .interstitial
  | .error (.app e) =>
      if e.statusCode = 404 then .notFound else if e.statusCode = 410 then .gone else .failed
  | .error _ => .failed

/-- A visit the cache does not answer comes to the outcome of the row. -/
theorem visit_outcome {P : Platform} {tid : Nat} {w v : World} {chs : List Choice}
    {req : VisitRequest} {r : Except Err Response}
    (hmiss : w.redis.get w.now (linkCacheKey req.shortCode) = none)
    (h : (visit P req).seqRun (exec P tid) chs w = some (r, v)) :
    classOf r = outcome P req w := by
  -- Without a cached entry the handler answers from the row.
  rw [visit_run hmiss h]
  unfold visitResult rowResult outcome linkOutcome
  rcases w.db.redirectLookup req.shortCode with e | rows
  · rfl
  · simp only
    rcases rows.head?.map toRedirectLink with _ | link
    · rfl
    · simp only
      rcases hdead : deadStateError w.now link with _ | e
      · simp only [Option.isSome_none, Bool.false_eq_true, if_false]
        rcases truthy link.passwordHash with _ | hash
        · rfl
        · simp only
          rcases hun : unlocked P w.now req link with e | _ | _
          · rw [unlocked_error hun]
            rfl
          · rfl
          · rfl
      · simp only [Option.isSome_some, if_true, classOf, deadStateError_status hdead]
        rfl

/-- The operations of the link calls outside partial updates. -/
inductive LinkOp : Op → Prop
  | hash (plain : String) : LinkOp (.bcryptHash plain)
  | invalidate (code : String) : LinkOp (.redis (.del (linkCacheKey code)))
  | generateId : LinkOp .generateId
  | poolConnect : LinkOp .poolConnect
  | idByCode (code : String) : LinkOp (.db (.linkIdByCode code))
  | insertLink (l : NewLink) : LinkOp (.db (.insertLink l))
  | deleteLink (id userId : String) : LinkOp (.db (.deleteLink id userId))
  | begin : LinkOp (.db .begin)
  | insertClick (data : ClickJobData) : LinkOp (.db (.insertClick data))
  | increment (linkId : String) : LinkOp (.db (.incrementClickCount linkId))
  | commit : LinkOp (.db .commit)
  | rollback : LinkOp (.db .rollback)

theorem linkOp_invalidate {op : Op} (h : invalidateOp op) : LinkOp op := by
  rcases h with ⟨code, rfl⟩
  exact .invalidate code

theorem linkOp_hash {op : Op} (h : hashOp op) : LinkOp op := by
  cases op <;> first | exact .hash _ | exact h.elim

theorem linkOp_create {hash : Option String} {op : Op} (h : createOp hash op) : LinkOp op := by
  unfold createOp at h
  split at h
  · exact .idByCode _
  · exact .insertLink _
  · exact .generateId
  · exact linkOp_invalidate h

theorem linkOp_delete {userId linkId : String} {op : Op} (h : deleteOp userId linkId op) :
    LinkOp op := by
  unfold deleteOp at h
  split at h
  · exact .deleteLink _ _
  · exact linkOp_invalidate h

theorem linkOp_worker {data : ClickJobData} {op : Op} (h : workerOp data op) : LinkOp op := by
  unfold workerOp at h
  split at h
  · exact .poolConnect
  · exact .begin
  · exact .insertClick _
  · exact .increment _
  · exact .commit
  · exact .rollback
  · exact h.elim

section Operations

variable {P : Platform} {tid : Nat} {w w' : World} {op : Op}

/-- One operation outside partial updates answers the same in related worlds. -/
theorem exec_swept {ch : Choice} (hop : LinkOp op) (h : SweptWorld w w') :
    Prog.Matches SweptWorld (exec P tid op ch w) (exec P tid op ch w') := by
  have hlift : ∀ db db', SweptDb w.now db db' →
      SweptWorld { w with db := db } { w' with db := db' } := fun _ _ hdb => ⟨h.now, hdb⟩
  cases hop with
  | hash | generateId => exact Prog.matches_some rfl h
  | invalidate code =>
      simp only [exec]
      refine Prog.matches_some ?_ ⟨h.now, h.db⟩
      cases ch.fault <;> rfl
  | poolConnect =>
      simp only [exec]
      cases ch.fault <;> exact Prog.matches_some rfl h
  | idByCode code =>
      refine exec_db_matches hlift ?_
      simp only [Db.exec]
      by_cases htext : textOk code = true
      · -- The lookup of an alias reads no column that the sweep writes.
        have hids : ∀ l m : List LinkRow, List.Forall₂ (SweptRow w.now) l m →
            l.map (·.id) = m.map (·.id) := by
          intro l m hlm
          induction hlm with
          | nil => rfl
          | cons hr _ ih => rw [List.map_cons, List.map_cons, hr.id, ih]
        have hrows := filter_rel h.db.links (p := fun r => r.shortCode == code)
          (q := fun r => r.shortCode == code) (fun _ _ hr => by rw [hr.shortCode])
        rw [if_pos htext, if_pos htext, hids _ _ hrows]
        exact Prog.matches_some rfl h.db
      · rw [if_neg htext, if_neg htext]
        exact Prog.matches_some rfl h.db
  | insertLink l =>
      refine exec_db_matches hlift ?_
      simp only [Db.exec, h.db.ids, h.now]
      by_cases hdraw : ch.draw ∈ w'.db.ids
      · rw [if_pos hdraw, if_pos hdraw]
        exact Prog.matches_none
      · rw [if_neg hdraw, if_neg hdraw]
        have hm := h.db.insertLink ch.draw l
        rw [h.now] at hm
        exact Prog.matches_some hm.1 hm.2
  | deleteLink id userId =>
      exact exec_db_matches hlift (h.db.deleteLink id userId)
  | begin =>
      have hm := h.db.beginTx tid ch.fault
      exact exec_db_matches hlift (Prog.matches_some hm.1 hm.2)
  | insertClick data =>
      refine exec_db_matches hlift ?_
      rw [← h.now]
      exact h.db.insertClick tid ch data
  | increment linkId => exact exec_db_matches hlift (h.db.increment tid ch linkId)
  | commit =>
      have hm := h.db.commitTx tid ch.fault
      exact exec_db_matches hlift (Prog.matches_some hm.1 hm.2)
  | rollback =>
      have hm := h.db.rollbackTx tid ch.fault
      exact exec_db_matches hlift (Prog.matches_some hm.1 hm.2)

/-- A statement of a partial update, from what it does to the two databases. -/
theorem exec_update_swept {ch : Choice} {set : List SetClause} {i u : Nat}
    {values : List SqlValue} (h : SweptWorld w w')
    (hs : SweptUpdate w.now (w.db.updateLink w.now (w.now - ch.waited) set i u values)
      (w'.db.updateLink w.now (w.now - ch.waited) set i u values)) :
    (exec P tid (.db (.updateLink set i u values)) ch w).isSome
        = (exec P tid (.db (.updateLink set i u values)) ch w').isSome ∧
      ∀ r v r' v', exec P tid (.db (.updateLink set i u values)) ch w = some (r, v) →
        exec P tid (.db (.updateLink set i u values)) ch w' = some (r', v') →
        SweptWorld v v' ∧ ((∃ e e', r = .error e ∧ r' = .error e') ∨
          ∃ rows rows', r = .ok rows ∧ r' = .ok rows' ∧
            rows.map (·.shortCode) = rows'.map (·.shortCode)) := by
  -- Both block, both fail, or both answer; no other pair is related.
  simp only [exec, Db.exec, ← h.now]
  revert hs
  rcases w.db.updateLink w.now (w.now - ch.waited) set i u values with _ | ⟨e | rows, db⟩ <;>
    rcases w'.db.updateLink w.now (w.now - ch.waited) set i u values with
      _ | ⟨e' | rows', db'⟩ <;> intro hs
  · exact ⟨rfl, fun _ _ _ _ hx => by cases hx⟩
  · exact hs.elim
  · exact hs.elim
  · exact hs.elim
  · refine ⟨rfl, fun r v r' v' hx hx' => ?_⟩
    simp only [Option.some.injEq, Prod.mk.injEq] at hx hx'
    rcases hx with ⟨rfl, rfl⟩
    rcases hx' with ⟨rfl, rfl⟩
    exact ⟨⟨rfl, hs.2⟩, Or.inl ⟨e, e', rfl, rfl⟩⟩
  · exact hs.elim
  · exact hs.elim
  · exact hs.elim
  · refine ⟨rfl, fun r v r' v' hx hx' => ?_⟩
    simp only [Option.some.injEq, Prod.mk.injEq] at hx hx'
    rcases hx with ⟨rfl, rfl⟩
    rcases hx' with ⟨rfl, rfl⟩
    exact ⟨⟨rfl, hs.2⟩, Or.inr ⟨rows, rows', rfl, rfl, hs.1⟩⟩

/-- An invalidation leaves related worlds related. -/
theorem invalidate_swept {α β : Type} {code code' : String} (hcode : code = code') (a b : α)
    (g : α → β) (h : SweptWorld w w') (chs : List Choice) :
    Prog.Together SweptWorld
      ((((invalidateLinkCache code).bind (fun _ => .ret a)).bind
        (fun x => .ret (g x))).seqRun (exec P tid) chs w)
      ((((invalidateLinkCache code').bind (fun _ => .ret b)).bind
        (fun x => .ret (g x))).seqRun (exec P tid) chs w') := by
  subst hcode
  refine Prog.together_await _ (fun _ => ?_) (fun ch r v r' v' hx hx' => ?_) chs
  · rfl
  · have hv : SweptWorld v v' := by
      rw [(exec_redis_inv hx).2, (exec_redis_inv hx').2]
      exact ⟨h.now, h.db⟩
    -- Failed or not, the invalidation is over.
    rcases r with e | u <;> rcases r' with e' | u' <;> exact Prog.together_ret _ hv _ _

/-- A partial update that revives nothing. -/
theorem sendUpdate_swept {userId linkId : String} {input : UpdateLinkInput}
    {hash : Option (Option String)} {α : Type} (g : Option Link → α) (h : SweptWorld w w')
    (hrev : ¬ Revives w.now userId linkId input w.db w'.db) (chs : List Choice) :
    Prog.Together SweptWorld
      (((sendUpdate userId linkId (setListOf input hash)).bind
        (fun link => .ret (g link))).seqRun (exec P tid) chs w)
      (((sendUpdate userId linkId (setListOf input hash)).bind
        (fun link => .ret (g link))).seqRun (exec P tid) chs w') := by
  unfold sendUpdate
  by_cases hempty : (setListOf input hash).setClauses.length = 0
  · -- Nothing to update: the link is read, and the databases stay as they are.
    simp only [hempty, if_true]
    refine Prog.together_await _ (fun _ => ?_) (fun ch r v r' v' hx hx' => ?_) chs
    · rfl
    · simp only [exec, Db.exec, Db.linkById, Option.some.injEq, Prod.mk.injEq] at hx hx'
      rcases hx with ⟨rfl, rfl⟩
      rcases hx' with ⟨rfl, rfl⟩
      -- A text that is no id is refused by both, and any other id read by both.
      rcases uuidError linkId with _ | e
      · exact Prog.together_ret _ h _ _
      · exact Prog.together_throw _ h _ _
  · simp only [hempty, if_false]
    have hstmt := fun start => h.db.updateLink start hash hrev
    refine Prog.together_await _ (fun ch => ?_) (fun ch r v r' v' hx hx' => ?_) chs
    · exact (exec_update_swept h (hstmt _)).1
    · rcases (exec_update_swept h (hstmt _)).2 r v r' v' hx hx' with
        ⟨hv, ⟨e, e', rfl, rfl⟩ | ⟨rows, rows', rfl, rfl, hcodes⟩⟩
      · exact Prog.together_throw _ hv _ _
      · rcases rows with _ | ⟨row, rest⟩ <;> rcases rows' with _ | ⟨row', rest'⟩
        · exact Prog.together_ret _ hv _ _
        · exact absurd hcodes (by simp only [List.map_nil, List.map_cons, reduceCtorEq,
            not_false_eq_true])
        · exact absurd hcodes (by simp only [List.map_nil, List.map_cons, reduceCtorEq,
            not_false_eq_true])
        · -- The rows have one code, so the same key is invalidated.
          simp only [List.map_cons, List.cons.injEq] at hcodes
          exact invalidate_swept hcodes.1 (some (toLink row)) (some (toLink row')) g hv

end Operations

/-- The condition on a step: a partial update revives nothing. -/
def Meets : Moment → World → World → Prop
  | .perform _ (.update userId linkId input) _, w, w' =>
      ¬ Revives w.now userId linkId input w.db w'.db
  | _, _, _ => True

section Timelines

variable {P : Platform} {w w' v : World}

theorem call_swept {tid : Nat} {call : Call} (hops : ∀ op, call.performs op → LinkOp op)
    (h : SweptWorld w w') (chs : List Choice) :
    Prog.Together SweptWorld ((body P call).seqRun (exec P tid) chs w)
      ((body P call).seqRun (exec P tid) chs w') :=
  Prog.matches_together (Prog.seqRun_matches (exec P tid)
    (fun _ _ _ _ hop hw => exec_swept hop hw) _
    (Prog.only_mono hops _ (body_performs P call)) chs w w' h)

/-- One call of a timeline, run to its end in related worlds. -/
theorem perform_swept {tid : Nat} {c : LinkCall} {chs : List Choice} (h : SweptWorld w w')
    (hm : Meets (.perform tid c chs) w w') :
    Prog.Together SweptWorld ((body P c.call).seqRun (exec P tid) chs w)
      ((body P c.call).seqRun (exec P tid) chs w') := by
  cases c with
  | create userId input =>
      refine call_swept (fun op hop => ?_) h chs
      rcases hop with hop | ⟨hash, hop⟩
      · exact linkOp_hash hop
      · exact linkOp_create hop
  | delete userId linkId =>
      refine call_swept (fun op hop => ?_) h chs
      exact linkOp_delete hop
  | click data =>
      refine call_swept (fun op hop => ?_) h chs
      exact linkOp_worker hop
  | update userId linkId input =>
      have hsend : ∀ hash chs, Prog.Together SweptWorld
          (((sendUpdate userId linkId (setListOf input hash)).bind
            (fun link => .ret (Reply.link link))).seqRun (exec P tid) chs w)
          (((sendUpdate userId linkId (setListOf input hash)).bind
            (fun link => .ret (Reply.link link))).seqRun (exec P tid) chs w') :=
        fun hash chs => sendUpdate_swept Reply.link h hm chs
      simp only [LinkCall.call, body, updateLink]
      rcases hp : input.password with _ | _ | plain
      · exact hsend none chs
      · exact hsend (some none) chs
      · -- A new password is hashed first, the same on both sides.
        cases chs with
        | nil => trivial
        | cons ch rest => exact hsend (some (some (P.bcrypt.hash plain ch.draw))) rest

/-- A sweep on one side only. -/
theorem sweep_swept (h : SweptWorld w w') (hv : Moment.sweep.run P w = some v) :
    SweptWorld v w' := by
  simp only [Moment.run, Option.map_eq_some_iff] at hv
  rcases hv with ⟨out, hrun, rfl⟩
  rcases Prog.seqRun_await _ hrun with ⟨ch, rest, r, u, _, hx, hrest⟩
  rcases exec_db_inv hx with ⟨db, hdb, rfl⟩
  -- The sweep is one statement, and ends with it.
  have hdone : out.2 = { w with db := db } := by
    rcases r with e | n
    · exact congrArg Prod.snd (Prog.seqRun_throw _ hrest).2
    · exact congrArg Prod.snd (Prog.seqRun_ret _ hrest).2
  rw [hdone]
  refine ⟨h.now, ?_⟩
  simp only [Db.exec] at hdb
  rcases hs : w.db.sweepExpired w.now (w.now - ch.waited) with _ | ⟨n, swept⟩
  · rw [hs] at hdb
    cases hdb
  · rw [hs] at hdb
    simp only [Option.some.injEq, Prod.mk.injEq] at hdb
    rw [← hdb.2]
    exact h.db.sweep (Nat.sub_le _ _) hs

/-- One step of a timeline other than a sweep. -/
theorem moment_swept {m : Moment} (hne : m ≠ .sweep) (h : SweptWorld w w') (hm : Meets m w w')
    (hv : m.run P w = some v) : ∃ v', m.run P w' = some v' ∧ SweptWorld v v' := by
  cases m with
  | tick ms =>
      simp only [Moment.run, Option.some.injEq] at hv
      subst hv
      refine ⟨_, rfl, ?_, ?_⟩
      · exact congrArg (· + ms) h.now
      · exact sweptDb_later (Nat.le_add_right _ _) h.db
  | sweep => exact absurd rfl hne
  | perform tid c chs =>
      -- A call is defined in both worlds or in neither, and keeps them related.
      have ht := perform_swept (P := P) h hm
      simp only [Moment.run] at hv ⊢
      rcases hx : (body P c.call).seqRun (exec P tid) chs w with _ | ⟨r, u⟩ <;>
        rcases hx' : (body P c.call).seqRun (exec P tid) chs w' with _ | ⟨r', u'⟩ <;>
        rw [hx, hx'] at ht
      · rw [hx] at hv
        cases hv
      · exact ht.elim
      · exact ht.elim
      · rw [hx, Option.map_some, Option.some.injEq] at hv
        subst hv
        exact ⟨u', rfl, ht⟩

theorem runAll_append (ms ms' : List Moment) (w : World) :
    runAll P (ms ++ ms') w = (runAll P ms w).bind (runAll P ms') := by
  induction ms generalizing w with
  | nil => rfl
  | cons m ms ih =>
      simp only [List.cons_append, runAll]
      rcases m.run P w with _ | v
      · rfl
      · exact ih v

theorem runAll_snoc (ms : List Moment) (m : Moment) (w : World) :
    runAll P (ms ++ [m]) w = (runAll P ms w).bind (m.run P) := by
  rw [runAll_append]
  rcases runAll P ms w with _ | v
  · rfl
  · simp only [Option.bind_some, runAll]
    rcases m.run P v with _ | u <;> rfl

/-- The step lemma carried along a timeline: the two runs stay related. -/
theorem runAll_swept {w₀ : World} {ms : List Moment}
    (hmeets : ∀ pre m, pre ++ [m] <+: ms → ∀ v v', runAll P pre w₀ = some v →
      runAll P (unswept pre) w₀ = some v' → Meets m v v')
    (hw : runAll P ms w₀ = some w) :
    ∃ w', runAll P (unswept ms) w₀ = some w' ∧ SweptWorld w w' := by
  induction ms using List.reverseRecOn generalizing w with
  | nil =>
      simp only [runAll, Option.some.injEq] at hw
      subst hw
      exact ⟨w₀, rfl, rfl, sweptDb_refl _ _⟩
  | append_singleton ms m ih =>
      rw [runAll_snoc, Option.bind_eq_some_iff] at hw
      rcases hw with ⟨v, hv, hm⟩
      rcases ih (fun pre m' hpre => hmeets pre m' (hpre.trans (List.prefix_append ms [m]))) hv with
        ⟨v', hv', hrel⟩
      by_cases hsweep : m = .sweep
      · subst hsweep
        -- A sweep is dropped, and the worlds stay related.
        refine ⟨v', ?_, sweep_swept hrel hm⟩
        have hdropped : unswept (ms ++ [.sweep]) = unswept ms := by
          rw [unswept, List.filter_append]
          exact List.append_nil _
        rw [hdropped, hv']
      · rcases moment_swept hsweep hrel (hmeets ms m (List.prefix_refl _) v v' hv hv') hm with
          ⟨u', hu', hu⟩
        refine ⟨u', ?_, hu⟩
        have hkept : unswept (ms ++ [m]) = unswept ms ++ [m] := by
          rw [unswept, List.filter_append, List.filter_cons, bne_iff_ne.mpr hsweep]
          rfl
        rw [hkept, runAll_snoc, hv', Option.bind_some, hu']

end Timelines

/-- No sweep is ever visible: after every timeline each request comes to the
    same outcome as after the same timeline without its sweeps. -/
def SweepInvisible (P : Platform) : Prop :=
  ∀ (w₀ : World) (ms : List Moment) (w : World), runAll P ms w₀ = some w →
    ∃ w', runAll P (unswept ms) w₀ = some w' ∧ ∀ req, outcome P req w = outcome P req w'

/-- In a timeline whose updates revive nothing, no sweep is ever visible. -/
theorem sweep_invisible (P : Platform) (w₀ : World) (ms : List Moment)
    (hmeets : ∀ pre m, pre ++ [m] <+: ms → ∀ v v', runAll P pre w₀ = some v →
      runAll P (unswept pre) w₀ = some v' → Meets m v v')
    (pre : List Moment) (hpre : pre <+: ms) (w : World) (hw : runAll P pre w₀ = some w) :
    ∃ w', runAll P (unswept pre) w₀ = some w' ∧ ∀ req, outcome P req w = outcome P req w' := by
  rcases runAll_swept (fun pre' m hm => hmeets pre' m (hm.trans hpre)) hw with ⟨w', hw', hrel⟩
  exact ⟨w', hw', fun _ => outcome_eq hrel⟩

/-- A link that expires, is swept, and is extended and switched on again. -/
def renewed : List Moment :=
  [.perform 0
      (.create "u"
        { destinationUrl := "https://example.com/", customAlias := none, expiresAt := some 1000,
          maxClicks := none, password := none })
      [{ draw := "abc1234" }, { draw := firstId }],
   .tick 2000, .sweep,
   .perform 1
      (.update "u" firstId
        { destinationUrl := none, expiresAt := some (some 10000), maxClicks := none,
          isActive := some true, password := none })
      [{}, {}]]

theorem sweep_invisible_renewed : ∃ w w', runAll samplePlatform renewed ownerWorld = some w ∧
    runAll samplePlatform (unswept renewed) ownerWorld = some w' ∧
    ∀ req, outcome samplePlatform req w = outcome samplePlatform req w' := by
  have hsome : (runAll samplePlatform renewed ownerWorld).isSome = true := by decide
  rcases Option.isSome_iff_exists.mp hsome with ⟨w, hw⟩
  have hmeets : ∀ pre m, pre ++ [m] <+: renewed → ∀ v v',
      runAll samplePlatform pre ownerWorld = some v →
      runAll samplePlatform (unswept pre) ownerWorld = some v' → Meets m v v' := by
    intro pre m hpre v v' _ _
    have hm : m ∈ renewed := hpre.subset (List.mem_append_right _ List.mem_cons_self)
    simp only [renewed, List.mem_cons, List.not_mem_nil, or_false] at hm
    rcases hm with rfl | rfl | rfl | rfl
    · trivial
    · trivial
    · trivial
    · -- The update names `isActive`.
      rintro ⟨r, r', _, _, _, _, _, hactive, _⟩
      cases hactive
  rcases sweep_invisible samplePlatform ownerWorld renewed hmeets renewed (List.prefix_refl _) w hw
    with ⟨w', hw', heq⟩
  exact ⟨w, w', hw, hw', heq⟩

/-- A link that expires, is swept and is extended. -/
def extended : List Moment :=
  [.perform 0
      (.create "u"
        { destinationUrl := "https://example.com/", customAlias := none, expiresAt := some 1000,
          maxClicks := none, password := none })
      [{ draw := "abc1234" }, { draw := firstId }],
   .tick 2000, .sweep,
   .perform 1
      (.update "u" firstId
        { destinationUrl := none, expiresAt := some (some 10000), maxClicks := none,
          isActive := none, password := none })
      [{}, {}]]

def extendedVisit : VisitRequest :=
  { shortCode := "abc1234", cookie := none, referrer := none, userAgent := none }

/-- The extended link stays deactivated because a sweep ran before. -/
theorem sweep_visible : ¬ SweepInvisible samplePlatform := by
  intro h
  have hswept : (runAll samplePlatform extended ownerWorld).map
      (outcome samplePlatform extendedVisit) = some .gone := by decide
  have hunswept : (runAll samplePlatform (unswept extended) ownerWorld).map
      (outcome samplePlatform extendedVisit) = some .redirect := by decide
  rcases hw : runAll samplePlatform extended ownerWorld with _ | w
  · rw [hw] at hswept
    cases hswept
  · rcases h ownerWorld extended w hw with ⟨w', hw', heq⟩
    rw [hw, Option.map_some, Option.some.injEq] at hswept
    rw [hw', Option.map_some, Option.some.injEq] at hunswept
    have hsame := heq extendedVisit
    rw [hswept, hunswept] at hsame
    cases hsame

end ClickScope
