import ClickScope.Theory.Rules

/-!
# Creations are All-or-Nothing

What concurrent creations leave behind.

Both branches of `createLink` end in one insert, which the unique constraint
on the short code decides. The alias branch asks first whether the alias is
taken, so it can be refused twice; the generated branch inserts up to five
times, each time under a fresh code. Between any two statements other calls may
create or delete links.

The history of a call is read by three functions: the rows it inserted, the
codes it drew and the codes it found taken. `Tally` is what a program knows
about them between two statements, and `CreationOutcome` what they are once it has
ended. That a code found taken was held by a link is a property of the
statements alone and part of the invariant.

## Main definitions

* `UniqueCodes`, `Held`: The short codes of a table.
* `insertedLink`, `generatedCode`, `takenCode`: What one operation did.
* `creators`: Creations and deletions, and nothing else.
* `CreationInv`: The invariant of their runs.
* `CreationOutcome`: What a creation did, by what it ended with.
* `AllOrNothing`: The same, with the links behind the refusals.

## Theorems

* `creationInv_push`: Every operation keeps the invariant.
* `insertLink_tally`: One insert.
* `createGenerated_outcome`: The retry loop, by induction on what is left of it.
* `creation_all_or_nothing`: Every run.
-/

namespace ClickScope

open Async

/-- No two links have the same short code. -/
def UniqueCodes (db : Db) : Prop :=
  db.links.Pairwise (fun a b => a.shortCode ≠ b.shortCode)

/-- Some link has the code. -/
def Held (db : Db) (code : String) : Prop := ∃ r ∈ db.links, r.shortCode = code

/-- The row an operation inserted. -/
def insertedLink : (op : Op) → op.Res → Option LinkRow
  | .db (.insertLink _), .ok rows => rows.head?
  | _, _ => none

/-- The code an operation drew. -/
def generatedCode : (op : Op) → op.Res → Option String
  | .generateId, code => some code
  | _, _ => none

/-- The code an operation found taken: by the pre-check, or by the constraint. -/
def takenCode : (op : Op) → op.Res → Option String
  | .db (.linkIdByCode code), .ok (_ :: _) => some code
  | .db (.insertLink l), .error .uniqueViolation => some l.shortCode
  | _, _ => none

def insertedRows (es : List Ev) : List LinkRow := es.filterMap (fun e => insertedLink e.op e.res)

def generatedCodes (es : List Ev) : List String := es.filterMap (fun e => generatedCode e.op e.res)

def takenCodes (es : List Ev) : List String := es.filterMap (fun e => takenCode e.op e.res)

def Call.createsOrDeletes : Call → Bool
  | .createLink _ _ | .deleteLink _ _ => true
  | _ => false

/-- Any number of creations and deletions. -/
def creators : Policy Op Op.Res Call Choice World where
  mayStart := fun _ call => call.createsOrDeletes = true
  mayDo := fun _ _ _ _ _ => True

/-- The operations of creations and deletions. -/
def creationOp : Op → Prop
  | .db (.linkIdByCode _) => True
  | .db (.insertLink _) => True
  | .db (.deleteLink _ _) => True
  | .db _ => False
  | _ => True

structure CreationInv (w₀ : World) (st : Hist) : Prop where
  codes : UniqueCodes st.world.db
  origin : ∀ r ∈ st.world.db.links, r ∈ w₀.db.links ∨
    ∃ e ∈ st.log, insertedLink e.op e.res = some r
  inserted : ∀ e ∈ st.log, ∀ r, insertedLink e.op e.res = some r → r ∈ e.after.db.links
  taken : ∀ e ∈ st.log, ∀ code, takenCode e.op e.res = some code → Held e.after.db code

/-- The row is the one the input asks for. -/
structure RowOf (userId : String) (input : CreateLinkInput) (row : LinkRow) : Prop where
  userId : row.userId = userId
  destinationUrl : row.destinationUrl = input.destinationUrl
  expiresAt : row.expiresAt = input.expiresAt
  maxClicks : row.maxClicks = input.maxClicks
  customAlias : ∀ customAlias, truthy input.customAlias = some customAlias →
    row.shortCode = customAlias

/-- What a refused creation found. -/
def CreationRefused (input : CreateLinkInput) (es : List Ev) (e : AppError) : Prop :=
  (e.statusCode = 409 ∧ ∃ customAlias, truthy input.customAlias = some customAlias ∧
    customAlias ∈ takenCodes es) ∨
  (e.statusCode = 500 ∧ truthy input.customAlias = none ∧
    (generatedCodes es).length = MAX_GENERATION_ATTEMPTS ∧ takenCodes es = generatedCodes es)

/-- What a creation that ended has done, by its own events. -/
def CreationOutcome (userId : String) (input : CreateLinkInput) (es : List Ev) :
    Except Err Link → Prop
  | .ok link => ∃ row, insertedRows es = [row] ∧ RowOf userId input row ∧ link = toLink row
  | .error err => insertedRows es = [] ∧ ∀ e, err = .app e → CreationRefused input es e

def creation (w₀ : World) : Protocol Op Op.Res Err Reply Call Choice World Unit where
  toPolicy := creators
  loc := fun _ _ => ()
  Inv := CreationInv w₀
  Pre := fun _ _ _ op => creationOp op
  Post := fun i call _ r st => ∀ userId input, call = .createLink userId input →
    ∃ r' : Except Err Link, r = r'.map .created ∧ CreationOutcome userId input (st.mine i) r'

section Steps

variable {P : Platform} {w₀ : World} {i : Nat} {call : Call} {st : Hist} {ch : Choice} {op : Op}
  {r : op.Res} {w : World}

/-- What an operation does to the links, and what its answer says about them. -/
structure LinksStep (db db' : Db) (op : Op) (r : op.Res) : Prop where
  codes : UniqueCodes db'
  origin : ∀ x ∈ db'.links, x ∈ db.links ∨ insertedLink op r = some x
  inserted : ∀ x, insertedLink op r = some x → x ∈ db'.links
  taken : ∀ code, takenCode op r = some code → Held db' code

/-- An operation that leaves the links alone and says nothing about them. -/
theorem linksStep_same {db db' : Db} (hu : UniqueCodes db) (hlinks : db'.links = db.links)
    (hins : insertedLink op r = none) (htaken : takenCode op r = none) :
    LinksStep db db' op r where
  codes := by
    unfold UniqueCodes
    rw [hlinks]
    exact hu
  origin := fun x hx => Or.inl (hlinks ▸ hx)
  inserted := fun x h => by
    rw [hins] at h
    cases h
  taken := fun code h => by
    rw [htaken] at h
    cases h

/-- A new row keeps the codes distinct, if no row had its code. -/
theorem uniqueCodes_append {db : Db} {row : LinkRow} (hu : UniqueCodes db)
    (hnew : ∀ r ∈ db.links, r.shortCode ≠ row.shortCode) :
    (db.links ++ [row]).Pairwise (fun a b => a.shortCode ≠ b.shortCode) := by
  refine List.pairwise_append.mpr ⟨hu, List.pairwise_singleton _ _, fun a ha b hb => ?_⟩
  rw [List.mem_singleton.mp hb]
  exact hnew a ha

theorem linkIdByCode_step {code : String} {db db' : Db} {now : Nat}
    {r : Except DbError (List String)} (hu : UniqueCodes db)
    (hx : Db.exec P.pg now i (.linkIdByCode code) ch db = some (r, db')) :
    LinksStep db db' (.db (.linkIdByCode code)) r := by
  simp only [Db.exec] at hx
  by_cases ht : textOk code = true
  · rw [if_pos ht] at hx
    cases hx
    refine ⟨hu, fun x hmem => Or.inl hmem, fun x h => (by cases h), fun c h => ?_⟩
    -- A row that is found has the code.
    rcases hrows : db.links.filter (fun r => r.shortCode == code) with _ | ⟨row, rest⟩
    · rw [hrows] at h
      cases h
    · have hmem : row ∈ db.links.filter (fun r => r.shortCode == code) := by
        rw [hrows]
        exact List.mem_cons_self
      rw [hrows] at h
      simp only [List.map_cons, takenCode, Option.some.injEq] at h
      rcases List.mem_filter.mp hmem with ⟨hrow, hcode⟩
      exact ⟨row, hrow, by rw [← h]; exact beq_iff_eq.mp hcode⟩
  · rw [if_neg ht] at hx
    cases hx
    exact linksStep_same hu rfl rfl rfl

theorem insertLink_step {l : NewLink} {db db' : Db} {now : Nat}
    {r : Except DbError (List LinkRow)} (hu : UniqueCodes db)
    (hx : Db.exec P.pg now i (.insertLink l) ch db = some (r, db')) :
    LinksStep db db' (.db (.insertLink l)) r := by
  rcases Db.insertLink_inv hx with ⟨_, ⟨rfl, hnew, rfl⟩ | ⟨e, rfl, ⟨ids, _, rfl⟩, hviolation⟩⟩
  · refine ⟨uniqueCodes_append hu hnew, fun x hmem => ?_, fun x h => ?_, fun c h => by cases h⟩
    · refine (List.mem_append.mp hmem).imp_right (fun hx' => ?_)
      rw [List.mem_singleton.mp hx']
      rfl
    · simp only [insertedLink, List.head?_cons, Option.some.injEq] at h
      rw [← h]
      exact List.mem_append_right _ List.mem_cons_self
  · -- A refused insert found its code taken exactly if it broke the constraint.
    refine ⟨hu, fun x hmem => Or.inl hmem, fun x h => (by cases h), fun c h => ?_⟩
    cases e <;> simp only [takenCode, reduceCtorEq, Option.some.injEq] at h
    rw [← h]
    exact hviolation rfl

theorem deleteLink_step {id userId : String} {db db' : Db} {now : Nat}
    {r : Except DbError (List (String × String))} (hu : UniqueCodes db)
    (hx : Db.exec P.pg now i (.deleteLink id userId) ch db = some (r, db')) :
    LinksStep db db' (.db (.deleteLink id userId)) r := by
  rcases Db.deleteLink_inv hx with ⟨_, _, _, rfl⟩ | ⟨_, _, rfl⟩ | ⟨_, _, _, _, _, rfl⟩
  · exact linksStep_same hu rfl rfl rfl
  · exact linksStep_same hu rfl rfl rfl
  · exact ⟨List.Pairwise.filter _ hu, fun x hmem => Or.inl (List.mem_filter.mp hmem).1,
      fun x h => (by cases h), fun c h => by cases h⟩

theorem creationOp_step (hop : creationOp op) (hu : UniqueCodes st.world.db)
    (hx : exec P i op ch st.world = some (r, w)) : LinksStep st.world.db w.db op r := by
  by_cases hs : ∀ s, op ≠ .db s
  · have hdb := exec_db_eq hs hx
    cases op with
    | db s => exact absurd rfl (hs s)
    | _ => exact linksStep_same hu (by rw [hdb]) rfl rfl
  · push Not at hs
    rcases hs with ⟨s, rfl⟩
    rcases exec_db_inv hx with ⟨db, hdb, rfl⟩
    -- Of the statements, only these three are sent.
    cases s with
    | linkIdByCode code => exact linkIdByCode_step hu hdb
    | insertLink l => exact insertLink_step hu hdb
    | deleteLink id userId => exact deleteLink_step hu hdb
    | _ => exact hop.elim

theorem creationInv_push (hi : CreationInv w₀ st) (hop : creationOp op)
    (hx : exec P i op ch st.world = some (r, w)) :
    CreationInv w₀ (st.push i call op ch r w) := by
  have hstep := creationOp_step hop hi.codes hx
  -- What the event says of the links is what the step did.
  refine ⟨hstep.codes, fun x hmem => ?_, fun e he x h => ?_, fun e he code h => ?_⟩
  · rcases hstep.origin x hmem with hold | hnew
    · refine (hi.origin x hold).imp_right ?_
      rintro ⟨e, he, hins⟩
      exact ⟨e, List.mem_cons_of_mem _ he, hins⟩
    · exact Or.inr ⟨_, List.mem_cons_self, hnew⟩
  · rcases List.mem_cons.mp he with rfl | he
    · exact hstep.inserted x h
    · exact hi.inserted e he x h
  · rcases List.mem_cons.mp he with rfl | he
    · exact hstep.taken code h
    · exact hi.taken e he code h

end Steps

/-- What a creation has done so far, by its own events. -/
structure Tally (st : Hist) (i : Nat) (rows : List LinkRow) (generated taken : List String) :
    Prop where
  rows : insertedRows (st.mine i) = rows
  generated : generatedCodes (st.mine i) = generated
  taken : takenCodes (st.mine i) = taken

section Programs

variable {P : Platform} {w₀ : World} {i : Nat} {call : Call} {st : Hist} {rows : List LinkRow}
  {generated taken : List String}

theorem tally_later {st' : Hist} (hl : Later (fun _ _ => ()) i st st')
    (h : Tally st i rows generated taken) : Tally st' i rows generated taken := by
  refine ⟨?_, ?_, ?_⟩ <;> rw [hl.mine_eq]
  · exact h.rows
  · exact h.generated
  · exact h.taken

/-- An operation adds to the tally what it says itself. -/
theorem tally_push {op : Op} {ch : Choice} {r : op.Res} {w : World}
    (h : Tally st i rows generated taken) :
    Tally (st.push i call op ch r w) i ((insertedLink op r).toList ++ rows)
      ((generatedCode op r).toList ++ generated) ((takenCode op r).toList ++ taken) := by
  refine ⟨?_, ?_, ?_⟩
  · rw [insertedRows, State.push_mine, List.filterMap_cons, ← h.rows]
    cases insertedLink op r <;> rfl
  · rw [generatedCodes, State.push_mine, List.filterMap_cons, ← h.generated]
    cases generatedCode op r <;> rfl
  · rw [takenCodes, State.push_mine, List.filterMap_cons, ← h.taken]
    cases takenCode op r <;> rfl

/-- An operation that says nothing about the codes or rows. -/
theorem tally_quiet {op : Op} {ch : Choice} {r : op.Res} {w : World}
    (h : Tally st i rows generated taken) (hins : insertedLink op r = none)
    (hgen : generatedCode op r = none) (htaken : takenCode op r = none) :
    Tally (st.push i call op ch r w) i rows generated taken := by
  have hpush : Tally (st.push i call op ch r w) i _ _ _ := tally_push h
  rw [hins, hgen, htaken] at hpush
  exact hpush

theorem hashGiven_tally (password : Option String) (h : Tally st i rows generated taken) :
    Sat (clickScope P) (creation w₀) i call (fun r st' => (∃ hash, r = .ok hash) ∧
      Tally st' i rows generated taken) (hashGiven password) st := by
  cases password with
  | none => exact ⟨⟨_, rfl⟩, h⟩
  | some plain =>
      refine sat_bind _ _ (sat_perform fun st₁ hl _ _ => ⟨trivial, fun ch r w _ _ => ?_⟩)
      exact ⟨⟨_, rfl⟩, tally_push (tally_later hl h)⟩

theorem insertLink_tally (userId shortCode : String) (input : CreateLinkInput)
    (hash : Option String) (h : Tally st i [] generated taken) :
    Sat (clickScope P) (creation w₀) i call (fun r st' => match r with
      | .ok (some row) => Tally st' i [row] generated taken ∧ row.userId = userId ∧
          row.shortCode = shortCode ∧ row.destinationUrl = input.destinationUrl ∧
          row.expiresAt = input.expiresAt ∧ row.maxClicks = input.maxClicks
      | .ok none => Tally st' i [] generated (shortCode :: taken)
      | .error err => Tally st' i [] generated taken ∧ ∀ e, err ≠ .app e)
      (insertLink userId shortCode input hash) st := by
  refine sat_tryCatch _ _ (sat_bind _ _ (sat_query fun st₁ hl _ _ =>
    ⟨trivial, fun ch r db _ hx => ?_⟩))
  have h₁ := tally_later hl h
  rcases Db.insertLink_inv hx with ⟨_, ⟨rfl, _, _⟩ | ⟨e, rfl, _, _⟩⟩
  · exact ⟨tally_push h₁, rfl, rfl, rfl, rfl, rfl⟩
  · simp only [Except.mapError, thenSat_error, catchSat_error]
    -- A violated constraint comes back as a collision, any other error is thrown on.
    by_cases hv : (Err.db e).isUniqueViolation = true
    · rw [(isUniqueViolation_db e).mp hv]
      exact tally_push h₁
    · rw [if_neg hv]
      refine ⟨?_, fun e' he => by cases he⟩
      refine tally_quiet h₁ rfl rfl ?_
      cases e with
      | uniqueViolation => exact absurd rfl hv
      | _ => rfl

/-- The retry loop. Every code drawn so far was taken, and with the attempts
    left they make up the maximum. -/
theorem createGenerated_outcome (userId : String) (input : CreateLinkInput) (hash : Option String)
    (halias : truthy input.customAlias = none) :
    ∀ (attempts : Nat) (codes : List String) (st : Hist),
      attempts + codes.length = MAX_GENERATION_ATTEMPTS → Tally st i [] codes codes →
      Sat (clickScope P) (creation w₀) i call
        (fun r st' => CreationOutcome userId input (st'.mine i) r)
        (createGenerated userId input hash attempts) st := by
  intro attempts
  induction attempts with
  | zero =>
      -- No attempt is left, so all codes that may be drawn were drawn, and taken.
      intro codes st hlen h
      refine ⟨h.rows, fun e he => Or.inr ?_⟩
      rw [Err.app.injEq] at he
      rw [← he, h.generated, h.taken]
      exact ⟨rfl, halias, by omega, rfl⟩
  | succ n ih =>
      intro codes st hlen h
      refine sat_bind _ _ (sat_perform fun st₁ hl _ _ => ⟨trivial, fun ch code w _ _ => ?_⟩)
      -- The new code counts as drawn, and not yet as taken.
      have h₁ : Tally (st₁.push i call .generateId ch code w) i [] (code :: codes) codes :=
        tally_push (tally_later hl h)
      refine sat_bind _ _ (sat_mono (fun r st₂ h₂ => ?_) _ _
        (insertLink_tally userId code input hash h₁))
      rcases r with e | _ | row
      · exact ⟨h₂.1.rows, fun e' he => absurd he (h₂.2 e')⟩
      · exact ih (code :: codes) st₂ (by rw [List.length_cons]; omega) h₂
      · rcases h₂ with ⟨htally, huser, _, hurl, hexp, hmax⟩
        refine ⟨row, htally.rows, ⟨huser, hurl, hexp, hmax, fun a ha => ?_⟩, rfl⟩
        rw [halias] at ha
        cases ha

theorem createAliased_outcome (userId customAlias : String) (input : CreateLinkInput)
    (hash : Option String) (halias : truthy input.customAlias = some customAlias)
    (h : Tally st i [] [] []) :
    Sat (clickScope P) (creation w₀) i call
      (fun r st' => CreationOutcome userId input (st'.mine i) r)
      (createAliased userId customAlias input hash) st := by
  -- Either way of finding the alias taken leaves it in the tally.
  have hrefused : ∀ {st' : Hist}, Tally st' i [] [] [customAlias] →
      CreationOutcome userId input (st'.mine i)
        (.error (.app (conflict "This alias is already taken"))) := by
    intro st' h'
    refine ⟨h'.rows, fun e he => Or.inl ?_⟩
    rw [Err.app.injEq] at he
    rw [← he, h'.taken]
    exact ⟨rfl, customAlias, halias, List.mem_singleton_self _⟩
  refine sat_bind _ _ (sat_query fun st₁ hl _ _ => ⟨trivial, fun ch r db _ hx => ?_⟩)
  have h₁ := tally_later hl h
  rcases r with e | _ | ⟨id, rest⟩
  · exact ⟨(tally_quiet h₁ rfl rfl rfl).rows, fun e he => by cases he⟩
  · -- The alias is free at the pre-check, and the insert decides.
    refine sat_bind _ _ (sat_mono (fun r st₂ h₂ => ?_) _ _
      (insertLink_tally userId customAlias input hash (tally_quiet h₁ rfl rfl rfl)))
    rcases r with e | _ | row
    · exact ⟨h₂.1.rows, fun e' he => absurd he (h₂.2 e')⟩
    · exact hrefused h₂
    · rcases h₂ with ⟨htally, huser, hcode, hurl, hexp, hmax⟩
      refine sat_bind _ _ (invalidateLinkCache_sat fun st₃ hl₃ _ _ =>
        ⟨trivial, fun ch₃ r₃ s₃ _ _ => ?_⟩)
      refine ⟨row, (tally_quiet (tally_later hl₃ htally) rfl rfl rfl).rows,
        ⟨huser, hurl, hexp, hmax, fun a ha => ?_⟩, rfl⟩
      rw [halias, Option.some.injEq] at ha
      rw [hcode, ha]
  · exact hrefused (tally_push h₁)

theorem createLink_outcome (userId : String) (input : CreateLinkInput) (h : Tally st i [] [] []) :
    Sat (clickScope P) (creation w₀) i call
      (fun r st' => CreationOutcome userId input (st'.mine i) r) (createLink userId input) st := by
  refine sat_bind _ _ (sat_mono (fun r st₁ h₁ => ?_) _ _ (hashGiven_tally _ h))
  rcases h₁ with ⟨⟨hash, rfl⟩, h₁⟩
  rw [thenSat_ok]
  cases halias : truthy input.customAlias with
  | some customAlias => exact createAliased_outcome userId customAlias input hash halias h₁
  | none => exact createGenerated_outcome userId input hash halias _ [] st₁ rfl h₁

end Programs

section Runs

variable {P : Platform} {w₀ : World} {c : Site}

theorem deleteOp_creation {userId linkId : String} {op : Op} (h : deleteOp userId linkId op) :
    creationOp op := by
  cases op with
  | db s =>
      cases s with
      | deleteLink id u => trivial
      | _ =>
          rcases h with ⟨code, hop⟩
          cases hop
  | _ => trivial

theorem creation_sound : Sound (clickScope P) (creation w₀) where
  env := by
    intro st e w hi hw
    rcases env_inv hw with ⟨ms, rfl⟩
    exact ⟨hi.codes, hi.origin, hi.inserted, hi.taken⟩
  env_loc := fun _ _ _ _ _ => rfl
  reap := fun _ _ hi => ⟨hi.codes, hi.origin, hi.inserted, hi.taken⟩
  reap_loc := fun _ _ _ _ => rfl
  exec := fun _ _ _ _ _ _ _ hi _ hpre _ hx => creationInv_push hi hpre hx
  exec_loc := fun _ _ _ _ _ _ _ _ _ => rfl
  body := by
    intro st i call _ _ hmine hstart
    cases call with
    | createLink userId input =>
        -- A call begins with no event of its own.
        have hempty : Tally st i [] [] [] := by
          refine ⟨?_, ?_, ?_⟩ <;> rw [hmine] <;> rfl
        refine sat_map (sat_mono (fun r st' hr => ?_) _ _ (createLink_outcome userId input hempty))
        intro userId' input' hcall
        rw [Call.createLink.injEq] at hcall
        rw [← hcall.1, ← hcall.2]
        exact ⟨r, rfl, hr⟩
    | deleteLink userId linkId =>
        exact sat_performs (fun _ _ _ hop => deleteOp_creation hop)
          (fun _ _ _ _ hcall => by cases hcall)
    | _ => cases hstart

end Runs

/-- What a creation that ended with `r` has done, given what its own operations
    did: it returned the one row it inserted, or inserted none. It was refused
    an alias some link had at a moment of the call, or gave up after as many
    codes as it may draw, each of which some link had when it was tried. -/
structure AllOrNothing (userId : String) (input : CreateLinkInput) (es : List Ev)
    (r : Except Err Reply) : Prop where
  created : ∀ reply, r = .ok reply → ∃ row, insertedRows es = [row] ∧ RowOf userId input row ∧
    reply = .created (toLink row)
  failed : ∀ err, r = .error err → insertedRows es = []
  conflict : ∀ e, r = .error (.app e) → e.statusCode = 409 → ∃ customAlias,
    truthy input.customAlias = some customAlias ∧ ∃ x ∈ es, Held x.after.db customAlias
  exhausted : ∀ e, r = .error (.app e) → e.statusCode = 500 →
    truthy input.customAlias = none ∧ (generatedCodes es).length = 5 ∧
    takenCodes es = generatedCodes es ∧
    ∀ code ∈ generatedCodes es, ∃ x ∈ es, takenCode x.op x.res = some code ∧ Held x.after.db code

theorem allOrNothing_of_outcome {userId : String} {input : CreateLinkInput} {es : List Ev}
    {r : Except Err Link} (h : CreationOutcome userId input es r)
    (htaken : ∀ e ∈ es, ∀ code, takenCode e.op e.res = some code → Held e.after.db code) :
    AllOrNothing userId input es (r.map .created) := by
  -- A code that was found taken was held at that event.
  have hmem : ∀ code ∈ takenCodes es, ∃ x ∈ es, takenCode x.op x.res = some code ∧
      Held x.after.db code := by
    intro code hcode
    rcases List.mem_filterMap.mp hcode with ⟨x, hx, hxcode⟩
    exact ⟨x, hx, hxcode, htaken x hx code hxcode⟩
  rcases r with err | link
  · rcases h with ⟨hrows, hrefused⟩
    refine ⟨fun reply hr => (by cases hr), fun _ _ => hrows, fun e he hstatus => ?_,
      fun e he hstatus => ?_⟩
    · cases he
      rcases hrefused e rfl with ⟨_, customAlias, halias, hin⟩ | ⟨hcode, _⟩
      · rcases hmem customAlias hin with ⟨x, hx, _, hheld⟩
        exact ⟨customAlias, halias, x, hx, hheld⟩
      · rw [hstatus] at hcode
        cases hcode
    · cases he
      rcases hrefused e rfl with ⟨hcode, _⟩ | ⟨_, halias, hlen, heq⟩
      · rw [hstatus] at hcode
        cases hcode
      · refine ⟨halias, hlen, heq, fun code hin => hmem code ?_⟩
        rw [heq]
        exact hin
  · rcases h with ⟨row, hrows, hrow, rfl⟩
    refine ⟨fun reply hr => ⟨row, hrows, hrow, ?_⟩, fun _ hr => (by cases hr),
      fun _ hr => (by cases hr), fun _ hr => by cases hr⟩
    cases hr
    rfl

/-- In every run of creations and deletions no two links ever have the same
    code, every link was there at the start or inserted by an operation of the
    run, and every creation is all-or-nothing. -/
theorem creation_all_or_nothing (P : Platform) (w₀ : World) (hw : UniqueCodes w₀.db) (c : Site)
    (hc : Run (clickScope P) creators w₀ c) :
    UniqueCodes c.state.world.db ∧
    (∀ row ∈ c.state.world.db.links, row ∈ w₀.db.links ∨
      ∃ e ∈ c.state.log, insertedLink e.op e.res = some row) ∧
    ∀ (i : Nat) (t : Task) (userId : String) (input : CreateLinkInput) (r : Except Err Reply),
      c.threads[i]? = some t → t.call = .createLink userId input → t.result = some r →
      AllOrNothing userId input (c.state.mine i) r := by
  have h0 : CreationInv w₀ { world := w₀, log := [] } :=
    { codes := hw
      origin := fun _ hr => Or.inl hr
      inserted := fun e he => by cases he
      taken := fun e he => by cases he }
  have hi := run_inv creation_sound h0 hc
  refine ⟨hi.codes, hi.origin, fun i t userId input r ht hcall hr => ?_⟩
  rcases run_result creation_sound h0 hc ht hr with ⟨_, st₁, _, _, _, _, hmine, hpost⟩
  rcases hpost userId input hcall with ⟨r', rfl, houtcome⟩
  rw [hmine] at houtcome
  exact allOrNothing_of_outcome houtcome (fun e he => hi.taken e (State.mem_mine.mp he).1)

/-- A creation under the alias `c` for the account `u`. -/
def aliasC : Call :=
  .createLink "u" { destinationUrl := "https://a.example/", customAlias := some "c",
                    expiresAt := none, maxClicks := some 3, password := none }

/-- Call 0 got the alias and call 1 lost the race for it. -/
def raced (c : Site) : Bool :=
  (c.resultOf 0).any (fun r => match r with
    | .ok (.created link) => link.shortCode == "c"
    | _ => false) &&
  (c.resultOf 1).any (fun r => match r with
    | .error (.app e) => e.statusCode == 409
    | _ => false)

/-- Two creations of one alias both pass the pre-check. -/
theorem creation_all_or_nothing_raced : ∃ c : Site,
    Run (clickScope samplePlatform) creators ownerWorld c ∧ raced c = true ∧
    UniqueCodes c.state.world.db ∧
    (∀ row ∈ c.state.world.db.links, row ∈ ownerWorld.db.links ∨
      ∃ e ∈ c.state.log, insertedLink e.op e.res = some row) ∧
    ∀ (i : Nat) (t : Task) (userId : String) (input : CreateLinkInput) (r : Except Err Reply),
      c.threads[i]? = some t → t.call = .createLink userId input → t.result = some r →
      AllOrNothing userId input (c.state.mine i) r := by
  -- Two creations check an alias before either of them inserts it.
  rcases exists_run_of (clickScope samplePlatform) creators ownerWorld
    (fun _ a => match a with
      | .spawn call => call.createsOrDeletes
      | _ => true)
    (fun c a h => by
      cases a with
      | spawn call => exact h
      | run i ch => exact fun _ _ _ _ _ => trivial
      | env e => trivial
      | kill i => trivial)
    [.spawn aliasC, .spawn aliasC, .run 0 {}, .run 1 {}, .run 0 { draw := "l1" },
      .run 1 { draw := "l2" }, .run 0 {}]
    raced (by decide) with ⟨c, hc, hp⟩
  exact ⟨c, hc, hp, creation_all_or_nothing samplePlatform ownerWorld List.Pairwise.nil c hc⟩

end ClickScope
