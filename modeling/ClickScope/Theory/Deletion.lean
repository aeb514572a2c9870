import ClickScope.Theory.RowHistory

/-!
# Deleted Links

What a call is told about a link that was deleted before it started.

A statement speaks of a link when it answers with its id. Once a delete has
spoken of a link, no statement of any call does again: the link is gone, and
`RowStep` says that it stays away. So a call that starts later is told that
there is no such link, whoever asks, and a click job for the link counts
nothing. A second delete is not told that it deleted the link.

The redirect may still be answered from the cache, which is not looked at here.

## Main definitions

* `spoken`: The links an answer of an operation speaks of.
* `deletedLinks`: The links an operation deleted.
* `answered`: The links a reply of a call speaks of.

## Theorems

* `exec_spoken`: A statement speaks of links that are there.
* `body_answers`: A reply speaks of links its own operations spoke of.
* `deleted_for_good`: After a delete nothing speaks of the link.
-/

namespace ClickScope

open Async

/-- The ids of the links an answer speaks of. A row count of the worker speaks
    of the link it was about. -/
def spoken : (op : Op) → op.Res → List String
  | .db (.linkIdByCode _), .ok ids => ids
  | .db (.insertLink _), .ok rows => rows.map (·.id)
  | .db (.listLinks _ _ _), .ok rows => rows.map (·.id)
  | .db (.linkById _ _), .ok rows => rows.map (·.id)
  | .db (.updateLink _ _ _ _), .ok rows => rows.map (·.id)
  | .db (.deleteLink _ _), .ok rows => rows.map (·.1)
  | .db (.redirectLookup _), .ok rows => rows.map (·.id)
  | .db (.insertClick data), .ok n => if n = 0 then [] else [data.linkId]
  | .db (.incrementClickCount linkId), .ok n => if n = 0 then [] else [linkId]
  | _, _ => []

/-- The ids of the links an operation deleted. -/
def deletedLinks : (op : Op) → op.Res → List String
  | .db (.deleteLink _ _), .ok rows => rows.map (·.1)
  | _, _ => []

/-- The ids of the links an owner's reply speaks of. A call names its link by a
    text that says the id. -/
def answered : Call → Reply → List String
  | .createLink _ _, .created link => [link.id]
  | .listLinks _ _ _, .listed result => result.links.map (·.id)
  | .getLink _ _, .link link => link.toList.map (·.id)
  | .updateLink _ _ _, .link link => link.toList.map (·.id)
  | .deleteLink _ linkId, .deleted true => (Uuid.read linkId).toList
  | .getLinkClickStats _ linkId _, .stats (some _) => (Uuid.read linkId).toList
  | _, _ => []

section Statements

variable {pg : Postgres} {now tid : Nat} {ch : Choice} {db db' : Db}

/-- A statement speaks of links that are there, or that it creates. -/
theorem exec_spoken {s : Stmt} {r : Except DbError s.Rows} {id : String}
    (hx : Db.exec pg now tid s ch db = some (r, db')) (hid : id ∈ spoken (.db s) r) :
    (∃ row ∈ db.links, row.id = id) ∨ id ∉ db.ids := by
  -- The rows of a lookup are rows of the table.
  have hrows : ∀ {rows : List LinkRow}, (∀ row ∈ rows, row ∈ db.links) →
      id ∈ rows.map (·.id) → (∃ row ∈ db.links, row.id = id) ∨ id ∉ db.ids := by
    intro rows hsub hmem
    rcases List.mem_map.mp hmem with ⟨row, hrow, hrid⟩
    exact Or.inl ⟨row, hsub row hrow, hrid⟩
  cases r with
  | error e => cases s <;> cases hid
  | ok rows =>
      cases s with
      | linkIdByCode code =>
          simp only [Db.exec] at hx
          split at hx <;> cases hx
          exact hrows (fun row hrow => (List.mem_filter.mp hrow).1) hid
      | insertLink l =>
          rcases Db.insertLink_inv hx with ⟨hfresh, ⟨heq, _, _⟩ | ⟨_, herr, _⟩⟩
          · rw [Except.ok.injEq] at heq
            rw [heq] at hid
            rw [List.mem_singleton.mp hid]
            exact Or.inr hfresh
          · cases herr
      | listLinks userId limit offset =>
          simp only [Db.exec, Db.listLinks, Option.some.injEq, Prod.mk.injEq] at hx
          split_ifs at hx <;> simp only [Except.ok.injEq, false_and] at hx
          rw [← hx.1] at hid
          refine hrows (fun row hrow => ?_) hid
          have hsorted := List.mem_of_mem_drop (List.mem_of_mem_take hrow)
          exact (List.mem_filter.mp ((List.mem_insertionSort _).mp hsorted)).1
      | linkById linkId userId =>
          rw [Db.linkById_ok hx] at hid
          exact hrows (fun row hrow => (List.mem_filter.mp hrow).1) hid
      | updateLink set a u values =>
          rcases Db.updateLink_inv hx with ⟨_, herr, _⟩ | ⟨heq, _⟩ |
            ⟨_, _, row, row', _, _, _, hfind, _, _, hset, _, heq, _⟩
          · cases herr
          · rw [Except.ok.injEq] at heq
            rw [heq] at hid
            cases hid
          · rw [Except.ok.injEq] at heq
            rw [heq] at hid
            rw [List.mem_singleton.mp hid]
            exact Or.inl ⟨row, List.mem_of_find?_eq_some hfind, (applySet_keeps hset).1.symm⟩
      | deleteLink linkId userId =>
          rcases Db.deleteLink_inv hx with ⟨_, _, herr, _⟩ | ⟨_, heq, _⟩ |
            ⟨row, hfind, _, _, heq, _⟩
          · cases herr
          · rw [Except.ok.injEq] at heq
            rw [heq] at hid
            cases hid
          · rw [Except.ok.injEq] at heq
            rw [heq] at hid
            rw [List.mem_singleton.mp hid]
            exact Or.inl ⟨row, List.mem_of_find?_eq_some hfind, rfl⟩
      | redirectLookup code =>
          rw [Db.redirectLookup_ok hx] at hid
          exact hrows (fun row hrow => (List.mem_filter.mp hrow).1) hid
      | insertClick data =>
          rcases Db.insertClick_inv hx with ⟨_, herr, _⟩ |
            ⟨_, _, _, _, _, ⟨heq, _⟩ | ⟨heq, _, hlink, _⟩⟩
          · cases herr
          · rw [Except.ok.injEq] at heq
            rw [heq] at hid
            cases hid
          · rw [Except.ok.injEq] at heq
            rw [heq] at hid
            rw [List.mem_singleton.mp hid]
            exact Or.inl hlink
      | incrementClickCount linkId =>
          rcases Db.incrementClickCount_inv hx with ⟨_, herr, _⟩ |
            ⟨_, _, _, _, ⟨heq, _⟩ | ⟨row, heq, hfind, _⟩⟩
          · cases herr
          · rw [Except.ok.injEq] at heq
            rw [heq] at hid
            cases hid
          · rw [Except.ok.injEq] at heq
            rw [heq] at hid
            rw [List.mem_singleton.mp hid]
            exact Or.inl ⟨row, List.mem_of_find?_eq_some hfind,
              beq_iff_eq.mp (List.find?_some hfind :)⟩
      | _ => cases hid

/-- A delete leaves no link with the id it speaks of. -/
theorem exec_deleted {s : Stmt} {r : Except DbError s.Rows} {id : String} (hok : Db.TxOk db)
    (hx : Db.exec pg now tid s ch db = some (r, db')) (hid : id ∈ deletedLinks (.db s) r) :
    id ∈ db'.ids ∧ ∀ row ∈ db'.links, row.id ≠ id := by
  cases r with
  | error e => cases s <;> cases hid
  | ok rows =>
      cases s with
      | deleteLink linkId userId =>
          rcases Db.deleteLink_inv hx with ⟨_, _, herr, _⟩ | ⟨_, heq, _⟩ |
            ⟨row, hfind, _, _, heq, rfl⟩
          · cases herr
          · rw [Except.ok.injEq] at heq
            rw [heq] at hid
            cases hid
          · rw [Except.ok.injEq] at heq
            rw [heq] at hid
            rw [List.mem_singleton.mp hid]
            have hrow := List.mem_of_find?_eq_some hfind
            refine ⟨hok.drawn row hrow, fun row' hrow' heq' => ?_⟩
            rcases List.mem_filter.mp hrow' with ⟨hmem, hkept⟩
            rw [Bool.not_eq_true', Bool.eq_false_iff] at hkept
            exact hkept ((Db.ownedBy_found hok.linkKey hfind hmem).mpr
              (Db.link_unique hok hmem hrow heq'))
      | _ => cases hid

end Statements

/-- What statements say before a delete does not matter to what they say after it. -/
def SilentAfter (st : Hist) : Prop :=
  ∀ e ∈ st.log, ∀ id ∈ deletedLinks e.op e.res,
    (id ∈ st.world.db.ids ∧ ∀ row ∈ st.world.db.links, row.id ≠ id) ∧
      ∀ e' ∈ st.log, e.seq < e'.seq → id ∉ spoken e'.op e'.res

/-- The thread has heard of the link. -/
def Heard (st : Hist) (i : Nat) (id : String) : Prop :=
  ∃ e ∈ st.mine i, id ∈ spoken e.op e.res

def answering : Protocol Op Op.Res Err Reply Call Choice World Unit where
  toPolicy := Policy.free
  loc := fun _ _ => ()
  Inv := fun _ => True
  Pre := fun _ _ _ _ => True
  Post := fun i call _ r st => ∀ reply, r = .ok reply → ∀ id ∈ answered call reply, Heard st i id

section Programs

variable {P : Platform} {i : Nat} {call : Call} {st : Hist}

theorem heard_push {op : Op} {ch : Choice} {r : op.Res} {w : World} {id : String}
    (h : id ∈ spoken op r) : Heard (st.push i call op ch r w) i id :=
  ⟨_, by rw [State.push_mine]; exact List.mem_cons_self, h⟩

theorem heard_after {op : Op} {ch : Choice} {r : op.Res} {w : World} {id : String}
    (h : Heard st i id) : Heard (st.push i call op ch r w) i id := by
  rcases h with ⟨e, he, hid⟩
  exact ⟨e, by rw [State.push_mine]; exact List.mem_cons_of_mem _ he, hid⟩

theorem heard_later {st' : Hist} {id : String} (hl : Later (fun _ _ => ()) i st st')
    (h : Heard st i id) : Heard st' i id := by
  unfold Heard
  rw [hl.mine_eq]
  exact h

/-- A lookup of one link. -/
theorem getLink_heard {userId linkId : String} {Post : Except Err (Option Link) → Hist → Prop}
    (herr : ∀ e st', Post (.error e) st')
    (hok : ∀ (rows : List LinkRow) st', (∀ row ∈ rows, Db.ownedBy linkId userId row = true) →
      (∀ id ∈ rows.map (·.id), Heard st' i id) → Post (.ok (rows.head?.map toLink)) st') :
    Sat (clickScope P) answering i call Post (getLink userId linkId) st := by
  refine sat_bind _ _ (sat_query fun st₁ _ _ _ => ⟨trivial, fun ch r db _ hx => ?_⟩)
  cases r with
  | error e => exact herr _ _
  | ok rows =>
      refine hok rows _ (fun row hrow => ?_) (fun id hid => heard_push hid)
      rw [Db.linkById_ok hx] at hrow
      exact (List.mem_filter.mp hrow).2

theorem head_heard {rows : List LinkRow} {st' : Hist} (h : ∀ id ∈ rows.map (·.id), Heard st' i id) :
    ∀ id ∈ (rows.head?.map toLink).toList.map (·.id), Heard st' i id := by
  intro id hid
  cases rows with
  | nil => cases hid
  | cons row rest =>
      rw [List.mem_singleton.mp hid]
      exact h _ (List.mem_map_of_mem List.mem_cons_self)

/-- An insert that went through. -/
theorem insertLink_heard {userId shortCode : String} {input : CreateLinkInput}
    {hash : Option String} {Post : Except Err (Option LinkRow) → Hist → Prop}
    (herr : ∀ e st', Post (.error e) st') (hnone : ∀ st', Post (.ok none) st')
    (hok : ∀ row st', Heard st' i row.id → Post (.ok (some row)) st') :
    Sat (clickScope P) answering i call Post (insertLink userId shortCode input hash) st := by
  refine sat_tryCatch _ _ (sat_bind _ _ (sat_query fun st₁ _ _ _ =>
    ⟨trivial, fun ch r db _ hx => ?_⟩))
  rcases Db.insertLink_inv hx with ⟨_, ⟨rfl, _, _⟩ | ⟨e, rfl, _, _⟩⟩
  · exact hok _ _ (heard_push List.mem_cons_self)
  · simp only [Except.mapError, thenSat_error, catchSat_error]
    by_cases hv : (Err.db e).isUniqueViolation = true
    · rw [if_pos hv]
      exact hnone _
    · rw [if_neg hv]
      exact herr _ _

theorem createGenerated_heard {userId : String} {input : CreateLinkInput} {hash : Option String}
    {Post : Except Err Link → Hist → Prop} (herr : ∀ e st', Post (.error e) st')
    (hok : ∀ link st', Heard st' i link.id → Post (.ok link) st') :
    ∀ (attempts : Nat) (st : Hist), Sat (clickScope P) answering i call Post
      (createGenerated userId input hash attempts) st := by
  intro attempts
  induction attempts with
  | zero => exact fun st => herr _ _
  | succ n ih =>
      intro st
      refine sat_bind _ _ (sat_perform fun st₁ _ _ _ => ⟨trivial, fun ch r w _ _ => ?_⟩)
      refine sat_bind _ _ (insertLink_heard (fun e st' => herr e st') (fun st' => ih st') ?_)
      exact fun row st' h => hok (toLink row) st' h

theorem createAliased_heard {userId customAlias : String} {input : CreateLinkInput}
    {hash : Option String} {Post : Except Err Link → Hist → Prop}
    (herr : ∀ e st', Post (.error e) st')
    (hok : ∀ link st', Heard st' i link.id → Post (.ok link) st') :
    Sat (clickScope P) answering i call Post (createAliased userId customAlias input hash) st := by
  refine sat_bind _ _ (sat_query fun st₁ _ _ _ => ⟨trivial, fun ch r db _ _ => ?_⟩)
  cases r with
  | error e => exact herr _ _
  | ok ids =>
      simp only [Except.mapError, thenSat_ok]
      cases ids.head? with
      | some _ => exact herr _ _
      | none =>
          refine sat_bind _ _ (insertLink_heard (fun e st' => herr e st')
            (fun st' => herr _ st') (fun row st' h => ?_))
          -- The invalidation comes after the row is known.
          refine sat_bind _ _ (invalidateLinkCache_sat fun st₂ hl _ _ =>
            ⟨trivial, fun ch r s _ _ => ?_⟩)
          exact hok (toLink row) _ (heard_after (heard_later hl h))

/-- What is left of a creation once its password is hashed. -/
theorem createHashed_heard {userId : String} {input : CreateLinkInput} {hash : Option String}
    {Post : Except Err Link → Hist → Prop} (herr : ∀ e st', Post (.error e) st')
    (hok : ∀ link st', Heard st' i link.id → Post (.ok link) st') :
    Sat (clickScope P) answering i call Post
      (match truthy input.customAlias with
        | some customAlias => createAliased userId customAlias input hash
        | none => createGenerated userId input hash MAX_GENERATION_ATTEMPTS) st := by
  cases truthy input.customAlias with
  | some customAlias => exact createAliased_heard herr hok
  | none => exact createGenerated_heard herr hok _ st

theorem createLink_heard {userId : String} {input : CreateLinkInput}
    {Post : Except Err Link → Hist → Prop} (herr : ∀ e st', Post (.error e) st')
    (hok : ∀ link st', Heard st' i link.id → Post (.ok link) st') :
    Sat (clickScope P) answering i call Post (createLink userId input) st := by
  unfold createLink
  cases truthy input.password with
  | none => exact createHashed_heard herr hok
  | some plain =>
      refine sat_bind _ _ (sat_bind _ _ (sat_perform fun st₁ _ _ _ =>
        ⟨trivial, fun ch r w _ _ => ?_⟩))
      exact createHashed_heard herr hok

theorem listLinks_heard {countFirst : Bool} {userId : String} {options : ListLinksOptions}
    {Post : Except Err ListLinksResult → Hist → Prop} (herr : ∀ e st', Post (.error e) st')
    (hok : ∀ result st', (∀ id ∈ result.links.map (·.id), Heard st' i id) →
      Post (.ok result) st') :
    Sat (clickScope P) answering i call Post (listLinks countFirst userId options) st := by
  have hids : ∀ rows : List LinkRow, (rows.map toLink).map (·.id) = rows.map (·.id) := by
    intro rows
    rw [List.map_map]
    rfl
  cases countFirst with
  | true =>
      refine sat_bind _ _ (sat_query fun st₁ _ _ _ => ⟨trivial, fun ch r db _ _ => ?_⟩)
      cases r with
      | error e => exact herr _ _
      | ok total =>
          refine sat_bind _ _ (sat_query fun st₂ _ _ _ => ⟨trivial, fun ch r db _ _ => ?_⟩)
          cases r with
          | error e => exact herr _ _
          | ok rows =>
              refine hok _ _ (fun id hid => heard_push ?_)
              rw [hids] at hid
              exact hid
  | false =>
      refine sat_bind _ _ (sat_query fun st₁ _ _ _ => ⟨trivial, fun ch r db _ _ => ?_⟩)
      cases r with
      | error e => exact herr _ _
      | ok rows =>
          refine sat_bind _ _ (sat_query fun st₂ hl _ _ => ⟨trivial, fun ch r db _ _ => ?_⟩)
          cases r with
          | error e => exact herr _ _
          | ok total =>
              refine hok _ _ (fun id hid => heard_after (heard_later hl (heard_push ?_)))
              rw [hids] at hid
              exact hid

end Programs

section Programs

variable {P : Platform} {i : Nat} {call : Call} {st : Hist}

/-- The end of an update hears of the row it answers with. -/
theorem sendUpdate_heard {userId linkId : String} {s : SetList}
    {Post : Except Err (Option Link) → Hist → Prop} (herr : ∀ e st', Post (.error e) st')
    (hok : ∀ link st', (∀ id ∈ link.toList.map (·.id), Heard st' i id) → Post (.ok link) st') :
    Sat (clickScope P) answering i call Post (sendUpdate userId linkId s) st := by
  unfold sendUpdate
  by_cases hs : s.setClauses.length = 0
  · rw [if_pos hs]
    exact getLink_heard herr (fun rows st' _ h => hok _ st' (head_heard h))
  · rw [if_neg hs]
    refine sat_bind _ _ (sat_query fun st₁ _ _ _ => ⟨trivial, fun ch r db _ _ => ?_⟩)
    cases r with
    | error e => exact herr _ _
    | ok rows =>
        simp only [Except.mapError, thenSat_ok]
        rcases rows with _ | ⟨row, rest⟩
        · exact hok none _ (fun id hid => by cases hid)
        · refine sat_bind _ _ (invalidateLinkCache_sat fun st₂ hl _ _ =>
            ⟨trivial, fun ch r s _ _ => hok _ _ (fun id hid => ?_)⟩)
          rw [List.mem_singleton.mp hid]
          exact heard_after (heard_later hl
            (heard_push (List.mem_map_of_mem List.mem_cons_self)))

theorem updateLink_heard {userId linkId : String} {input : UpdateLinkInput}
    {Post : Except Err (Option Link) → Hist → Prop} (herr : ∀ e st', Post (.error e) st')
    (hok : ∀ link st', (∀ id ∈ link.toList.map (·.id), Heard st' i id) → Post (.ok link) st') :
    Sat (clickScope P) answering i call Post (updateLink userId linkId input) st := by
  unfold updateLink
  rcases input.password with _ | _ | plain
  · exact sendUpdate_heard herr hok
  · exact sendUpdate_heard herr hok
  · refine sat_bind _ _ (sat_bind _ _ (sat_perform fun st₁ _ _ _ =>
      ⟨trivial, fun ch r w _ _ => ?_⟩))
    exact sendUpdate_heard herr hok

/-- A text says one id at most. -/
theorem heard_read {linkId : String} {row : LinkRow} {st' : Hist}
    (hread : Uuid.read linkId = some row.id) (h : Heard st' i row.id) :
    ∀ id ∈ (Uuid.read linkId).toList, Heard st' i id := by
  intro id hid
  rw [hread, Option.toList_some, List.mem_singleton] at hid
  rw [hid]
  exact h

theorem deleteLink_heard {userId linkId : String} {Post : Except Err Bool → Hist → Prop}
    (herr : ∀ e st', Post (.error e) st') (hno : ∀ st', Post (.ok false) st')
    (hok : ∀ st', (∀ id ∈ (Uuid.read linkId).toList, Heard st' i id) → Post (.ok true) st') :
    Sat (clickScope P) answering i call Post (deleteLink userId linkId) st := by
  refine sat_bind _ _ (sat_query fun st₁ _ _ _ => ⟨trivial, fun ch r db _ hx => ?_⟩)
  rcases Db.deleteLink_inv hx with ⟨_, _, rfl, _⟩ | ⟨_, rfl, _⟩ | ⟨row, hfind, _, _, rfl, _⟩
  · exact herr _ _
  · exact hno _
  · refine sat_bind _ _ (invalidateLinkCache_sat fun st₂ hl _ _ =>
      ⟨trivial, fun ch r s _ _ => hok _ ?_⟩)
    have hown : Db.ownedBy linkId userId row = true := List.find?_some hfind
    exact heard_read (Db.ownedBy_iff.mp hown).1
      (heard_after (heard_later hl (heard_push List.mem_cons_self)))

theorem getLinkClickStats_heard {userId linkId : String} {sinceDate : Int}
    {Post : Except Err (Option (List LinkClickStats)) → Hist → Prop}
    (herr : ∀ e st', Post (.error e) st') (hnone : ∀ st', Post (.ok none) st')
    (hok : ∀ stats st', (∀ id ∈ (Uuid.read linkId).toList, Heard st' i id) →
      Post (.ok (some stats)) st') :
    Sat (clickScope P) answering i call Post (getLinkClickStats userId linkId sinceDate) st := by
  refine sat_bind _ _ (getLink_heard (fun e st' => herr e st') fun rows st' hown h => ?_)
  rcases rows with _ | ⟨row, rest⟩
  · exact hnone st'
  · have hread := (Db.ownedBy_iff.mp (hown row List.mem_cons_self)).1
    have hheard : Heard st' i row.id := h _ (List.mem_map_of_mem List.mem_cons_self)
    refine sat_bind _ _ (sat_query fun st₁ hl _ _ => ⟨trivial, fun ch r db _ _ => ?_⟩)
    cases r with
    | error e => exact herr _ _
    | ok buckets => exact hok _ _ (heard_read hread (heard_after (heard_later hl hheard)))

/-- What a reply speaks of, the call has heard of. -/
theorem body_answers : Sat (clickScope P) answering i call (answering.Post i call st)
    (body P call) st := by
  -- An error speaks of nothing.
  have herr : ∀ (e : Err) (st' : Hist), answering.Post i call st (.error e) st' :=
    fun e st' reply h => by cases h
  have hok : ∀ (reply : Reply) (st' : Hist), (∀ id ∈ answered call reply, Heard st' i id) →
      answering.Post i call st (.ok reply) st' := by
    intro reply st' h reply' heq
    rw [← Except.ok.inj heq]
    exact h
  cases call with
  | createLink userId input =>
      refine sat_map (createLink_heard (fun e st' => herr e st') fun link st' h => ?_)
      refine hok _ st' (fun id hid => ?_)
      rw [List.mem_singleton.mp hid]
      exact h
  | listLinks countFirst userId options =>
      exact sat_map (listLinks_heard (fun e st' => herr e st') fun result st' h => hok _ st' h)
  | getLink userId linkId =>
      exact sat_map (getLink_heard (fun e st' => herr e st') fun rows st' _ h =>
        hok _ st' (head_heard h))
  | updateLink userId linkId input =>
      exact sat_map (updateLink_heard (fun e st' => herr e st') fun link st' h => hok _ st' h)
  | deleteLink userId linkId =>
      exact sat_map (deleteLink_heard (fun e st' => herr e st')
        (fun st' => hok _ st' (fun id hid => by cases hid)) fun st' h => hok _ st' h)
  | getLinkClickStats userId linkId sinceDate =>
      exact sat_map (getLinkClickStats_heard (fun e st' => herr e st')
        (fun st' => hok _ st' (fun id hid => by cases hid)) fun stats st' h => hok _ st' h)
  | _ =>
      -- The other replies are not about the links of an owner.
      refine sat_performs (fun _ _ _ _ => trivial) (fun r st' reply _ id hid => ?_)
      cases reply <;> cases hid

end Programs

section Runs

variable {P : Platform} {w₀ : World} {c : Site}

theorem answering_sound : Sound (clickScope P) answering where
  env := fun _ _ _ _ _ => trivial
  env_loc := fun _ _ _ _ _ => rfl
  reap := fun _ _ _ => trivial
  reap_loc := fun _ _ _ _ => rfl
  exec := fun _ _ _ _ _ _ _ _ _ _ _ _ => trivial
  exec_loc := fun _ _ _ _ _ _ _ _ _ => rfl
  body := fun _ _ _ _ _ _ _ => body_answers

/-- A step of a run keeps a deleted link away. -/
theorem gone_step {w w' : World} (h : RowStep w w') {id : String}
    (hgone : id ∈ w.db.ids ∧ ∀ row ∈ w.db.links, row.id ≠ id) :
    id ∈ w'.db.ids ∧ ∀ row ∈ w'.db.links, row.id ≠ id := by
  refine ⟨h.ids id hgone.1, fun row hrow hid => ?_⟩
  rcases h.links row hrow with ⟨old, hold, hev⟩ | hnew
  · exact hgone.2 old hold (hev.id.symm.trans hid)
  · exact hnew (hid ▸ hgone.1)

theorem silentAfter_move {st : Hist} {w : World} (h : SilentAfter st) (hstep : RowStep st.world w) :
    SilentAfter { st with world := w } :=
  fun e he id hid => ⟨gone_step hstep (h e he id hid).1, (h e he id hid).2⟩

theorem silentAfter_push {st : Hist} {i : Nat} {call : Call} {op : Op} {ch : Choice} {r : op.Res}
    {w : World} (hseq : st.SeqLt) (hok : Db.TxOk st.world.db) (h : SilentAfter st)
    (hstep : RowStep st.world w) (hx : exec P i op ch st.world = some (r, w)) :
    SilentAfter (st.push i call op ch r w) := by
  -- What an operation speaks of is there, or not yet drawn.
  have hspoken : ∀ id ∈ spoken op r, (∃ row ∈ st.world.db.links, row.id = id) ∨
      id ∉ st.world.db.ids := by
    intro id hid
    cases op with
    | db s =>
        rcases exec_db_inv hx with ⟨db, hdb, _⟩
        exact exec_spoken hdb hid
    | _ => cases hid
  intro e he id hid
  rcases List.mem_cons.mp he with rfl | he
  · refine ⟨?_, fun e' he' hlt => ?_⟩
    · cases op with
      | db s =>
          rcases exec_db_inv hx with ⟨db, hdb, rfl⟩
          exact exec_deleted hok hdb hid
      | _ => cases hid
    · -- Nothing comes after the new event.
      rcases List.mem_cons.mp he' with rfl | he'
      · exact absurd hlt (Nat.lt_irrefl _)
      · have := hseq e' he'
        simp only at hlt
        omega
  · rcases h e he id hid with ⟨hgone, hsilent⟩
    refine ⟨gone_step hstep hgone, fun e' he' hlt => ?_⟩
    rcases List.mem_cons.mp he' with rfl | he'
    · intro hmem
      rcases hspoken id hmem with ⟨row, hrow, hrid⟩ | hnew
      · exact hgone.2 row hrow hrid
      · exact hnew hgone.1
    · exact hsilent e' he' hlt

theorem run_silentAfter
    (hw : w₀.db = { users := [], links := [], clicks := [], txs := [], ids := [] })
    (hc : Run (clickScope P) Policy.free w₀ c) : SilentAfter c.state := by
  have hmoves := moves_rowStep (P := P) hw
  refine run_state_in (fun e he => by cases he) ?_ ?_ ?_ hc
  · exact fun d i t op k ch r w hd ht ha hp h hx =>
      silentAfter_push (run_seq_lt hd)
        (run_locksInv (by rw [hw]) (by rw [hw]) (by rw [hw]) hd).ok h
        (hmoves.exec d i t op k ch r w hd ht ha hp hx) hx
  · exact fun d e w hd h hx => silentAfter_move h (hmoves.env d e w hd hx)
  · exact fun d i hd h => silentAfter_move h (hmoves.reap d i hd)

end Runs

/-- Once a delete has answered that it deleted a link, no statement of any call
    speaks of the link again, and no owner's call that starts later is answered
    with it. -/
theorem deleted_for_good (P : Platform) (w₀ : World)
    (hw : w₀.db = { users := [], links := [], clicks := [], txs := [], ids := [] }) (c : Site)
    (hc : Run (clickScope P) Policy.free w₀ c) (e : Ev) (he : e ∈ c.state.log) (id : String)
    (hid : id ∈ deletedLinks e.op e.res) :
    (∀ e' ∈ c.state.log, e.seq < e'.seq → id ∉ spoken e'.op e'.res) ∧
    ∀ (i : Nat) (t : Task) (reply : Reply), c.threads[i]? = some t → e.seq < t.born →
      t.result = some (.ok reply) → id ∉ answered t.call reply := by
  have hsilent := (run_silentAfter hw hc e he id hid).2
  refine ⟨hsilent, fun i t reply ht hborn hr hmem => ?_⟩
  rcases run_result answering_sound trivial hc ht hr with ⟨_, st₁, _, _, _, _, hmine, hpost⟩
  -- What the reply says of the link comes from one of the call's own statements.
  rcases hpost reply rfl id hmem with ⟨e', he', hspoken⟩
  rw [hmine] at he'
  rcases State.mem_mine.mp he' with ⟨he', htid⟩
  have hlater := run_born hc i t ht e' he' htid
  exact hsilent e' he' (by omega) hspoken

/-- A link is deleted, and looked up by its owner, and a late click job finds it
    gone. -/
theorem deleted_for_good_asked : ∃ (c : Site) (e : Ev),
    Run (clickScope samplePlatform) Policy.free emptyWorld c ∧ e ∈ c.state.log ∧
    firstId ∈ deletedLinks e.op e.res ∧
    c.resultOf 4 = some (.error (.db .foreignKeyViolation)) ∧
    (∀ e' ∈ c.state.log, e.seq < e'.seq → firstId ∉ spoken e'.op e'.res) ∧
    ∀ (i : Nat) (t : Task) (reply : Reply), c.threads[i]? = some t → e.seq < t.born →
      t.result = some (.ok reply) → firstId ∉ answered t.call reply := by
  have hrun := exists_run (clickScope samplePlatform) emptyWorld
    [.spawn (.findOrCreateOAuthUser "google" "g" "a@b.c" true), .run 0 {}, .run 0 {},
      .run 0 { draw := "u" }, .run 0 {}, .spawn (.createLink "u" sampleInput),
      .run 1 { draw := "abcdefg" }, .run 1 { draw := firstId }, .spawn (.deleteLink "u" firstId),
      .run 2 {}, .run 2 {}, .spawn (.getLink "u" firstId), .run 3 {},
      .spawn (.processClickJob sampleJob), .run 4 {}, .run 4 {}, .run 4 { draw := "k" },
      .run 4 {}]
    (fun c => decide (c.resultOf 4 = some (.error (.db .foreignKeyViolation))) &&
      c.state.log.any (fun e => decide (firstId ∈ deletedLinks e.op e.res))) (by decide)
  rcases hrun with ⟨c, hc, htest⟩
  rw [Bool.and_eq_true, decide_eq_true_eq, List.any_eq_true] at htest
  rcases htest with ⟨hfailed, e, he, hid⟩
  rw [decide_eq_true_eq] at hid
  exact ⟨c, e, hc, he, hid, hfailed,
    deleted_for_good samplePlatform emptyWorld rfl c hc e he firstId hid⟩

end ClickScope
