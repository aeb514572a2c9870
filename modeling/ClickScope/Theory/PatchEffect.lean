import ClickScope.Core.LinkRoutes
import ClickScope.Theory.KeptRows
import ClickScope.Theory.Patch
import ClickScope.Theory.SecondParse
import ClickScope.Theory.Validation

/-!
# What a Patch Changes

`PATCH /api/links/:id`, from the raw body to the row.

A field of the body is absent, null, or a value, and the difference goes
through two parses, two presence tests and a `SET` list numbered at run time.
`patchedRow` says what should come of it, by the raw body alone: an absent field
keeps its column, null clears it, and a value replaces it, the password by a
hash. `patch_exact` says that this is what a patch does, to the one row with the
id and the owner, and to nothing else.

Time can pass before each operation of the handler, so the date of a body that
was accepted can be past when it is parsed again; the patch is refused then. A
patch draws one random value at most, the salt of its hash.

## Main definitions

* `patchedRow`: The row a body asks for.
* `patching`: The operations of a patch, with time passing before each.
* `PatchEffect`: What a patch does to the links.
* `PatchEnds`: How a patch ends.
* `Patched`: A patch that is not refused.

## Theorems

* `patched_asked`: The input of the service asks for the row of the body.
* `updateLink_patching`: What the service does with it.
* `patchLink_ends`: One patch.
* `patchedRow_comm`: Patches with no key in common.
* `patch_exact`: One patch, and two of them in either order.
-/

namespace ClickScope

open Async Zod

/-- Null is no value. -/
def nullOr {α : Type} (given : JsValue → Option α) : JsValue → Option α
  | .null => none
  | v => given v

/-- A column after a patch: kept if the key is absent, cleared by null, and
    otherwise the given value. -/
def patchedColumn {α : Type} (body : JsValue) (key : String) (given : JsValue → Option α)
    (old : Option α) : Option α :=
  if hasField body key then nullOr given (fieldOf body key) else old

/-- The row a body asks for, with the hash of a password, and the stamp of the
    statement. -/
def patchedRow (H : Host) (hash : String → String) (stamp : Nat) (body : JsValue)
    (row : LinkRow) : LinkRow :=
  { row with
    destinationUrl := (textOf (fieldOf body "destinationUrl")).getD row.destinationUrl
    expiresAt := patchedColumn body "expiresAt" (fun v => (toDate H v).join) row.expiresAt
    maxClicks := patchedColumn body "maxClicks" intOf row.maxClicks
    isActive := (boolOf (fieldOf body "isActive")).getD row.isActive
    passwordHash := patchedColumn body "password" (fun v => (textOf v).map hash) row.passwordHash
    updatedAt := stamp }

/-- The operations of a patch: time passes before each, and what they draw is
    among the salts that are allowed. -/
def patching (P : Platform) (tid : Nat) (salts : String → Bool) (op : Op) (x : Nat × Choice)
    (w : World) : Option (op.Res × World) :=
  if salts x.2.draw then exec P tid op x.2 { w with now := w.now + x.1 } else none

/-- An error of one of the two parses. -/
def Err.invalid : Err → Bool
  | .zodError _ => true
  | .typeError => true
  | .app e => e.statusCode == 400
  | _ => false

/-- The answer to a patch of a link that is there. -/
def patchReply (row : LinkRow) : LinkReply := { status := 200, body := .link (toLink row) }

/-- What a patch does to the links, with a salt for its hash. The row is the one
    whose id is said, in whatever spelling. -/
structure PatchEffect (P : Platform) (H : Host) (userId id : String) (body : JsValue)
    (salt : String) (db : Db) (r : Except Err LinkReply) (db' : Db) : Prop where
  /-- The row is the one the body asks for, and every other is as it was. -/
  owned : ∀ row ∈ db.links, Uuid.read id = some row.id → row.userId = userId →
    ∃ stamp, (body = .object [] → stamp = row.updatedAt) ∧
      r = .ok (patchReply (patchedRow H (P.bcrypt.hash · salt) stamp body row)) ∧
      db' = { db with links := db.links.map (fun other =>
        if other.id = row.id then patchedRow H (P.bcrypt.hash · salt) stamp body row
        else other) }
  /-- Without such a row nothing changes. -/
  foreign : (∀ row ∈ db.links, Uuid.read id = some row.id → row.userId ≠ userId) →
    r = .error (.app (notFound "Link not found")) ∧ db' = db

section Inputs

variable {H : Host} {t : Nat} {fields out : List (String × JsValue)}

/-- A key of an optional field is in the output exactly if it is in the body. -/
theorem has_same {key : String} {s : Schema} (hmem : (key, Zod.optional s) ∈ updateLinkShape H)
    (h : Accepts (updateLinkSchema H) t (.object fields) (.object out)) :
    has out key = has fields key := by
  have hfield := accepts_field (updateLinkShape_nodup H) h hmem
  by_cases hhas : has fields key = true
  · rw [hhas, hfield.2.1 hhas]
  · have habsent : has fields key = false := Bool.eq_false_of_not_eq_true hhas
    by_contra hne
    rw [habsent, Bool.not_eq_false] at hne
    -- An absent key comes to `undefined`, which is not set.
    have hset : get out key ≠ .undefined := hfield.2.2 habsent hne
    have hacc := hfield.1
    rw [get_of_not_has habsent] at hacc
    rcases accepts_optional.mp hacc with ⟨_, hundef⟩ | ⟨hnot, _⟩
    · exact hset hundef
    · exact hnot rfl

theorem accepts_urlText {v a : JsValue}
    (h : Accepts (Zod.optional (destinationUrlSchema H)) t v a) : textOf a = textOf v := by
  rcases accepts_optional.mp h with ⟨rfl, rfl⟩ | ⟨_, hacc⟩
  · rfl
  · rcases accepts_string.mp (accepts_refine.mp hacc).1 with ⟨s, rfl, rfl, _⟩
    rfl

theorem accepts_time {v a : JsValue}
    (h : Accepts (Zod.optional (Zod.nullable (futureDateSchema H))) t v a) :
    timeOf a = nullOr (fun v => (toDate H v).join) v := by
  rcases accepts_optional.mp h with ⟨rfl, rfl⟩ | ⟨_, hacc⟩
  · rfl
  · rcases accepts_nullable.mp hacc with ⟨rfl, rfl⟩ | ⟨hnull, hdate⟩
    · rfl
    · rcases accepts_futureDate.mp hdate with ⟨d, hd, _, rfl⟩
      have hgiven : nullOr (fun v => (toDate H v).join) v = (toDate H v).join := by
        cases v with
        | null => exact absurd rfl hnull
        | _ => rfl
      rw [hgiven, hd]
      rfl

theorem accepts_cap {v a : JsValue}
    (h : Accepts (Zod.optional (Zod.nullable maxClicksSchema)) t v a) :
    intOf a = nullOr intOf v := by
  rcases accepts_optional.mp h with ⟨rfl, rfl⟩ | ⟨_, hacc⟩
  · rfl
  · rcases accepts_nullable.mp hacc with ⟨rfl, rfl⟩ | ⟨_, hnumber⟩
    · rfl
    · rcases accepts_number.mp hnumber with ⟨n, rfl, rfl, _⟩
      rfl

theorem accepts_active {v a : JsValue} (h : Accepts (Zod.optional Zod.boolean) t v a) :
    boolOf a = boolOf v := by
  rcases accepts_optional.mp h with ⟨rfl, rfl⟩ | ⟨_, hacc⟩
  · rfl
  · rcases accepts_boolean.mp hacc with ⟨b, rfl, rfl⟩
    rfl

theorem accepts_secret {v a : JsValue} (hash : String → String)
    (h : Accepts (Zod.optional (Zod.nullable linkPasswordSchema)) t v a) :
    (textOf a).map hash = nullOr (fun v => (textOf v).map hash) v := by
  rcases accepts_optional.mp h with ⟨rfl, rfl⟩ | ⟨_, hacc⟩
  · rfl
  · rcases accepts_nullable.mp hacc with ⟨rfl, rfl⟩ | ⟨_, hstring⟩
    · rfl
    · rcases accepts_string.mp hstring with ⟨s, rfl, rfl, _⟩
      rfl

/-- A column by the input is the column by the body. -/
theorem presentIn_column {α β : Type} {key : String} {given : JsValue → Option β}
    {value : Option α} {f : Option α → Option β} {old : Option β}
    (hhas : has out key = has fields key) (hvalue : f value = nullOr given (get fields key)) :
    ((presentIn (.object out) key value).map f).getD old
      = patchedColumn (.object fields) key given old := by
  have hout : hasField (.object out) key = has fields key := hhas
  have hbody : hasField (.object fields) key = has fields key := rfl
  unfold presentIn patchedColumn
  rw [hout, hbody]
  cases has fields key with
  | true => exact hvalue
  | false => rfl

/-- The row the service is asked for is the row the body asks for. -/
theorem patched_asked (h : Accepts (updateLinkSchema H) t (.object fields) (.object out))
    (hash : String → String) (stamp : Nat) (row : LinkRow) :
    patched stamp (updateInput (.object out) (.object out))
        ((updateInput (.object out) (.object out)).password.map (fun p => p.map hash)) row
      = patchedRow H hash stamp (.object fields) row := by
  have hfield : ∀ p ∈ updateLinkShape H, Accepts p.2 t (get fields p.1) (get out p.1) :=
    fun p hp => (accepts_field (updateLinkShape_nodup H) h hp).1
  have hurlMem : ("destinationUrl", Zod.optional (destinationUrlSchema H)) ∈ updateLinkShape H := by
    simp [updateLinkShape]
  have hexpMem : ("expiresAt", Zod.optional (Zod.nullable (futureDateSchema H)))
      ∈ updateLinkShape H := by
    simp [updateLinkShape]
  have hcapMem : ("maxClicks", Zod.optional (Zod.nullable maxClicksSchema))
      ∈ updateLinkShape H := by
    simp [updateLinkShape]
  have hactiveMem : ("isActive", Zod.optional Zod.boolean) ∈ updateLinkShape H := by
    simp [updateLinkShape]
  have hsecretMem : ("password", Zod.optional (Zod.nullable linkPasswordSchema))
      ∈ updateLinkShape H := by
    simp [updateLinkShape]
  -- A column that the body does not name keeps what the row has.
  have hexp := @presentIn_column fields out _ _ "expiresAt" _ _ (fun t : Option Int => t)
    row.expiresAt (has_same hexpMem h) (accepts_time (hfield _ hexpMem))
  have hcap := @presentIn_column fields out _ _ "maxClicks" _ _ (fun n : Option Int => n)
    row.maxClicks (has_same hcapMem h) (accepts_cap (hfield _ hcapMem))
  have hsecret := @presentIn_column fields out _ _ "password" _ _ (fun p => p.map hash)
    row.passwordHash (has_same hsecretMem h) (accepts_secret hash (hfield _ hsecretMem))
  rw [Option.map_id'] at hexp hcap
  unfold patched patchedRow
  simp only [updateInput, fieldOf, hexp, hcap, hsecret, accepts_urlText (hfield _ hurlMem),
    accepts_active (hfield _ hactiveMem)]

/-- An empty body asks for nothing, and has no clause. -/
theorem updateInput_empty (h : Accepts (updateLinkSchema H) t (.object []) (.object out))
    (hash : String → String) :
    (setListOf (updateInput (.object out) (.object out))
      ((updateInput (.object out) (.object out)).password.map
        (fun p => p.map hash))).setClauses.length = 0 := by
  -- No field is added, so none of the output is given.
  have habsent : ∀ key s, (key, Zod.optional s) ∈ updateLinkShape H →
      get out key = .undefined ∧ hasField (.object out) key = false := by
    intro key s hmem
    have hhas : has out key = false := has_same hmem h
    exact ⟨get_of_not_has hhas, hhas⟩
  have hurl := habsent "destinationUrl" (destinationUrlSchema H) (by simp [updateLinkShape])
  have hexp := habsent "expiresAt" (Zod.nullable (futureDateSchema H)) (by simp [updateLinkShape])
  have hcap := habsent "maxClicks" (Zod.nullable maxClicksSchema) (by simp [updateLinkShape])
  have hactive := habsent "isActive" Zod.boolean (by simp [updateLinkShape])
  have hsecret := habsent "password" (Zod.nullable linkPasswordSchema) (by simp [updateLinkShape])
  have hnone : updateInput (.object out) (.object out)
      = { destinationUrl := none, expiresAt := none, maxClicks := none, isActive := none,
          password := none } := by
    simp only [updateInput, presentIn, fieldOf, hurl.1, hexp.2, hcap.2, hactive.1, hsecret.2,
      textOf, boolOf, Bool.false_eq_true, if_false]
  rw [hnone]
  rfl

/-- The date field of a raw body is accepted later as long as the date is
    ahead. -/
theorem nullableDate_later {t' : Nat} {v a : JsValue}
    (hahead : ∀ d, dateOfField H v = some d → (t' : Int) < d)
    (h : Accepts (Zod.optional (Zod.nullable (futureDateSchema H))) t v a) :
    Accepts (Zod.optional (Zod.nullable (futureDateSchema H))) t' v a := by
  rcases accepts_optional.mp h with ⟨rfl, rfl⟩ | ⟨hv, hacc⟩
  · rfl
  · rcases accepts_nullable.mp hacc with ⟨rfl, rfl⟩ | ⟨hnull, hdate⟩
    · rfl
    · rcases accepts_futureDate.mp hdate with ⟨d, hd, _, rfl⟩
      -- A value that is neither absent nor null is the one the date is read from.
      have hfield : dateOfField H v = some d := by
        cases v with
        | undefined => exact absurd rfl hv
        | null => exact absurd rfl hnull
        | _ => exact congrArg Option.join hd
      have hlater : Accepts (futureDateSchema H) t' v (.date (some d)) :=
        accepts_futureDate.mpr ⟨d, hd, hahead d hfield, rfl⟩
      exact accepts_optional.mpr (Or.inr ⟨hv, accepts_nullable.mpr (Or.inr ⟨hnull, hlater⟩)⟩)

theorem destinationUrl_later {t' : Nat} {v a : JsValue}
    (h : Accepts (Zod.optional (destinationUrlSchema H)) t v a) :
    Accepts (Zod.optional (destinationUrlSchema H)) t' v a := by
  rcases accepts_optional.mp h with ⟨rfl, rfl⟩ | ⟨_, hacc⟩
  · rfl
  · rcases accepts_string.mp (accepts_refine.mp hacc).1 with ⟨s, rfl, _⟩
    exact hacc

/-- A raw body is accepted later as long as the date it asks for is ahead. No
    other field reads the clock. -/
theorem updateLink_later {t' : Nat} {body a : JsValue} (h : Accepts (updateLinkSchema H) t body a)
    (hahead : ∀ d, requestedExpiry H body = some d → (t' : Int) < d) :
    Accepts (updateLinkSchema H) t' body a := by
  rcases schema_object (s := .updateLink) h with ⟨fields, _, rfl, _⟩
  refine object_later h (fun p hp b hacc => ?_)
  simp only [updateLinkShape, List.mem_cons, List.not_mem_nil, or_false] at hp
  rcases hp with rfl | rfl | rfl | rfl | rfl
  · exact destinationUrl_later hacc
  · exact nullableDate_later hahead hacc
  · exact hacc
  · exact hacc
  · exact hacc

end Inputs

/-- How `updateLink` ends, with a salt for its hash. The clauses decide whether
    the stamp of the row is a new one. -/
def UpdateEnds (P : Platform) (userId id : String) (input : UpdateLinkInput) (salt : String)
    (db : Db) (r : Except Err (Option Link)) (db' : Db) : Prop :=
  (∃ e, r = .error (.db e)) ∨
    (db.links.find? (Db.ownedBy id userId) = none ∧ r = .ok none ∧ db' = db) ∨
    ∃ row stamp row', db.links.find? (Db.ownedBy id userId) = some row ∧
      row' = patched stamp input (input.password.map (fun p => p.map (P.bcrypt.hash · salt))) row ∧
      ((setListOf input
          (input.password.map (fun p => p.map (P.bcrypt.hash · salt)))).setClauses.length = 0 →
        stamp = row.updatedAt) ∧
      r = .ok (some (toLink row')) ∧
      db' = { db with links := db.links.map (fun x =>
        if Db.ownedBy id userId x then row' else x) }

/-- How a patch ends. -/
def PatchEnds (P : Platform) (H : Host) (salts : String → Bool) (userId id : String)
    (body : JsValue) (w : World) (r : Except Err LinkReply) (w' : World) : Prop :=
  (∃ e, r = .error (.db e)) ∨
    (∃ e, r = .error e ∧ e.invalid = true ∧ (H.isUuid id = true →
      (∃ out, Accepts (updateLinkSchema H) w.now body out) →
      ∃ d, requestedExpiry H body = some d ∧ d ≤ (w'.now : Int))) ∨
    ∃ salt, salts salt = true ∧ PatchEffect P H userId id body salt w.db r w'.db

section Runs

variable {P : Platform} {H : Host} {tid : Nat} {salts : String → Bool} {α : Type} {w : World}
  {Post : Except Err α → World → Prop}

theorem patching_inv {op : Op} {x : Nat × Choice} {r : op.Res} {w' : World}
    (h : patching P tid salts op x w = some (r, w')) :
    salts x.2.draw = true ∧ exec P tid op x.2 { w with now := w.now + x.1 } = some (r, w') := by
  unfold patching at h
  split_ifs at h with hsalt
  exact ⟨hsalt, h⟩

/-- What is no statement leaves the database alone. -/
theorem patching_db {op : Op} {x : Nat × Choice} {r : op.Res} {w' : World}
    (h : patching P tid salts op x w = some (r, w')) (hop : ∀ s, op ≠ .db s) : w'.db = w.db := by
  have hx := exec_db_eq hop (patching_inv h).2
  exact hx

/-- Reading the clock. With an operation a salt is known to be allowed. -/
theorem patching_clock {x : Nat × Choice} {now : Nat} {w' : World}
    (h : patching P tid salts .dateNow x w = some (now, w')) :
    salts x.2.draw = true ∧ w'.db = w.db ∧ now = w'.now := by
  have hstep := patching_inv h
  have hout : w.now + x.1 = now ∧ { w with now := w.now + x.1 } = w' := by
    have hx := hstep.2
    simp only [exec, Option.some.injEq, Prod.mk.injEq] at hx
    exact hx
  rcases hout with ⟨rfl, rfl⟩
  exact ⟨hstep.1, rfl, rfl⟩

theorem makeValidator_patching {schema : Schema} {target : ValidationTarget} {raw : JsValue}
    {f : JsValue → Api α}
    (h : ∀ salt w', salts salt = true → w'.db = w.db →
      Prog.ThenWp (patching P tid salts) Post f (validated schema target w'.now raw) w') :
    ((makeValidator schema target raw).bind f).wp (patching P tid salts) Post w := by
  intro x now w' hx
  rcases patching_clock hx with ⟨hsalt, hdb, rfl⟩
  have hafter := h x.2.draw w' hsalt hdb
  rcases hv : validated schema target w'.now raw with e | data
  · rw [hv] at hafter
    simp only [Prog.ret_bind, hv]
    exact hafter
  · rw [hv] at hafter
    simp only [Prog.ret_bind, hv]
    exact hafter

theorem parse_patching {schema : Schema} {data : JsValue} {f : JsValue → Api α}
    (h : ∀ w', w'.db = w.db →
      Prog.ThenWp (patching P tid salts) Post f (parsed schema w'.now data) w') :
    ((parse schema data).bind f).wp (patching P tid salts) Post w := by
  intro x now w' hx
  rcases patching_clock hx with ⟨_, hdb, rfl⟩
  have hafter := h w' hdb
  rcases hp : parsed schema w'.now data with e | out
  · rw [hp] at hafter
    simp only [Prog.ret_bind, hp]
    exact hafter
  · rw [hp] at hafter
    simp only [Prog.ret_bind, hp]
    exact hafter

theorem hashField_patching {password : Option (Option String)}
    {f : Option (Option String) → Api α} (hsome : ∃ salt, salts salt = true)
    (h : ∀ salt w', salts salt = true → w'.db = w.db →
      (f (password.map (fun p => p.map (P.bcrypt.hash · salt)))).wp (patching P tid salts) Post
        w') :
    ((hashField password).bind f).wp (patching P tid salts) Post w := by
  rcases hsome with ⟨salt, hsalt⟩
  rcases password with _ | _ | plain
  · exact h salt w hsalt rfl
  · exact h salt w hsalt rfl
  · intro x r w' hx
    have hstep := patching_inv hx
    -- Hashing draws its salt, which is the one the patch is told of.
    have hr : r = P.bcrypt.hash plain x.2.draw := by
      have hout := hstep.2
      simp only [exec, Option.some.injEq, Prod.mk.injEq] at hout
      exact hout.1.symm
    rw [hr]
    exact h x.2.draw w' hstep.1 (patching_db hx (by simp))

theorem invalidateLinkCache_patching {shortCode : String} :
    (invalidateLinkCache shortCode).wp (patching P tid salts)
      (fun r w' => r = .ok () ∧ w'.db = w.db) w := by
  intro x r w' hx
  have hdb : w'.db = w.db := patching_db hx (by simp)
  rcases r with e | reply
  · exact ⟨rfl, hdb⟩
  · exact ⟨rfl, hdb⟩

/-- The update of a set list: refused, no row, or the one row it selects. -/
theorem updateLink_outcome {set : List SetClause} {values : List SqlValue} {linkId userId : String}
    {pg : Postgres} {now : Nat} {ch : Choice} {db db' : Db} {r : Except DbError (List LinkRow)}
    (h : Db.exec pg now tid (.updateLink set
        ((values ++ [SqlValue.uuid linkId, .account userId]).length - 1)
        (values ++ [SqlValue.uuid linkId, .account userId]).length
        (values ++ [SqlValue.uuid linkId, .account userId])) ch db = some (r, db')) :
    (∃ e, r = .error e) ∨
      (db.links.find? (Db.ownedBy linkId userId) = none ∧ r = .ok [] ∧ db' = db) ∨
      ∃ row row', db.links.find? (Db.ownedBy linkId userId) = some row ∧
        applySet (now - ch.waited) (values ++ [.uuid linkId, .account userId]) set row = .ok row' ∧
        r = .ok [row'] ∧
        db' = { db with links := db.links.map (fun x =>
          if Db.ownedBy linkId userId x then row' else x) } := by
  have hids := param_ids values linkId userId
  rcases Db.updateLink_inv h with ⟨e, he, _⟩ | ⟨hr, hdb⟩ |
    ⟨id, user, row, row', hid, huser, _, hfind, _, _, hset, _, hr, hdb⟩
  · exact Or.inl ⟨e, he⟩
  · refine Or.inr (Or.inl ⟨?_, hr, hdb⟩)
    rcases hfind : db.links.find? (Db.ownedBy linkId userId) with _ | row
    · rfl
    · -- a row that is found is updated, or the update is refused
      subst hr
      simp only [Db.exec, Db.updateLink, hids.1, hids.2, hfind] at h
      split at h
      · simp only [Option.some.injEq, Prod.mk.injEq, reduceCtorEq, false_and] at h
      · split_ifs at h
        split at h
        · simp only [Option.some.injEq, Prod.mk.injEq, reduceCtorEq, false_and] at h
        · split_ifs at h <;> simp only [Option.some.injEq, Prod.mk.injEq, reduceCtorEq,
            false_and, Except.ok.injEq, List.cons_ne_nil] at h
  · rw [hids.1, Option.some.injEq, SqlValue.uuid.injEq] at hid
    rw [hids.2, Option.some.injEq, SqlValue.account.injEq] at huser
    subst hid huser
    exact Or.inr (Or.inr ⟨row, row', hfind, hset, hr, hdb⟩)

/-- The condition of the update selects at most one row. -/
theorem owned_map {links : List LinkRow} (hkeys : links.Pairwise (fun a b => a.id ≠ b.id))
    {linkId userId : String} {row : LinkRow}
    (hfind : links.find? (Db.ownedBy linkId userId) = some row) (row' : LinkRow) :
    links.map (fun x => if Db.ownedBy linkId userId x then row' else x)
      = links.map (fun x => if x.id = row.id then row' else x) := by
  have hrow : row ∈ links := List.mem_of_find?_eq_some hfind
  refine List.map_congr_left (fun x hx => ?_)
  by_cases hid : x.id = row.id
  · have hsame : x = row := key_unique hkeys hx hrow hid
    rw [if_pos hid, if_pos ((Db.ownedBy_found hkeys hfind hx).mpr hsame)]
  · rw [if_neg hid, if_neg (fun ho => hid (by rw [(Db.ownedBy_found hkeys hfind hx).mp ho]))]

/-- Putting a row in its own place changes nothing. -/
theorem owned_map_self {links : List LinkRow} (hkeys : links.Pairwise (fun a b => a.id ≠ b.id))
    {linkId userId : String} {row : LinkRow}
    (hfind : links.find? (Db.ownedBy linkId userId) = some row) :
    links.map (fun x => if Db.ownedBy linkId userId x then row else x) = links := by
  have hsame : ∀ x ∈ links, (if Db.ownedBy linkId userId x then row else x) = x := by
    intro x hx
    by_cases ho : Db.ownedBy linkId userId x = true
    · rw [if_pos ho]
      exact ((Db.ownedBy_found hkeys hfind hx).mp ho).symm
    · rw [if_neg ho]
  rw [List.map_congr_left hsame, List.map_id']

theorem updateLink_patching {userId linkId : String} {input : UpdateLinkInput}
    (hkeys : w.db.links.Pairwise (fun a b => a.id ≠ b.id)) (hsome : ∃ salt, salts salt = true) :
    (updateLink userId linkId input).wp (patching P tid salts)
      (fun r w' => ∃ salt, salts salt = true ∧
        UpdateEnds P userId linkId input salt w.db r w'.db) w := by
  refine hashField_patching hsome (fun salt v hsalt hdb => ?_)
  unfold sendUpdate
  by_cases hempty : (setListOf input
      (input.password.map (fun p => p.map (P.bcrypt.hash · salt)))).setClauses.length = 0
  · rw [if_pos hempty]
    -- Nothing to set: the row is read, and is what it was.
    intro x r w' hx
    rcases exec_db_inv (patching_inv hx).2 with ⟨db, hexec, rfl⟩
    have hexec' : (v.db.linkById linkId userId, v.db) = (r, db) := Option.some.inj hexec
    rw [Prod.mk.injEq] at hexec'
    rw [← hexec'.1, ← hexec'.2, hdb, Db.linkById]
    rcases uuidError linkId with _ | e
    · refine ⟨salt, hsalt, Or.inr ?_⟩
      rw [List.head?_filter]
      rcases hfind : w.db.links.find? (Db.ownedBy linkId userId) with _ | row
      · exact Or.inl ⟨rfl, rfl, rfl⟩
      · refine Or.inr ⟨row, row.updatedAt, row, rfl, (setListOf_empty hempty row).symm,
          fun _ => rfl, rfl, ?_⟩
        rw [owned_map_self hkeys hfind]
    · exact ⟨salt, hsalt, Or.inl ⟨e, rfl⟩⟩
  · rw [if_neg hempty]
    intro x r w' hx
    rcases exec_db_inv (patching_inv hx).2 with ⟨db, hexec, rfl⟩
    -- Otherwise one statement sets everything, and the cache is told after it.
    rcases updateLink_outcome hexec with ⟨e, rfl⟩ | ⟨hfind, rfl, rfl⟩ |
      ⟨row, row', hfind, hset, rfl, rfl⟩
    · exact ⟨salt, hsalt, Or.inl ⟨e, rfl⟩⟩
    · rw [hdb] at hfind
      exact ⟨salt, hsalt, Or.inr (Or.inl ⟨hfind, rfl, hdb⟩)⟩
    · rw [applySet_setListOf, Except.ok.injEq] at hset
      rw [hdb] at hfind
      simp only [Prog.ret_bind, List.head?_cons]
      refine Prog.wp_bind _ _ (Prog.wp_mono (fun r u hr => ?_) _ _ invalidateLinkCache_patching)
      rw [hr.1]
      refine ⟨salt, hsalt, Or.inr (Or.inr ⟨row, _, row', hfind, hset.symm,
        fun hzero => absurd hzero hempty, rfl, ?_⟩)⟩
      rw [hr.2, hdb]

theorem idParam_text {id : String} {t : Nat} {params : JsValue}
    (h : Accepts (idParamSchema H) t (idParams id) params) : textField params "id" = id := by
  rcases accepts_object.mp h with ⟨fields, out, hfields, rfl, hparse, _⟩
  rw [idParams, JsValue.object.injEq] at hfields
  subst hfields
  rcases parseShape_cons.mp hparse with ⟨a, rest, hacc, _, rfl⟩
  rcases accepts_string.mp hacc with ⟨s, hs, rfl, _⟩
  have hsame : id = s := JsValue.string.inj hs
  rw [hsame]
  rfl

/-- A row found for the owner, and the row the body asks for. -/
theorem patchEffect_found {body : JsValue} {userId id salt : String} {db : Db} {row : LinkRow}
    {stamp : Nat} (hkeys : db.links.Pairwise (fun a b => a.id ≠ b.id))
    (hfind : db.links.find? (Db.ownedBy id userId) = some row)
    (hempty : body = .object [] → stamp = row.updatedAt) :
    PatchEffect P H userId id body salt db
      (.ok (patchReply (patchedRow H (P.bcrypt.hash · salt) stamp body row)))
      { db with links := db.links.map (fun x =>
        if Db.ownedBy id userId x then patchedRow H (P.bcrypt.hash · salt) stamp body row
        else x) } := by
  have hrow : row ∈ db.links := List.mem_of_find?_eq_some hfind
  have hown := Db.ownedBy_iff.mp (List.find?_some hfind)
  refine ⟨fun other hother hid huser => ?_, fun hforeign => ?_⟩
  · have hsame : other = row :=
      (Db.ownedBy_found hkeys hfind hother).mp (Db.ownedBy_iff.mpr ⟨hid, huser⟩)
    subst hsame
    refine ⟨stamp, hempty, rfl, ?_⟩
    rw [owned_map hkeys hfind]
  · exact absurd hown.2 (hforeign row hrow hown.1)

theorem patchEffect_missing {body : JsValue} {userId id salt : String} {db : Db}
    (hfind : db.links.find? (Db.ownedBy id userId) = none) :
    PatchEffect P H userId id body salt db (.error (.app (notFound "Link not found"))) db := by
  refine ⟨fun row hrow hid huser => ?_, fun _ => ⟨rfl, rfl⟩⟩
  exact absurd (Db.ownedBy_iff.mpr ⟨hid, huser⟩) (List.find?_eq_none.mp hfind row hrow)

/-- The end of the handler, after the two parses. -/
theorem updated_ends {userId id : String} {fields out : List (String × JsValue)} {t : Nat}
    {answer : Option Link → Api LinkReply} (hkeys : w.db.links.Pairwise (fun a b => a.id ≠ b.id))
    (hsome : ∃ salt, salts salt = true)
    (hacc : Accepts (updateLinkSchema H) t (.object fields) (.object out))
    (hmissing : answer none = .throw (.app (notFound "Link not found")))
    (hfound : ∀ link, answer (some link) = .ret { status := 200, body := .link link }) :
    ((updateLink userId id (updateInput (.object out) (.object out))).bind answer).wp
      (patching P tid salts)
      (fun r w' => (∃ e, r = .error (.db e)) ∨ ∃ salt, salts salt = true ∧
        PatchEffect P H userId id (.object fields) salt w.db r w'.db) w := by
  refine Prog.wp_bind _ _ (Prog.wp_mono (fun r u hr => ?_) _ _ (updateLink_patching hkeys hsome))
  rcases hr with ⟨salt, hsalt, ⟨e, rfl⟩ | ⟨hfind, rfl, hdb⟩ |
    ⟨row, stamp, row', hfind, hrow, hstamp, rfl, hdb⟩⟩
  · exact Or.inl ⟨e, rfl⟩
  · rw [Prog.thenWp_ok, hmissing]
    refine Or.inr ⟨salt, hsalt, ?_⟩
    rw [hdb]
    exact patchEffect_missing hfind
  · rw [Prog.thenWp_ok, hfound]
    refine Or.inr ⟨salt, hsalt, ?_⟩
    -- The input that was read from the output patches as the body asks.
    rw [patched_asked hacc] at hrow
    rw [hdb, hrow]
    refine patchEffect_found hkeys hfind (fun hempty => hstamp ?_)
    rw [JsValue.object.injEq] at hempty
    subst hempty
    exact updateInput_empty hacc _

/-- How a patch ends: with an error of the database, with one of the two parses,
    or with its effect. The parses fail for an accepted body only when its date
    has come. -/
theorem patchLink_ends {userId id : String} {body : JsValue}
    (hkeys : w.db.links.Pairwise (fun a b => a.id ≠ b.id)) :
    (patchLink H userId id body).wp (patching P tid salts)
      (PatchEnds P H salts userId id body w) w := by
  refine makeValidator_patching (fun salt w₁ hsalt hdb₁ => ?_)
  rcases hv : validated (idParamSchema H) .params w₁.now (idParams id) with e | params
  · -- a parameter that is no uuid
    have hinvalid : e.invalid = true :=
      validated_error (·.invalid = true) (fun _ => rfl) rfl hv
    refine Or.inr (Or.inl ⟨e, rfl, hinvalid, fun hid => ?_⟩)
    rw [validated_ok.mpr (accepts_id hid w₁.now)] at hv
    cases hv
  have hparams := validated_ok.mp hv
  refine makeValidator_patching (fun _ w₂ _ hdb₂ => ?_)
  rcases hb : validated (updateLinkSchema H) .body w₂.now body with e | validBody
  · have hinvalid : e.invalid = true :=
      validated_error (·.invalid = true) (fun _ => rfl) rfl hb
    refine Or.inr (Or.inl ⟨e, rfl, hinvalid, fun _ hacc => ?_⟩)
    by_contra hahead
    rcases hacc with ⟨out, hout⟩
    -- The body was accepted before, and no date has come since.
    have hagain : Accepts (updateLinkSchema H) w₂.now body out := by
      refine updateLink_later hout (fun d hd => ?_)
      by_contra hpast
      exact hahead ⟨d, hd, Int.not_lt.mp hpast⟩
    rw [validated_ok.mpr hagain] at hb
    cases hb
  have hbody := validated_ok.mp hb
  refine parse_patching (fun w₃ hdb₃ => ?_)
  rcases hp : parsed (idParamSchema H) w₃.now params with e | parsedParams
  · have hinvalid : e.invalid = true :=
      parsed_error (·.invalid = true) (fun _ => rfl) rfl hp
    refine Or.inr (Or.inl ⟨e, rfl, hinvalid, fun hid => ?_⟩)
    have hagain : Accepts (idParamSchema H) w₃.now params params :=
      idempotent_schema H .idParam rfl w₁.now w₃.now _ _ hparams
    rw [parsed_ok.mpr hagain] at hp
    cases hp
  refine parse_patching (fun w₄ hdb₄ => ?_)
  rcases hq : parsed (updateLinkSchema H) w₄.now validBody with e | out
  · have hinvalid : e.invalid = true :=
      parsed_error (·.invalid = true) (fun _ => rfl) rfl hq
    refine Or.inr (Or.inl ⟨e, rfl, hinvalid, fun _ _ => ?_⟩)
    by_contra hahead
    rcases schema_object (s := .updateLink) hbody with ⟨fields, data, rfl, rfl⟩
    have hagain : Accepts (updateLinkSchema H) w₄.now (.object data) (.object data) := by
      refine (date_reparse (s := .updateLink) rfl hbody).1.mpr (fun d hd => ?_)
      by_contra hpast
      exact hahead ⟨d, hd, Int.not_lt.mp hpast⟩
    rw [parsed_ok.mpr hagain] at hq
    cases hq
  -- Both parses gave what the middleware made.
  have hsame : out = validBody := second_same (s := .updateLink) hbody (parsed_ok.mp hq)
  have hid : textField parsedParams "id" = id := by
    rw [second_same (s := .idParam) hparams (parsed_ok.mp hp)]
    exact idParam_text hparams
  have hdb : w₄.db = w.db := hdb₄.trans (hdb₃.trans (hdb₂.trans hdb₁))
  rcases schema_object (s := .updateLink) hbody with ⟨fields, data, rfl, rfl⟩
  rw [hsame, hid]
  refine Prog.wp_mono (fun r w' hr => ?_) _ _
    (updated_ends (hdb ▸ hkeys) ⟨salt, hsalt⟩ hbody rfl (fun _ => rfl))
  rw [hdb] at hr
  exact hr.imp_right Or.inr

end Runs

/-- A row without its stamp. -/
def LinkRow.unstamped (row : LinkRow) : LinkRow := { row with updatedAt := 0 }

/-- A database without the stamps of its links. -/
def Db.unstamped (db : Db) : Db := { db with links := db.links.map LinkRow.unstamped }

section Orders

variable {P : Platform} {H : Host} {userId id : String} {body b₁ b₂ : JsValue}
  {db db₁ db₂ db₁' db₂' : Db} {salt s₁ s₂ : String}

theorem fieldOf_absent {key : String} (h : hasField body key = false) :
    fieldOf body key = .undefined := by
  cases body with
  | object fields => exact get_of_not_has h
  | _ => rfl

theorem patchedColumn_comm {α : Type} {key : String} {given₁ given₂ : JsValue → Option α}
    {old : Option α} (h : ¬ (hasField b₁ key = true ∧ hasField b₂ key = true)) :
    patchedColumn b₂ key given₂ (patchedColumn b₁ key given₁ old)
      = patchedColumn b₁ key given₁ (patchedColumn b₂ key given₂ old) := by
  unfold patchedColumn
  by_cases h₁ : hasField b₁ key = true
  · have h₂ : ¬ hasField b₂ key = true := fun h₂ => h ⟨h₁, h₂⟩
    rw [if_pos h₁, if_pos h₁, if_neg h₂]
  · rw [if_neg h₁, if_neg h₁]

/-- The same for a column that cannot be null. -/
theorem givenColumn_comm {α : Type} {key : String} {given : JsValue → Option α} {old : α}
    (hnone : given .undefined = none)
    (h : ¬ (hasField b₁ key = true ∧ hasField b₂ key = true)) :
    (given (fieldOf b₂ key)).getD ((given (fieldOf b₁ key)).getD old)
      = (given (fieldOf b₁ key)).getD ((given (fieldOf b₂ key)).getD old) := by
  by_cases h₁ : hasField b₁ key = true
  · have h₂ : hasField b₂ key = false := Bool.eq_false_of_not_eq_true (fun h₂ => h ⟨h₁, h₂⟩)
    rw [fieldOf_absent h₂, hnone]
    rfl
  · rw [fieldOf_absent (Bool.eq_false_of_not_eq_true h₁), hnone]
    rfl

/-- Two bodies with no key in common ask for the same row in either order. -/
theorem patchedRow_comm {hash₁ hash₂ : String → String} {t₁ t₂ t₁' t₂' : Nat} {row : LinkRow}
    (hdisjoint : ∀ key, ¬ (hasField b₁ key = true ∧ hasField b₂ key = true)) :
    (patchedRow H hash₂ t₂ b₂ (patchedRow H hash₁ t₁ b₁ row)).unstamped
      = (patchedRow H hash₁ t₁' b₁ (patchedRow H hash₂ t₂' b₂ row)).unstamped := by
  have hurl := @givenColumn_comm b₁ b₂ _ _ textOf row.destinationUrl rfl
    (hdisjoint "destinationUrl")
  have hexp := @patchedColumn_comm b₁ b₂ _ _ (fun v => (toDate H v).join)
    (fun v => (toDate H v).join) row.expiresAt (hdisjoint "expiresAt")
  have hcap := @patchedColumn_comm b₁ b₂ _ _ intOf intOf row.maxClicks (hdisjoint "maxClicks")
  have hactive := @givenColumn_comm b₁ b₂ _ _ boolOf row.isActive rfl (hdisjoint "isActive")
  have hsecret := @patchedColumn_comm b₁ b₂ _ _ (fun v => (textOf v).map hash₁)
    (fun v => (textOf v).map hash₂) row.passwordHash (hdisjoint "password")
  simp only [LinkRow.unstamped, patchedRow, hurl, hexp, hcap, hactive, hsecret]

/-- A row the body asks for if the row is the owner's. -/
def patchedOwned (P : Platform) (H : Host) (userId id : String) (body : JsValue) (salt : String)
    (stamp : Nat) (row : LinkRow) : LinkRow :=
  if Db.ownedBy id userId row then patchedRow H (P.bcrypt.hash · salt) stamp body row else row

@[simp] theorem patchedOwned_id {stamp : Nat} {row : LinkRow} :
    (patchedOwned P H userId id body salt stamp row).id = row.id := by
  unfold patchedOwned
  split_ifs <;> rfl

/-- The effect of a patch, as a map over the links. -/
theorem PatchEffect.links {r : Except Err LinkReply}
    (hkeys : db.links.Pairwise (fun a b => a.id ≠ b.id))
    (h : PatchEffect P H userId id body salt db r db₁) :
    ∃ stamp, db₁
      = { db with links := db.links.map (patchedOwned P H userId id body salt stamp) } := by
  by_cases howned : ∃ row ∈ db.links, Uuid.read id = some row.id ∧ row.userId = userId
  · rcases howned with ⟨row, hrow, hid, huser⟩
    rcases h.owned row hrow hid huser with ⟨stamp, _, _, hdb⟩
    refine ⟨stamp, ?_⟩
    have hmap : ∀ x ∈ db.links,
        (if x.id = row.id then patchedRow H (P.bcrypt.hash · salt) stamp body row else x)
          = patchedOwned P H userId id body salt stamp x := by
      intro x hx
      unfold patchedOwned
      by_cases hsame : x.id = row.id
      · -- Ids are unique, so the condition on the owner adds nothing.
        have hxrow : x = row := key_unique hkeys hx hrow hsame
        rw [if_pos hsame, hxrow, if_pos (Db.ownedBy_iff.mpr ⟨hid, huser⟩)]
      · rw [if_neg hsame, if_neg (fun ho => hsame
          (Option.some.inj ((Db.ownedBy_iff.mp ho).1.symm.trans hid)))]
    rw [hdb, List.map_congr_left hmap]
  · -- Nobody's row, or another's: no row changes, whatever the stamp.
    have hforeign : ∀ row ∈ db.links, Uuid.read id = some row.id → row.userId ≠ userId :=
      fun row hrow hid huser => howned ⟨row, hrow, hid, huser⟩
    refine ⟨0, ?_⟩
    have hmap : ∀ x ∈ db.links, patchedOwned P H userId id body salt 0 x = x := by
      intro x hx
      unfold patchedOwned
      rw [if_neg (fun ho => hforeign x hx (Db.ownedBy_iff.mp ho).1 (Db.ownedBy_iff.mp ho).2)]
    rw [(h.foreign hforeign).2, List.map_congr_left hmap, List.map_id']

theorem PatchEffect.keys {r : Except Err LinkReply}
    (hkeys : db.links.Pairwise (fun a b => a.id ≠ b.id))
    (h : PatchEffect P H userId id body salt db r db₁) :
    db₁.links.Pairwise (fun a b => a.id ≠ b.id) := by
  rcases h.links hkeys with ⟨stamp, hdb⟩
  rw [hdb, List.pairwise_map]
  simp only [patchedOwned_id]
  exact hkeys

theorem patchedOwned_comm {t₁ t₂ t₁' t₂' : Nat} {row : LinkRow}
    (hdisjoint : ∀ key, ¬ (hasField b₁ key = true ∧ hasField b₂ key = true)) :
    (patchedOwned P H userId id b₂ s₂ t₂
        (patchedOwned P H userId id b₁ s₁ t₁ row)).unstamped
      = (patchedOwned P H userId id b₁ s₁ t₁'
        (patchedOwned P H userId id b₂ s₂ t₂' row)).unstamped := by
  by_cases hown : Db.ownedBy id userId row = true
  · -- a patch keeps the id and the owner
    have hkept : ∀ hash stamp body,
        Db.ownedBy id userId (patchedRow H hash stamp body row) = true :=
      fun _ _ _ => hown
    simp only [patchedOwned, hown, hkept, if_true]
    exact patchedRow_comm hdisjoint
  · simp only [patchedOwned, hown, Bool.false_eq_true, if_false]

/-- The effects of two patches with no key in common, in either order. -/
theorem effects_comm {r r' q q' : Except Err LinkReply}
    (hkeys : db.links.Pairwise (fun a b => a.id ≠ b.id))
    (hdisjoint : ∀ key, ¬ (hasField b₁ key = true ∧ hasField b₂ key = true))
    (h₁ : PatchEffect P H userId id b₁ s₁ db r db₁)
    (h₂ : PatchEffect P H userId id b₂ s₂ db₁ r' db₂)
    (h₂' : PatchEffect P H userId id b₂ s₂ db q db₁')
    (h₁' : PatchEffect P H userId id b₁ s₁ db₁' q' db₂') : db₂.unstamped = db₂'.unstamped := by
  rcases h₂.links (h₁.keys hkeys) with ⟨t₂, hdb₂⟩
  rcases h₁'.links (h₂'.keys hkeys) with ⟨t₁', hdb₂'⟩
  rcases h₁.links hkeys with ⟨t₁, rfl⟩
  rcases h₂'.links hkeys with ⟨t₂', rfl⟩
  -- Row by row: bodies with no field in common write different columns.
  have hrows : (db.links.map (patchedOwned P H userId id b₁ s₁ t₁)).map
        (fun x => (patchedOwned P H userId id b₂ s₂ t₂ x).unstamped)
      = (db.links.map (patchedOwned P H userId id b₂ s₂ t₂')).map
        (fun x => (patchedOwned P H userId id b₁ s₁ t₁' x).unstamped) := by
    rw [List.map_map, List.map_map]
    exact List.map_congr_left (fun x _ => patchedOwned_comm hdisjoint)
  rw [hdb₂, hdb₂']
  unfold Db.unstamped
  simp only [List.map_map, Function.comp_def] at hrows ⊢
  rw [hrows]

end Orders

/-- A patch that neither parse refused, and not the database. -/
def Patched (P : Platform) (H : Host) (tid : Nat) (userId id : String) (body : JsValue)
    (salt : String) (w w' : World) : Prop :=
  ∃ chs r, (patchLink H userId id body).seqRun (patching P tid (· == salt)) chs w = some (r, w') ∧
    ∀ e, r = .error e → e.invalid = false ∧ ∀ d, e ≠ .db d

theorem Patched.effect {P : Platform} {H : Host} {tid : Nat} {userId id salt : String}
    {body : JsValue} {w w' : World} (hkeys : w.db.links.Pairwise (fun a b => a.id ≠ b.id))
    (h : Patched P H tid userId id body salt w w') :
    ∃ r, PatchEffect P H userId id body salt w.db r w'.db := by
  rcases h with ⟨chs, r, hrun, hok⟩
  rcases (Prog.wp_iff _ _).mp (patchLink_ends hkeys) chs r w' hrun with ⟨d, hd⟩ |
    ⟨e, he, hinvalid, _⟩ | ⟨s, hs, heffect⟩
  · exact absurd rfl ((hok _ hd).2 d)
  · rw [(hok e he).1] at hinvalid
    cases hinvalid
  · rw [eq_of_beq hs] at heffect
    exact ⟨r, heffect⟩

/-- What a patch changes, for every run of it; and two patches with no key in
    common come to the same in either order. -/
theorem patch_exact (P : Platform) (H : Host) (tid : Nat) (userId id : String) (w : World)
    (hkeys : w.db.links.Pairwise (fun a b => a.id ≠ b.id)) :
    (∀ salts body chs r w',
      (patchLink H userId id body).seqRun (patching P tid salts) chs w = some (r, w') →
      PatchEnds P H salts userId id body w r w') ∧
    (∀ b₁ b₂ s₁ s₂ w₁ w₂ v₁ v₂,
      (∀ key, ¬ (hasField b₁ key = true ∧ hasField b₂ key = true)) →
      Patched P H tid userId id b₁ s₁ w w₁ → Patched P H tid userId id b₂ s₂ w₁ w₂ →
      Patched P H tid userId id b₂ s₂ w v₁ → Patched P H tid userId id b₁ s₁ v₁ v₂ →
      w₂.db.unstamped = v₂.db.unstamped) := by
  refine ⟨fun salts body chs r w' hrun => ?_,
    fun b₁ b₂ s₁ s₂ w₁ w₂ v₁ v₂ hdisjoint h₁ h₂ h₂' h₁' => ?_⟩
  · exact (Prog.wp_iff _ _).mp (patchLink_ends hkeys) chs r w' hrun
  · rcases h₁.effect hkeys with ⟨_, e₁⟩
    rcases h₂'.effect hkeys with ⟨_, e₂'⟩
    rcases h₂.effect (e₁.keys hkeys) with ⟨_, e₂⟩
    rcases h₁'.effect (e₂'.keys hkeys) with ⟨_, e₁'⟩
    exact effects_comm hkeys hdisjoint e₁ e₂ e₂' e₁'

/-- A link of the account `u` that expires. -/
def patchedWorld : World :=
  { ownerWorld with db := { ownerWorld.db with
      ids := [firstId],
      links := [
        { id := firstId, userId := "u", shortCode := "c", destinationUrl := "https://a.example/",
          passwordHash := none, expiresAt := some 10000, maxClicks := none, clickCount := 0,
          isActive := true, createdAt := 0, updatedAt := 0 }] } }

/-- A body that deactivates a link, and one that makes it last. -/
def stopBody : JsValue := .object [("isActive", .boolean false)]

def lastBody : JsValue := .object [("expiresAt", .null)]

/-- A patch of the link by its id in upper case, with a millisecond before each
    operation. -/
def samplePatch (body : JsValue) (w : World) : Option (Except Err LinkReply × World) :=
  (patchLink sampleHost "u" firstIdWritten body).seqRun (patching samplePlatform 0 (· == ""))
    (List.replicate 6 (1, {})) w

theorem samplePatch_patched {body : JsValue} {w : World} {o : Except Err LinkReply × World}
    (h : samplePatch body w = some o) (hok : o.1.isOk = true) :
    Patched samplePlatform sampleHost 0 "u" firstIdWritten body "" w o.2 := by
  refine ⟨_, o.1, h, fun e he => ?_⟩
  rw [he] at hok
  cases hok

theorem samplePatches {b₁ b₂ : JsValue} {w : World}
    (h : ((samplePatch b₁ w).bind (fun o => (samplePatch b₂ o.2).map (fun o' => (o, o')))).any
      (fun p => p.1.1.isOk && p.2.1.isOk) = true) :
    ∃ w₁ w₂, Patched samplePlatform sampleHost 0 "u" firstIdWritten b₁ "" w w₁ ∧
      Patched samplePlatform sampleHost 0 "u" firstIdWritten b₂ "" w₁ w₂ := by
  rcases (Option.any_eq_true _ _).mp h with ⟨⟨o₁, o₂⟩, hsome, hok⟩
  simp only [Option.bind_eq_some_iff, Option.map_eq_some_iff, Prod.mk.injEq] at hsome
  rcases hsome with ⟨o, hrun₁, o', hrun₂, rfl, rfl⟩
  rw [Bool.and_eq_true] at hok
  exact ⟨o.2, o'.2, samplePatch_patched hrun₁ hok.1, samplePatch_patched hrun₂ hok.2⟩

/-- The two patches of the link, in either order. -/
theorem patch_exact_stopped : ∃ w₁ w₂ v₁ v₂,
    Patched samplePlatform sampleHost 0 "u" firstIdWritten stopBody "" patchedWorld w₁ ∧
    Patched samplePlatform sampleHost 0 "u" firstIdWritten lastBody "" w₁ w₂ ∧
    Patched samplePlatform sampleHost 0 "u" firstIdWritten lastBody "" patchedWorld v₁ ∧
    Patched samplePlatform sampleHost 0 "u" firstIdWritten stopBody "" v₁ v₂ ∧
    w₂.db.unstamped = v₂.db.unstamped := by
  have hexact := patch_exact samplePlatform sampleHost 0 "u" firstIdWritten patchedWorld
    (List.pairwise_singleton _ _)
  have hdisjoint : ∀ key, ¬ (hasField stopBody key = true ∧ hasField lastBody key = true) := by
    rintro key ⟨hstop, hlast⟩
    -- The body that stops the link has one field.
    have hactive : key = "isActive" := by
      have hkeys : has [("isActive", JsValue.boolean false)] key = true := hstop
      rw [has_cons, Bool.or_eq_true, decide_eq_true_eq] at hkeys
      exact hkeys.resolve_right Bool.false_ne_true
    rw [hactive] at hlast
    exact absurd hlast (by decide)
  have hstop : ((samplePatch stopBody patchedWorld).bind (fun o =>
      (samplePatch lastBody o.2).map (fun o' => (o, o')))).any
        (fun p => p.1.1.isOk && p.2.1.isOk) = true := by decide
  have hlast : ((samplePatch lastBody patchedWorld).bind (fun o =>
      (samplePatch stopBody o.2).map (fun o' => (o, o')))).any
        (fun p => p.1.1.isOk && p.2.1.isOk) = true := by decide
  rcases samplePatches hstop with ⟨w₁, w₂, h₁, h₂⟩
  rcases samplePatches hlast with ⟨v₁, v₂, h₂', h₁'⟩
  exact ⟨w₁, w₂, v₁, v₂, h₁, h₂, h₂', h₁',
    hexact.2 stopBody lastBody "" "" w₁ w₂ v₁ v₂ hdisjoint h₁ h₂ h₂' h₁'⟩

end ClickScope
