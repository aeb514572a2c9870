import Mathlib.Data.List.Forall2
import Mathlib.Data.List.Nodup

/-!
# Properties in Order

The properties of an object as a list of names and values, and what writing
some of them does to the rest.

Writing a property keeps its place, or adds it at the end. Two lists that
differ only at some names differ at fewer of them after one is written, so that
writing all of them makes the lists the same.

## Main definitions

* `setOwn`, `setAll`: Writing one property, and several.
* `ownFields`: The properties of an object that is given by its members.
* `SameBut`: Lists of the same names that differ only at some of them.

## Theorems

* `lookup_setOwn`: What a property is after one was written.
* `ownFields_nodup`: Members without a name twice are the properties.
* `setAll_idem`: Writing twice is writing once.
* `setAll_eq`: Writing all names that differ leaves no difference.
-/

namespace Json

variable {α : Type}

/-- Give an object a property: in its place if it has one of the name, and at
    the end otherwise. -/
def setOwn (key : String) (value : α) : List (String × α) → List (String × α)
  | [] => [(key, value)]
  | (k, v) :: fields =>
      if k = key then (k, value) :: fields else (k, v) :: setOwn key value fields

/-- Give an object several properties. -/
def setAll (overrides fields : List (String × α)) : List (String × α) :=
  overrides.foldl (fun fields f => setOwn f.1 f.2 fields) fields

/-- The properties of an object, from the members it is given by. -/
def ownFields (members : List (String × α)) : List (String × α) := setAll members []

theorem setOwn_new {key : String} {value : α} {fields : List (String × α)}
    (h : key ∉ fields.map (·.1)) : setOwn key value fields = fields ++ [(key, value)] := by
  induction fields with
  | nil => rfl
  | cons p fields ih =>
      rcases p with ⟨k, v⟩
      rw [List.map_cons, List.mem_cons, not_or] at h
      rw [setOwn, if_neg (Ne.symm h.1), ih h.2, List.cons_append]

theorem setAll_new {members fields : List (String × α)}
    (h : ((fields ++ members).map (·.1)).Nodup) : setAll members fields = fields ++ members := by
  induction members generalizing fields with
  | nil => exact (List.append_nil fields).symm
  | cons m members ih =>
      have hnew : m.1 ∉ fields.map (·.1) := by
        rw [List.map_append, List.map_cons] at h
        exact fun hmem => (List.nodup_append.mp h).2.2 _ hmem _ List.mem_cons_self rfl
      have hassoc : fields ++ [(m.1, m.2)] ++ members = fields ++ m :: members :=
        List.append_assoc fields [m] members
      change setAll members (setOwn m.1 m.2 fields) = _
      rw [setOwn_new hnew, ih (hassoc ▸ h), hassoc]

/-- Members without a name twice are the properties of the object. -/
theorem ownFields_nodup {members : List (String × α)} (h : (members.map (·.1)).Nodup) :
    ownFields members = members := setAll_new h

/-- What a property is after one was written. -/
theorem lookup_setOwn (key k : String) (value : α) (fields : List (String × α)) :
    (setOwn key value fields).lookup k = if k = key then some value else fields.lookup k := by
  induction fields with
  | nil =>
      rw [setOwn, List.lookup_cons]
      by_cases hk : k = key
      · rw [if_pos hk, hk, BEq.rfl]
      · rw [if_neg hk, beq_eq_false_iff_ne.mpr hk]
  | cons p fields ih =>
      rcases p with ⟨k', v⟩
      rw [setOwn]
      -- The property is replaced where it stands.
      by_cases hk' : k' = key
      · rw [if_pos hk', List.lookup_cons, List.lookup_cons, ← hk']
        by_cases hk : k = k'
        · rw [if_pos hk, hk, BEq.rfl]
        · rw [if_neg hk, beq_eq_false_iff_ne.mpr hk]
      · rw [if_neg hk', List.lookup_cons, List.lookup_cons, ih]
        by_cases hk : k = k'
        · rw [hk, BEq.rfl, if_neg hk', if_neg hk']
        · rw [beq_eq_false_iff_ne.mpr hk]

theorem lookup_setAll {overrides : List (String × α)} {k : String}
    (h : k ∉ overrides.map (·.1)) (fields : List (String × α)) :
    (setAll overrides fields).lookup k = fields.lookup k := by
  induction overrides generalizing fields with
  | nil => rfl
  | cons f overrides ih =>
      rw [List.map_cons, List.mem_cons, not_or] at h
      change (setAll overrides (setOwn f.1 f.2 fields)).lookup k = _
      rw [ih h.2, lookup_setOwn, if_neg h.1]

/-- A list with a property written has that property and those it had. -/
theorem mem_setOwn {key : String} {value : α} {fields : List (String × α)} {f : String × α}
    (h : f ∈ setOwn key value fields) : f = (key, value) ∨ f ∈ fields := by
  induction fields with
  | nil => exact Or.inl (List.mem_singleton.mp h)
  | cons p fields ih =>
      rcases p with ⟨k, v⟩
      rw [setOwn] at h
      by_cases hk : k = key
      · rw [if_pos hk] at h
        rcases List.mem_cons.mp h with rfl | hmem
        · exact Or.inl (by rw [hk])
        · exact Or.inr (List.mem_cons_of_mem _ hmem)
      · rw [if_neg hk] at h
        rcases List.mem_cons.mp h with rfl | hmem
        · exact Or.inr List.mem_cons_self
        · exact (ih hmem).imp_right (List.mem_cons_of_mem _)

/-- A property that was written is what was written last. -/
theorem lookup_setAll_mem {overrides : List (String × α)} {k : String} {v : α}
    (hnd : (overrides.map (·.1)).Nodup) (h : (k, v) ∈ overrides) (fields : List (String × α)) :
    (setAll overrides fields).lookup k = some v := by
  induction overrides generalizing fields with
  | nil => cases h
  | cons f overrides ih =>
      rw [List.map_cons, List.nodup_cons] at hnd
      change (setAll overrides (setOwn f.1 f.2 fields)).lookup k = _
      rcases List.mem_cons.mp h with rfl | hmem
      · rw [lookup_setAll hnd.1, lookup_setOwn, if_pos rfl]
      · exact ih hnd.2 hmem _

/-- Writing what is there changes nothing. -/
theorem setOwn_same {k : String} {v : α} {fields : List (String × α)}
    (h : fields.lookup k = some v) : setOwn k v fields = fields := by
  induction fields with
  | nil => cases h
  | cons p fields ih =>
      rcases p with ⟨k', v'⟩
      rw [List.lookup_cons] at h
      rw [setOwn]
      by_cases hk : k' = k
      · rw [hk, BEq.rfl, Option.some.injEq] at h
        rw [if_pos hk, h]
      · rw [beq_eq_false_iff_ne.mpr (Ne.symm hk)] at h
        rw [if_neg hk, ih h]

theorem setAll_same {overrides fields : List (String × α)}
    (h : ∀ f ∈ overrides, fields.lookup f.1 = some f.2) : setAll overrides fields = fields := by
  induction overrides with
  | nil => rfl
  | cons f overrides ih =>
      rw [List.forall_mem_cons] at h
      change setAll overrides (setOwn f.1 f.2 fields) = fields
      rw [setOwn_same h.1, ih h.2]

theorem setAll_idem {overrides : List (String × α)} (hnd : (overrides.map (·.1)).Nodup)
    (fields : List (String × α)) :
    setAll overrides (setAll overrides fields) = setAll overrides fields :=
  setAll_same (fun _ hf => lookup_setAll_mem hnd hf fields)

/-- The property of a list without a name twice. -/
theorem lookup_of_mem {k : String} {v : α} {fields : List (String × α)}
    (hnd : (fields.map (·.1)).Nodup) (h : (k, v) ∈ fields) : fields.lookup k = some v := by
  induction fields with
  | nil => cases h
  | cons p fields ih =>
      rcases p with ⟨k', v'⟩
      rw [List.map_cons, List.nodup_cons] at hnd
      rw [List.lookup_cons]
      rcases List.mem_cons.mp h with heq | hmem
      · rw [Prod.mk.injEq] at heq
        rw [heq.1, heq.2, BEq.rfl]
      · have hne : k ≠ k' := by
          rintro rfl
          exact hnd.1 (List.mem_map.mpr ⟨(k, v), hmem, rfl⟩)
        rw [beq_eq_false_iff_ne.mpr hne]
        exact ih hnd.2 hmem

section Differences

/-- Lists of the same names, whose values differ only at some names. -/
def SameBut (K : String → Prop) : List (String × α) → List (String × α) → Prop :=
  List.Forall₂ (fun f g => f.1 = g.1 ∧ (K f.1 ∨ f.2 = g.2))

theorem SameBut.keys {K : String → Prop} {fs gs : List (String × α)} (h : SameBut K fs gs) :
    fs.map (·.1) = gs.map (·.1) := by
  induction h with
  | nil => rfl
  | cons hfg _ ih => rw [List.map_cons, List.map_cons, hfg.1, ih]

theorem SameBut.mono {K K' : String → Prop} {fs gs : List (String × α)} (h : SameBut K fs gs)
    (hK : ∀ k ∈ fs.map (·.1), K k → K' k) : SameBut K' fs gs := by
  induction h with
  | nil => exact List.Forall₂.nil
  | cons hfg _ ih =>
      rw [List.map_cons, List.forall_mem_cons] at hK
      exact List.Forall₂.cons ⟨hfg.1, hfg.2.imp_left hK.1⟩ (ih hK.2)

theorem SameBut.eq {K : String → Prop} {fs gs : List (String × α)} (h : SameBut K fs gs)
    (hK : ∀ k, ¬ K k) : fs = gs := by
  induction h with
  | nil => rfl
  | cons hfg _ ih => rw [ih, Prod.ext hfg.1 (hfg.2.resolve_left (hK _))]

/-- Where a property is written there is no difference any more. -/
theorem SameBut.setOwn {K : String → Prop} {fs gs : List (String × α)} {key : String} {value : α}
    (h : SameBut K fs gs) (hnd : (fs.map (·.1)).Nodup) :
    SameBut (fun k => K k ∧ k ≠ key) (setOwn key value fs) (setOwn key value gs) := by
  induction h with
  | nil => exact List.Forall₂.cons ⟨rfl, Or.inr rfl⟩ List.Forall₂.nil
  | @cons f g fs gs hfg hrest ih =>
      rcases f with ⟨k, v⟩
      rcases g with ⟨k', v'⟩
      rcases hfg with ⟨rfl, hv⟩
      rw [List.map_cons, List.nodup_cons] at hnd
      rw [Json.setOwn, Json.setOwn]
      by_cases hk : k = key
      · -- No other property has the name.
        rw [if_pos hk, if_pos hk]
        have hmono : SameBut (fun k => K k ∧ k ≠ key) fs gs := by
          refine SameBut.mono hrest (fun k' hk' hK => ⟨hK, ?_⟩)
          rintro rfl
          exact hnd.1 (hk ▸ hk')
        exact List.Forall₂.cons ⟨rfl, Or.inr rfl⟩ hmono
      · rw [if_neg hk, if_neg hk]
        exact List.Forall₂.cons ⟨rfl, hv.imp_left (fun hK => ⟨hK, hk⟩)⟩ (ih hnd.2)

theorem setOwn_keys {key : String} {value : α} {fields : List (String × α)} :
    (setOwn key value fields).map (·.1)
      = if key ∈ fields.map (·.1) then fields.map (·.1) else fields.map (·.1) ++ [key] := by
  induction fields with
  | nil => rfl
  | cons p fields ih =>
      rcases p with ⟨k, v⟩
      rw [setOwn, List.map_cons]
      by_cases hk : k = key
      · rw [if_pos hk, hk, if_pos List.mem_cons_self, List.map_cons]
      · rw [if_neg hk, List.map_cons, ih]
        by_cases hmem : key ∈ fields.map (·.1)
        · rw [if_pos hmem, if_pos (List.mem_cons_of_mem _ hmem)]
        · rw [if_neg hmem, if_neg (fun h => (List.mem_cons.mp h).elim (Ne.symm hk) hmem),
            List.cons_append]

theorem setOwn_nodup {key : String} {value : α} {fields : List (String × α)}
    (h : (fields.map (·.1)).Nodup) : ((setOwn key value fields).map (·.1)).Nodup := by
  rw [setOwn_keys]
  by_cases hmem : key ∈ fields.map (·.1)
  · rw [if_pos hmem]
    exact h
  · rw [if_neg hmem]
    exact List.Nodup.append h (List.nodup_singleton key)
      (List.disjoint_singleton.mpr hmem)

/-- Writing all names that differ leaves no difference. -/
theorem setAll_eq {K : String → Prop} {fs gs overrides : List (String × α)} (h : SameBut K fs gs)
    (hnd : (fs.map (·.1)).Nodup) (hK : ∀ k, K k → k ∈ overrides.map (·.1)) :
    setAll overrides fs = setAll overrides gs := by
  induction overrides generalizing K fs gs with
  | nil => exact h.eq (fun k hk => by cases hK k hk)
  | cons f overrides ih =>
      refine ih (h.setOwn hnd) (setOwn_nodup hnd) (fun k hk => ?_)
      exact (List.mem_cons.mp (hK k hk.1)).resolve_left hk.2

/-- Lists of the same names differ only where a property does. -/
theorem sameBut_lookup {fs gs : List (String × α)} (hkeys : fs.map (·.1) = gs.map (·.1))
    (hnd : (fs.map (·.1)).Nodup) : SameBut (fun k => fs.lookup k ≠ gs.lookup k) fs gs := by
  have hnd' : (gs.map (·.1)).Nodup := hkeys ▸ hnd
  have hzip : List.Forall₂ (fun f g => f.1 = g.1) fs gs := by
    rw [← List.forall₂_eq_eq_eq] at hkeys
    exact List.forall₂_map_left_iff.mp (List.forall₂_map_right_iff.mp hkeys)
  refine List.forall₂_iff_get.mpr ⟨hzip.length_eq, fun i hi hi' => ?_⟩
  have hname := hzip.get hi hi'
  have hleft := lookup_of_mem hnd (List.get_mem fs ⟨i, hi⟩)
  have hright := lookup_of_mem hnd' (List.get_mem gs ⟨i, hi'⟩)
  refine ⟨hname, or_iff_not_imp_right.mpr fun hne heq => hne ?_⟩
  rw [hleft, hname, hright, Option.some.injEq] at heq
  exact heq

end Differences

end Json
