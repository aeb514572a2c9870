import ClickScope.Core.SentryScrub

/-!
# Redacting a Value

Redacting a value hides what stands under a sensitive name, at any depth, and
nothing else.

Two values that differ only in secrets are the same once they are redacted. For
a value that JSON can say, the rest of it is what it was, at the place where it
was: the result has a value at a path exactly if the original has, and it is
that value redacted. So redacting again changes nothing.

## Main definitions

* `Alike`: Values that differ only in secrets.
* `JsonData`: Values that JSON can say, without a property `__proto__`.
* `Step`, `valueAt`: A place in a value, and the value that is there.
* `Spotless`: Values without a sensitive name.

## Theorems

* `redactDeep_alike`: Secrets make no difference.
* `alike_redactDeep`: Nothing but secrets is changed.
* `redactDeep_json`: Redacting twice is redacting once.
* `valueAt_redactDeep`: What is not a secret keeps its place.
* `redactDeep_spotless`: What has no secret keeps its content.
-/

namespace ClickScope

open Json

/-- Induction over values: an array has the property if its items do, and an
    object if the values of its properties do. -/
@[elab_as_elim]
theorem JsData.induct {p : JsData → Prop} (primitive : ∀ q, p (.primitive q))
    (array : ∀ items, (∀ v ∈ items, p v) → p (.array items))
    (object : ∀ proto fields, (∀ f ∈ fields, p f.2) → p (.object proto fields)) : ∀ v, p v := by
  refine @JsData.rec p (fun items => ∀ v ∈ items, p v) (fun _ => True)
    (fun fields => ∀ f ∈ fields, p f.2) (fun f => p f.2) primitive array
    (fun proto fields _ hfields => object proto fields hfields) ?_ ?_ trivial (fun _ _ => trivial)
    ?_ ?_ (fun _ _ hv => hv)
  · intro v hv
    cases hv
  · intro v items hv hitems
    exact List.forall_mem_cons.mpr ⟨hv, hitems⟩
  · intro f hf
    cases hf
  · intro f fields hf hfields
    exact List.forall_mem_cons.mpr ⟨hf, hfields⟩

section Secrets

mutual

/-- Values that differ at most in what stands under sensitive names. -/
def Alike : JsData → JsData → Prop
  | .primitive p, .primitive q => p = q
  | .array xs, .array ys => AlikeItems xs ys
  | .object proto fs, .object proto' gs => proto = proto' ∧ AlikeFields fs gs
  | _, _ => False

def AlikeItems : List JsData → List JsData → Prop
  | [], [] => True
  | x :: xs, y :: ys => Alike x y ∧ AlikeItems xs ys
  | _, _ => False

def AlikeFields : List (String × JsData) → List (String × JsData) → Prop
  | [], [] => True
  | (k, v) :: fs, (k', w) :: gs =>
      k = k' ∧ (isSensitive k = true ∨ Alike v w) ∧ AlikeFields fs gs
  | _, _ => False

end

/-- Secrets make no difference to a redacted value. -/
theorem redactDeep_alike {v w : JsData} (h : Alike v w) : redactDeep v = redactDeep w := by
  induction v using JsData.induct generalizing w with
  | primitive p =>
      cases w with
      | primitive q => rw [show p = q from h]
      | array ys => exact h.elim
      | object proto gs => exact h.elim
  | array xs ih =>
      cases w with
      | primitive q => exact h.elim
      | object proto gs => exact h.elim
      | array ys =>
          -- The lists are as long as each other, and alike item by item.
          have hitems : redactItems xs = redactItems ys := by
            rw [Alike] at h
            induction xs generalizing ys with
            | nil =>
                cases ys with
                | nil => rfl
                | cons y ys => exact h.elim
            | cons x xs ihxs =>
                cases ys with
                | nil => exact h.elim
                | cons y ys =>
                    rw [List.forall_mem_cons] at ih
                    rw [redactItems, redactItems, ih.1 h.1, ihxs ih.2 ys h.2]
          rw [redactDeep, redactDeep, hitems]
  | object proto fs ih =>
      cases w with
      | primitive q => exact h.elim
      | array ys => exact h.elim
      | object proto' gs =>
          -- The properties are assigned in order, to the same object on both sides.
          have hfields : ∀ r, redactFields fs r = redactFields gs r := by
            replace h := h.2
            induction fs generalizing gs with
            | nil =>
                cases gs with
                | nil => exact fun _ => rfl
                | cons g gs => exact h.elim
            | cons f fs ihfs =>
                cases gs with
                | nil => exact h.elim
                | cons g gs =>
                    rcases f with ⟨k, v⟩
                    rcases g with ⟨k', w⟩
                    rcases h with ⟨rfl, hv, hrest⟩
                    rw [List.forall_mem_cons] at ih
                    intro r
                    -- Under a sensitive name both values are redacted away.
                    have hvalue : (if isSensitive k then REDACTED else redactDeep v)
                        = if isSensitive k then REDACTED else redactDeep w := by
                      by_cases hk : isSensitive k = true
                      · rw [if_pos hk, if_pos hk]
                      · rw [if_neg hk, if_neg hk, ih.1 (hv.resolve_left hk)]
                    rw [redactFields, redactFields, hvalue, ihfs ih.2 gs hrest]
          rw [redactDeep, redactDeep, hfields]

mutual

theorem alike_refl : ∀ v, Alike v v
  | .primitive _ => rfl
  | .array items => alikeItems_refl items
  | .object _ fields => ⟨rfl, alikeFields_refl fields⟩

theorem alikeItems_refl : ∀ items, AlikeItems items items
  | [] => trivial
  | v :: rest => ⟨alike_refl v, alikeItems_refl rest⟩

theorem alikeFields_refl : ∀ fields, AlikeFields fields fields
  | [] => trivial
  | (_, v) :: rest => ⟨rfl, Or.inr (alike_refl v), alikeFields_refl rest⟩

end

/-- Values that differ in secrets pass the same tests, and only values that
    pass all of them can differ. -/
theorem alike_truthy {v w : JsData} (h : Alike v w) :
    v.truthy = w.truthy ∧ v.isUndefined = w.isUndefined ∧
      (v = w ∨ (v.truthy = true ∧ v.isUndefined = false)) := by
  cases v with
  | primitive p =>
      cases w with
      | primitive q =>
          have hpq : p = q := h
          rw [hpq]
          exact ⟨rfl, rfl, Or.inl rfl⟩
      | array ys => exact h.elim
      | object proto gs => exact h.elim
  | array xs =>
      cases w with
      -- Arrays and objects are truthy, whatever is in them.
      | array ys => exact ⟨rfl, rfl, Or.inr ⟨rfl, rfl⟩⟩
      | primitive q => exact h.elim
      | object proto gs => exact h.elim
  | object proto fs =>
      cases w with
      | object proto' gs => exact ⟨rfl, rfl, Or.inr ⟨rfl, rfl⟩⟩
      | primitive q => exact h.elim
      | array ys => exact h.elim

end Secrets

section Json

mutual

/-- A value that JSON can say, without a property `__proto__` in any object. -/
def JsonData : JsData → Prop
  | .primitive .undefined => False
  | .primitive (.other _) => False
  | .primitive (.number (.finite _)) => True
  | .primitive (.number _) => False
  | .primitive _ => True
  | .array items => JsonItems items
  | .object proto fields =>
      proto = none ∧ (fields.map (·.1)).Nodup ∧ "__proto__" ∉ fields.map (·.1) ∧
        JsonFields fields

def JsonItems : List JsData → Prop
  | [] => True
  | item :: rest => JsonData item ∧ JsonItems rest

def JsonFields : List (String × JsData) → Prop
  | [] => True
  | (_, v) :: rest => JsonData v ∧ JsonFields rest

end

theorem jsonItems_iff {items : List JsData} : JsonItems items ↔ ∀ v ∈ items, JsonData v := by
  induction items with
  | nil => exact ⟨fun _ _ hv => (by cases hv), fun _ => trivial⟩
  | cons v items ih => rw [JsonItems, ih, List.forall_mem_cons]

theorem jsonFields_iff {fields : List (String × JsData)} :
    JsonFields fields ↔ ∀ f ∈ fields, JsonData f.2 := by
  induction fields with
  | nil => exact ⟨fun _ _ hf => (by cases hf), fun _ => trivial⟩
  | cons f fields ih => rw [JsonFields, ih, List.forall_mem_cons]

/-- A property redacted. -/
def redactField (f : String × JsData) : String × JsData :=
  (f.1, if isSensitive f.1 then REDACTED else redactDeep f.2)

theorem redactItems_map (items : List JsData) : redactItems items = items.map redactDeep := by
  induction items with
  | nil => rfl
  | cons v items ih => rw [redactItems, ih, List.map_cons]

theorem redactFields_foldl (fields : List (String × JsData)) (r : NewObject) :
    redactFields fields r = (fields.map redactField).foldl (fun r f => assignKey f.1 f.2 r) r := by
  induction fields generalizing r with
  | nil => rfl
  | cons f fields ih => rw [redactFields, ih, List.map_cons, List.foldl_cons, redactField]

theorem assignKey_other {key : String} (h : key ≠ "__proto__") (value : JsData) (r : NewObject) :
    assignKey key value r = (r.1, setOwn key value r.2) := by
  unfold assignKey
  rw [if_neg h]

/-- Without a name of the prototype's own, assigning is defining. -/
theorem foldl_assignKey {members : List (String × JsData)}
    (h : "__proto__" ∉ members.map (·.1)) (r : NewObject) :
    members.foldl (fun r f => assignKey f.1 f.2 r) r = (r.1, setAll members r.2) := by
  induction members generalizing r with
  | nil => rfl
  | cons f members ih =>
      rw [List.map_cons, List.mem_cons, not_or] at h
      rw [List.foldl_cons, assignKey_other (Ne.symm h.1), ih h.2]
      rfl

theorem redactField_keys (fields : List (String × JsData)) :
    (fields.map redactField).map (·.1) = fields.map (·.1) := by
  rw [List.map_map]
  rfl

/-- An object that JSON can say is redacted property by property. -/
theorem redactDeep_object {fields : List (String × JsData)} (hnd : (fields.map (·.1)).Nodup)
    (hproto : "__proto__" ∉ fields.map (·.1)) :
    redactDeep (.object none fields) = .object none (fields.map redactField) := by
  have hnd' : ((fields.map redactField).map (·.1)).Nodup := by
    rw [redactField_keys]
    exact hnd
  have hproto' : "__proto__" ∉ (fields.map redactField).map (·.1) := by
    rw [redactField_keys]
    exact hproto
  rw [redactDeep, redactFields_foldl, foldl_assignKey hproto']
  exact congrArg (JsData.object none) (ownFields_nodup hnd')

/-- A redacted value differs from the value only in secrets. -/
theorem alike_redactDeep {v : JsData} (h : JsonData v) : Alike v (redactDeep v) := by
  induction v using JsData.induct with
  | primitive p => rfl
  | array items ih =>
      have hitems := jsonItems_iff.mp h
      -- What is known of the array is needed of its items alone.
      rw [redactDeep, redactItems_map, Alike]
      clear h
      induction items with
      | nil => trivial
      | cons v items ihitems =>
          rw [List.forall_mem_cons] at ih hitems
          exact ⟨ih.1 hitems.1, ihitems ih.2 hitems.2⟩
  | object proto fields ih =>
      rcases h with ⟨rfl, hnd, hproto, hjson⟩
      have hfields := jsonFields_iff.mp hjson
      rw [redactDeep_object hnd hproto]
      refine ⟨rfl, ?_⟩
      clear hnd hproto hjson
      induction fields with
      | nil => trivial
      | cons f fields ihfields =>
          rw [List.forall_mem_cons] at ih hfields
          -- The names are kept, and a value changes under a sensitive one, or inside.
          refine ⟨rfl, ?_, ihfields ih.2 hfields.2⟩
          by_cases hk : isSensitive f.1 = true
          · exact Or.inl hk
          · refine Or.inr ?_
            rw [if_neg hk]
            exact ih.1 hfields.1

/-- Redacting stays within JSON, and redacting again changes nothing. -/
theorem redactDeep_json {v : JsData} (h : JsonData v) :
    JsonData (redactDeep v) ∧ redactDeep (redactDeep v) = redactDeep v := by
  induction v using JsData.induct with
  | primitive p => exact ⟨h, rfl⟩
  | array items ih =>
      have hitems := jsonItems_iff.mp h
      rw [redactDeep, redactItems_map]
      refine ⟨jsonItems_iff.mpr fun v hv => ?_, ?_⟩
      · rcases List.mem_map.mp hv with ⟨u, hu, rfl⟩
        exact (ih u hu (hitems u hu)).1
      · rw [redactDeep, redactItems_map, List.map_map]
        exact congrArg JsData.array (List.map_congr_left fun u hu => (ih u hu (hitems u hu)).2)
  | object proto fields ih =>
      rcases h with ⟨rfl, hnd, hproto, hjson⟩
      have hfields := jsonFields_iff.mp hjson
      rw [redactDeep_object hnd hproto]
      have hkeys := redactField_keys fields
      refine ⟨⟨rfl, hkeys ▸ hnd, hkeys ▸ hproto, jsonFields_iff.mpr fun f hf => ?_⟩, ?_⟩
      · rcases List.mem_map.mp hf with ⟨u, hu, rfl⟩
        -- What stands for a secret is a text, and stays one.
        by_cases hk : isSensitive u.1 = true
        · rw [redactField, if_pos hk]
          trivial
        · rw [redactField, if_neg hk]
          exact (ih u hu (hfields u hu)).1
      · rw [redactDeep_object (hkeys ▸ hnd) (hkeys ▸ hproto), List.map_map]
        refine congrArg (JsData.object none) (List.map_congr_left fun u hu => ?_)
        by_cases hk : isSensitive u.1 = true
        · simp only [Function.comp_apply, redactField, if_pos hk]
        · simp only [Function.comp_apply, redactField, if_neg hk, (ih u hu (hfields u hu)).2]

end Json

section Places

/-- A step into a value: to an item of an array, or to a property of an object,
    by its place and its name. -/
inductive Step : Type
  | item (i : Nat)
  | field (i : Nat) (key : String)
deriving DecidableEq, Repr

/-- A step that is not into a secret. -/
def Step.shown : Step → Bool
  | .item _ => true
  | .field _ key => !isSensitive key

def child : Step → JsData → Option JsData
  | .item i, .array items => items[i]?
  | .field i key, .object _ fields =>
      fields[i]?.bind (fun f => if f.1 = key then some f.2 else none)
  | _, _ => none

/-- The value at a place. -/
def valueAt : List Step → JsData → Option JsData
  | [], v => some v
  | s :: path, v => (child s v).bind (valueAt path)

theorem child_json {v u : JsData} {s : Step} (h : JsonData v) (hu : child s v = some u) :
    JsonData u := by
  cases v with
  | primitive p => cases s <;> cases hu
  | array items =>
      cases s with
      | item i => exact jsonItems_iff.mp h u (List.mem_of_getElem? hu)
      | field i key => cases hu
  | object proto fields =>
      cases s with
      | item i => cases hu
      | field i key =>
          rcases Option.bind_eq_some_iff.mp hu with ⟨f, hf, hkey⟩
          split_ifs at hkey
          rw [Option.some.injEq] at hkey
          rw [← hkey]
          exact jsonFields_iff.mp h.2.2.2 f (List.mem_of_getElem? hf)

theorem valueAt_json {v u : JsData} {path : List Step} (h : JsonData v)
    (hu : valueAt path v = some u) : JsonData u := by
  induction path generalizing v with
  | nil =>
      rw [valueAt, Option.some.injEq] at hu
      exact hu ▸ h
  | cons s path ih =>
      rcases Option.bind_eq_some_iff.mp hu with ⟨v', hv', hrest⟩
      exact ih (child_json h hv') hrest

/-- What is not a secret keeps its place. -/
theorem child_redactDeep {v : JsData} {s : Step} (h : JsonData v) (hs : s.shown = true) :
    child s (redactDeep v) = (child s v).map redactDeep := by
  cases v with
  | primitive p => cases s <;> rfl
  | array items =>
      cases s with
      | item i => rw [redactDeep, redactItems_map, child, child, List.getElem?_map]
      | field i key => rfl
  | object proto fields =>
      rcases h with ⟨rfl, hnd, hproto, _⟩
      rw [redactDeep_object hnd hproto]
      cases s with
      | item i => rfl
      | field i key =>
          rw [child, child, List.getElem?_map]
          rcases fields[i]? with _ | f
          · rfl
          · simp only [Option.map_some, Option.bind_some, redactField]
            by_cases hkey : f.1 = key
            · -- The step has the name it finds, and that is no name of a secret.
              have hopen : ¬ isSensitive f.1 = true := by
                rw [Step.shown, Bool.not_eq_true'] at hs
                rw [hkey, hs]
                exact Bool.false_ne_true
              rw [if_pos hkey, if_pos hkey, if_neg hopen, Option.map_some]
            · rw [if_neg hkey, if_neg hkey, Option.map_none]

theorem valueAt_redactDeep {v : JsData} {path : List Step} (h : JsonData v)
    (hpath : ∀ s ∈ path, s.shown = true) :
    valueAt path (redactDeep v) = (valueAt path v).map redactDeep := by
  induction path generalizing v with
  | nil => rfl
  | cons s path ih =>
      rw [List.forall_mem_cons] at hpath
      rw [valueAt, valueAt, child_redactDeep h hpath.1]
      rcases hchild : child s v with _ | u
      · rfl
      · rw [Option.map_some, Option.bind_some, Option.bind_some]
        exact ih (child_json h hchild) hpath.2

mutual

/-- A value without a sensitive name anywhere. -/
def Spotless : JsData → Prop
  | .primitive _ => True
  | .array items => SpotlessItems items
  | .object _ fields => SpotlessFields fields

def SpotlessItems : List JsData → Prop
  | [] => True
  | item :: rest => Spotless item ∧ SpotlessItems rest

def SpotlessFields : List (String × JsData) → Prop
  | [] => True
  | (k, v) :: rest => isSensitive k = false ∧ Spotless v ∧ SpotlessFields rest

end

/-- What has no secret keeps its content. -/
theorem redactDeep_spotless {v : JsData} (h : JsonData v) (hs : Spotless v) : redactDeep v = v := by
  induction v using JsData.induct with
  | primitive p => rfl
  | array items ih =>
      have hitems := jsonItems_iff.mp h
      rw [redactDeep, redactItems_map]
      refine congrArg JsData.array ?_
      clear h
      rw [Spotless] at hs
      induction items with
      | nil => rfl
      | cons v items ihitems =>
          rw [List.forall_mem_cons] at ih hitems
          rw [List.map_cons, ih.1 hitems.1 hs.1, ihitems ih.2 hs.2 hitems.2]
  | object proto fields ih =>
      rcases h with ⟨rfl, hnd, hproto, hjson⟩
      have hfields := jsonFields_iff.mp hjson
      rw [redactDeep_object hnd hproto]
      refine congrArg (JsData.object none) ?_
      clear hnd hproto hjson
      rw [Spotless] at hs
      induction fields with
      | nil => rfl
      | cons f fields ihfields =>
          rw [List.forall_mem_cons] at ih hfields
          -- No name is a sensitive one, so that every value is redacted inside only.
          have hopen : ¬ isSensitive f.1 = true := Bool.eq_false_iff.mp hs.1
          rw [List.map_cons, redactField, if_neg hopen, ih.1 hfields.1 hs.2.1,
            ihfields ih.2 hs.2.2 hfields.2]

end Places

end ClickScope
