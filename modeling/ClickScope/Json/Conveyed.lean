import ClickScope.Json.Written
import ClickScope.Zod.Collections

/-!
# Values That Reach a Reader

A value is written as a text, and a schema is held against what is read from it.

A schema `Conveys` a value if it takes what is left of the value when it was
written. A date is a text then, and a schema for dates takes it as long as its
year has four digits. Where the schema may be null there is one kind of date
that it does not take: one that is too late for the pattern and can still be
written.

## Main definitions

* `Conveys`: A schema takes what is left of a value.
* `FieldsConveyed`: The fields of an object, against a shape.

## Theorems

* `conveys_date`, `conveys_expiry`: Dates.
* `conveys_array`, `conveys_object`, `conveys_field`: Structures.
-/

namespace Json

open Zod

section Writing

theorem written_undefined {v : JsValue} (h : v ≠ .undefined) : written v ≠ .undefined := by
  cases v with
  | undefined => exact absurd rfl h
  | number n => cases n <;> exact JsValue.noConfusion
  | date time =>
      cases time with
      | none => exact JsValue.noConfusion
      | some t =>
          rw [written]
          split_ifs <;> exact JsValue.noConfusion
  | _ => exact JsValue.noConfusion

theorem orNull_eq {v : JsValue} (h : v ≠ .undefined) : orNull v = v := by
  cases v with
  | undefined => exact absurd rfl h
  | _ => rfl

/-- No field is lost that is there. -/
theorem writtenFields_map {fields : List (String × JsValue)}
    (h : ∀ f ∈ fields, f.2 ≠ .undefined) :
    writtenFields fields = fields.map (fun f => (f.1, written f.2)) := by
  induction fields with
  | nil => rfl
  | cons f rest ih =>
      rw [writtenFields_cons (written_undefined (h f List.mem_cons_self)),
        ih fun f hf => h f (List.mem_cons_of_mem _ hf), List.map_cons]

theorem writtenItems_eq {items : List JsValue} (h : ∀ v ∈ items, v ≠ .undefined) :
    writtenItems items = items.map written := by
  rw [writtenItems_map]
  exact List.map_congr_left fun v hv => orNull_eq (written_undefined (h v hv))

end Writing

section Reading

/-- At any time the schema takes what is left of the value. -/
def Conveys (s : Schema) (v : JsValue) : Prop := ∀ t, Takes s t (written v)

variable {s : Schema} {message req : String}

theorem conveys_string {checks : List (Check String)} {x : String}
    (h : ∀ c ∈ checks, c.holds x = true) : Conveys (string checks req) (.string x) :=
  fun _ => takes_string h

theorem conveys_text (x : String) : Conveys (string [] req) (.string x) :=
  conveys_string fun c hc => by cases hc

theorem conveys_boolean (b : Bool) : Conveys boolean (.boolean b) := fun _ => takes_boolean b

theorem conveys_int (n : Int) : Conveys (number [int]) (.number (.finite n)) := fun _ => takes_int n

theorem conveys_number (n : Int) : Conveys (number []) (.number (.finite n)) :=
  fun _ => takes_number n

theorem conveys_enumeration {values : List String} {x : String} (h : x ∈ values) :
    Conveys (enumeration values) (.string x) :=
  fun _ => takes_enumeration h

theorem conveys_null : Conveys (nullable s) .null := fun _ => takes_null

theorem conveys_nullable {v : JsValue} (hv : written v ≠ .null) :
    Conveys (nullable s) v ↔ Conveys s v :=
  forall_congr' fun _ => takes_nullable hv

theorem written_date {t : Int} (hlo : -MAX_TIME ≤ t) (hhi : t ≤ MAX_TIME) :
    written (.date (some t)) = .string (String.ofList (Iso.toISOString t)) := by
  rw [written, if_pos ⟨hlo, hhi⟩]

/-- A date is read as a date as long as its year has four digits. -/
theorem conveys_date {t : Int} (hlo : 0 ≤ t) (hhi : t ≤ MAX_TIME) :
    Conveys (string [datetime message] req) (.date (some t)) ↔ t ≤ Iso.LAST_INSTANT := by
  have hmin : -MAX_TIME ≤ t := by
    unfold MAX_TIME
    omega
  have hholds : (datetime message).holds (String.ofList (Iso.toISOString t)) = true ↔
      t ≤ Iso.LAST_INSTANT := by
    simp only [datetime, String.toList_ofList]
    rw [Iso.isDatetime_toISOString, Iso.fourDigits_iff hlo]
  unfold Conveys
  rw [written_date hmin hhi, ← hholds]
  constructor
  · exact fun h => takes_string_inv (h 0) _ List.mem_cons_self
  · intro h t
    refine takes_string fun c hc => ?_
    rw [List.mem_singleton.mp hc]
    exact h

/-- A date that may be null is not read where it is too late for the pattern but
    still a date. -/
theorem conveys_expiry {t : Int} (hlo : 0 ≤ t) :
    Conveys (nullable (string [datetime message] req)) (.date (some t)) ↔
      ¬ (Iso.LAST_INSTANT < t ∧ t ≤ MAX_TIME) := by
  by_cases hhi : t ≤ MAX_TIME
  · have hmin : -MAX_TIME ≤ t := by
      unfold MAX_TIME
      omega
    have hnull : written (.date (some t)) ≠ .null := by
      rw [written_date hmin hhi]
      exact JsValue.noConfusion
    rw [conveys_nullable hnull, conveys_date hlo hhi]
    omega
  · have hnull : written (.date (some t)) = .null := by
      rw [written, if_neg fun h => hhi h.2]
    unfold Conveys
    rw [hnull]
    exact ⟨fun _ h => hhi h.2, fun _ _ => takes_null⟩

end Reading

section Structures

variable {s : Schema} {shape : List (String × Schema)} {fields : List (String × JsValue)}
  {unknownKeys : UnknownKeys}

/-- An array is read exactly if its items are. -/
theorem conveys_array {items : List JsValue} (hp : ∀ v ∈ items, v ≠ .undefined) :
    Conveys (array s) (.array items) ↔ ∀ v ∈ items, Conveys s v := by
  unfold Conveys
  rw [written, writtenItems_eq hp]
  constructor
  · exact fun h v hv t => takes_array_inv (h t) _ (List.mem_map_of_mem hv)
  · intro h t
    refine takes_array fun v hv => ?_
    rcases List.mem_map.mp hv with ⟨item, hitem, rfl⟩
    exact h item hitem t

/-- The fields of an object are those of a shape, and read. -/
inductive FieldsConveyed : List (String × Schema) → List (String × JsValue) → Prop
  | nil : FieldsConveyed [] []
  | cons {key : String} {s : Schema} {v : JsValue} {shape : List (String × Schema)}
      {fields : List (String × JsValue)} (hv : Conveys s v) (hrest : FieldsConveyed shape fields) :
      FieldsConveyed ((key, s) :: shape) ((key, v) :: fields)
  | absent {key : String} {s : Schema} {shape : List (String × Schema)}
      {fields : List (String × JsValue)} (hv : Conveys s .undefined)
      (hrest : FieldsConveyed shape fields) : FieldsConveyed ((key, s) :: shape) fields

theorem fieldsTaken_of_conveyed (h : FieldsConveyed shape fields) (t : Nat) :
    FieldsTaken t shape (fields.map (fun f => (f.1, written f.2))) := by
  induction h with
  | nil => exact FieldsTaken.nil
  | cons hv _ ih => exact FieldsTaken.cons (hv t) ih
  | absent hv _ ih => exact FieldsTaken.absent (hv t) ih

/-- An object is read if its fields are. -/
theorem conveys_object (hnd : (shape.map (·.1)).Nodup) (hp : ∀ f ∈ fields, f.2 ≠ .undefined)
    (h : FieldsConveyed shape fields) : Conveys (object unknownKeys shape) (.object fields) := by
  intro t
  rw [written, writtenFields_map hp]
  exact takes_object hnd (fieldsTaken_of_conveyed h t)

theorem get_map (key : String) (f : JsValue → JsValue) (hf : f .undefined = .undefined) :
    get (fields.map (fun p => (p.1, f p.2))) key = f (get fields key) := by
  induction fields with
  | nil => exact hf.symm
  | cons p fields ih =>
      rcases p with ⟨k, v⟩
      rw [List.map_cons, get_cons, get_cons, ih]
      split_ifs <;> rfl

/-- The fields of an object that is read are read. -/
theorem conveys_field (hnd : (shape.map (·.1)).Nodup) (hp : ∀ f ∈ fields, f.2 ≠ .undefined)
    (h : Conveys (object unknownKeys shape) (.object fields)) {key : String}
    (hmem : (key, s) ∈ shape) : Conveys s (get fields key) := by
  intro t
  have hobject := h t
  rw [written, writtenFields_map hp] at hobject
  have hfield := takes_field hnd hobject hmem
  rwa [get_map key written rfl] at hfield

end Structures

end Json
