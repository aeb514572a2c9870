import ClickScope.Json.RoundTrip

/-!
# What a Text Says of a Value

The value a reader makes of the text that was written for another.

Writing loses something: an absent property is gone, a date is a text from then
on, and a number that is not finite is null. `written` is what is left, and it
has the same text as the value. Where the text can be read back at all, this is
what is read.

## Main definitions

* `written`: What is left of a value that was written.

## Theorems

* `stringify_written`: It has the same text.
* `parse_written`: It is what is read from the text.
-/

namespace Json

open Zod

/-- An item that is absent is written as null. -/
def orNull : JsValue → JsValue
  | .undefined => .null
  | v => v

mutual

/-- What `JSON.parse` makes of the text `JSON.stringify` wrote for a value. -/
def written : JsValue → JsValue
  | .undefined => .undefined
  | .null => .null
  | .boolean b => .boolean b
  | .number (.finite q) => .number (.finite q)
  | .number _ => .null
  | .string s => .string s
  | .date none => .null
  | .date (some t) =>
      if -MAX_TIME ≤ t ∧ t ≤ MAX_TIME then .string (String.ofList (Iso.toISOString t)) else .null
  | .array items => .array (writtenItems items)
  | .object fields => .object (writtenFields fields)

def writtenItems : List JsValue → List JsValue
  | [] => []
  | item :: rest => orNull (written item) :: writtenItems rest

def writtenFields : List (String × JsValue) → List (String × JsValue)
  | [] => []
  | (k, v) :: rest =>
      match written v with
      | .undefined => writtenFields rest
      | v => (k, v) :: writtenFields rest

end

theorem writtenItems_map (items : List JsValue) :
    writtenItems items = items.map (fun v => orNull (written v)) := by
  induction items with
  | nil => rfl
  | cons item rest ih => rw [writtenItems, ih, List.map_cons]

theorem writtenFields_cons {k : String} {v : JsValue} (h : written v ≠ .undefined)
    (rest : List (String × JsValue)) :
    writtenFields ((k, v) :: rest) = (k, written v) :: writtenFields rest := by
  rw [writtenFields]
  cases hv : written v with
  | undefined => exact absurd hv h
  | _ => rfl

/-- Null is the text of what an array has in place of an absent item. -/
theorem stringify_orNull (v : JsValue) :
    (stringify (orNull v)).getD nullText = (stringify v).getD nullText := by
  cases v <;> rfl

theorem stringify_written (v : JsValue) : stringify (written v) = stringify v := by
  induction v using JsValue.induct with
  | undefined | null | boolean | string => rfl
  | number n => cases n <;> rfl
  | date time =>
      cases time with
      | none => rfl
      | some t =>
          simp only [written, stringify, dateJson]
          split_ifs
          · rw [stringify, String.toList_ofList]
          · rfl
  | array items ih =>
      have hitems : stringifyItems (writtenItems items) = stringifyItems items := by
        induction items with
        | nil => rfl
        | cons item rest ih' =>
            rw [writtenItems, stringifyItems, stringifyItems, stringify_orNull,
              ih item List.mem_cons_self, ih' fun v hv => ih v (List.mem_cons_of_mem _ hv)]
      simp only [written, stringify, hitems]
  | object fields ih =>
      have hfields : stringifyFields (writtenFields fields) = stringifyFields fields := by
        induction fields with
        | nil => rfl
        | cons f rest ih' =>
            rcases f with ⟨k, v⟩
            have hv : stringify (written v) = stringify v := ih (k, v) List.mem_cons_self
            have hrest := ih' fun f hf => ih f (List.mem_cons_of_mem _ hf)
            by_cases hundef : written v = .undefined
            · -- Neither of them is written.
              rw [hundef, stringify] at hv
              simp only [writtenFields, hundef, stringifyFields, ← hv, hrest]
            · rw [writtenFields_cons hundef, stringifyFields, stringifyFields, hv, hrest]
      simp only [written, stringify, hfields]

/-- A reader of the text finds what is left of the value. -/
theorem parse_written {v : JsValue} (h : Writable (written v)) :
    (stringify v).bind parse = some (written v) := by
  rw [← stringify_written]
  exact parse_stringify h

end Json
