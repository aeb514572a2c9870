import ClickScope.Iso.Datetime
import ClickScope.Zod.Reparse

/-!
# Schemas of Answers

The schemas that a description of answers needs besides those of requests, and
what it means that a schema takes a value as it is.

A schema `Takes` a value if it accepts it and the output is the value itself.
For an object that says more than that its fields are accepted: it has the
fields of the shape and no others, since those would be missing in the output.

## Main definitions

* `datetime`: The check of a date and time.
* `unknown`, `enumeration`, `array`: The schemas.
* `Takes`: A value is accepted as it is.
* `FieldsTaken`: The fields of an object are those of a shape, and taken.

## Theorems

* `takes_string`, `takes_int`, `takes_array`, `takes_object`, ...: One for each
  kind of schema.
* `takes_field`: A field of an object that is taken.
-/

namespace Zod

section Schemas

def datetime (message : String) : Check String :=
  { holds := fun s => Iso.isDatetime s.toList, message := message }

/-- `z.unknown()` -/
def unknown : Schema := fun _ v => some (.parsed v [])

/-- What an enumeration expects, for its messages. -/
def joinValues (values : List String) : String :=
  String.intercalate " | " (values.map (fun s => "'" ++ s ++ "'"))

/-- `z.enum(values)` -/
def enumeration (values : List String) : Schema :=
  fun _ v => match v with
    | .string s =>
        if s ∈ values then some (.parsed (.string s) [])
        else some (.aborted [here ("Invalid enum value. Expected " ++ joinValues values ++
          ", received '" ++ s ++ "'")])
    | v => some (invalidType (joinValues values) REQUIRED v)

/-- Parse the items of an array from an index on. All of them are parsed, and
    one that comes to nothing leaves no output. -/
def parseItems (s : Schema) (now : Nat) :
    Nat → List JsValue → Option (List Issue × Option (List JsValue))
  | _, [] => some ([], some [])
  | index, item :: rest =>
      match s now item, parseItems s now (index + 1) rest with
      | some (.aborted issues), some (more, _) =>
          some (issues.map (·.under (toString index)) ++ more, none)
      | some (.parsed v issues), some (more, out) =>
          some (issues.map (·.under (toString index)) ++ more, out.map (v :: ·))
      | _, _ => none

/-- `z.array(schema)` -/
def array (s : Schema) : Schema :=
  fun now v => match v with
    | .array items =>
        match parseItems s now 0 items with
        | none => none
        | some (issues, none) => some (.aborted issues)
        | some (issues, some out) => some (.parsed (.array out) issues)
    | v => some (invalidType "array" REQUIRED v)

end Schemas

section Taking

/-- The schema accepts the value, and makes nothing else of it. -/
def Takes (s : Schema) (t : Nat) (v : JsValue) : Prop := Accepts s t v v

variable {t : Nat} {s : Schema} {v : JsValue}

theorem takes_unknown : Takes unknown t v := rfl

theorem takes_enumeration {values : List String} {x : String} (h : x ∈ values) :
    Takes (enumeration values) t (.string x) :=
  if_pos h

theorem takes_string {checks : List (Check String)} {req x : String}
    (h : ∀ c ∈ checks, c.holds x = true) : Takes (string checks req) t (.string x) :=
  accepts_string.mpr ⟨x, rfl, rfl, runChecks_nil.mpr h⟩

/-- A text that is taken passes all checks. -/
theorem takes_string_inv {checks : List (Check String)} {req x : String}
    (h : Takes (string checks req) t (.string x)) : ∀ c ∈ checks, c.holds x = true := by
  rcases accepts_string.mp h with ⟨y, hv, _, hy⟩
  rw [JsValue.string.injEq] at hv
  subst hv
  exact runChecks_nil.mp hy

theorem takes_number (q : ℚ) : Takes (number []) t (.number (.finite q)) :=
  accepts_number.mpr ⟨_, rfl, rfl, JsNumber.noConfusion, rfl⟩

theorem takes_int (n : Int) : Takes (number [int]) t (.number (.finite n)) := by
  refine accepts_number.mpr ⟨_, rfl, rfl, JsNumber.noConfusion, runChecks_nil.mpr fun c hc => ?_⟩
  rw [List.mem_singleton.mp hc]
  simp only [int, JsNumber.toInt?, Rat.den_intCast, if_true, Option.isSome_some]

theorem takes_boolean (b : Bool) : Takes boolean t (.boolean b) :=
  accepts_boolean.mpr ⟨b, rfl, rfl⟩

theorem takes_null : Takes (nullable s) t .null := accepts_nullable.mpr (Or.inl ⟨rfl, rfl⟩)

theorem takes_nullable (hv : v ≠ .null) : Takes (nullable s) t v ↔ Takes s t v := by
  unfold Takes
  rw [accepts_nullable]
  exact ⟨fun h => h.elim (fun hn => absurd hn.1 hv) (fun hs => hs.2), fun h => Or.inr ⟨hv, h⟩⟩

theorem parseItems_taken {items : List JsValue} (h : ∀ v ∈ items, Takes s t v) :
    ∀ index, parseItems s t index items = some ([], some items) := by
  induction items with
  | nil => exact fun _ => rfl
  | cons item items ih =>
      intro index
      have hitem : s t item = some (.parsed item []) := h item List.mem_cons_self
      have hrest := ih (fun v hv => h v (List.mem_cons_of_mem _ hv)) (index + 1)
      simp only [parseItems, hitem, hrest, List.map_nil, List.append_nil, Option.map_some]

/-- An array is taken if its items are. -/
theorem takes_array {items : List JsValue} (h : ∀ v ∈ items, Takes s t v) :
    Takes (array s) t (.array items) := by
  unfold Takes Accepts array
  simp only [parseItems_taken h]

theorem parseItems_inv : ∀ (items : List JsValue) (index : Nat) (out : List JsValue),
    parseItems s t index items = some ([], some out) → List.Forall₂ (Accepts s t) items out := by
  intro items
  induction items with
  | nil =>
      intro index out h
      simp only [parseItems, Option.some.injEq, Prod.mk.injEq, true_and] at h
      rw [← h]
      exact List.Forall₂.nil
  | cons item items ih =>
      intro index out h
      unfold Accepts at ih ⊢
      rcases hitem : s t item with _ | issues | ⟨v, issues⟩ <;>
        rcases hrest : parseItems s t (index + 1) items with _ | ⟨more, _ | rest⟩ <;>
        simp only [parseItems, hitem, hrest, Option.some.injEq, Prod.mk.injEq, Option.map_some,
          Option.map_none, reduceCtorEq, and_false, List.append_eq_nil_iff,
          List.map_eq_nil_iff] at h
      rcases h with ⟨⟨rfl, rfl⟩, rfl⟩
      exact List.Forall₂.cons hitem (ih (index + 1) rest hrest)

/-- The items of an array that is taken are taken. -/
theorem takes_array_inv {items : List JsValue} (h : Takes (array s) t (.array items)) :
    ∀ v ∈ items, Takes s t v := by
  unfold Takes Accepts array at h
  simp only at h
  rcases hitems : parseItems s t 0 items with _ | ⟨issues, _ | out⟩
  · simp only [hitems, reduceCtorEq] at h
  · simp only [hitems, Option.some.injEq, reduceCtorEq] at h
  · simp only [hitems, Option.some.injEq, Parsed.parsed.injEq, JsValue.array.injEq] at h
    rcases h with ⟨rfl, rfl⟩
    exact fun v hv => List.forall₂_same.mp (parseItems_inv out 0 out hitems) v hv

end Taking

section Objects

variable {t : Nat} {unknownKeys : UnknownKeys}

/-- An object has the fields of the shape, and each is taken. A field can be
    absent where `undefined` is taken. -/
inductive FieldsTaken (t : Nat) : List (String × Schema) → List (String × JsValue) → Prop
  | nil : FieldsTaken t [] []
  | cons {key : String} {s : Schema} {v : JsValue} {shape : List (String × Schema)}
      {fields : List (String × JsValue)} (hv : Takes s t v) (hrest : FieldsTaken t shape fields) :
      FieldsTaken t ((key, s) :: shape) ((key, v) :: fields)
  | absent {key : String} {s : Schema} {shape : List (String × Schema)}
      {fields : List (String × JsValue)} (hv : Takes s t .undefined)
      (hrest : FieldsTaken t shape fields) : FieldsTaken t ((key, s) :: shape) fields

variable {shape : List (String × Schema)} {fields : List (String × JsValue)}

theorem fieldsTaken_keys (h : FieldsTaken t shape fields) :
    ∀ key ∈ fields.map (·.1), key ∈ shape.map (·.1) := by
  induction h with
  | nil => exact fun key hkey => hkey
  | cons _ _ ih =>
      intro key hkey
      exact List.mem_cons.mpr ((List.mem_cons.mp hkey).imp_right (ih key))
  | absent _ _ ih => exact fun key hkey => List.mem_cons_of_mem _ (ih key hkey)

theorem has_false {key : String} (h : key ∉ fields.map (·.1)) : has fields key = false := by
  induction fields with
  | nil => rfl
  | cons p fields ih =>
      rcases p with ⟨k, v⟩
      rw [List.map_cons, List.mem_cons, not_or] at h
      rw [has_cons, decide_eq_false h.1, ih h.2]
      rfl

/-- A shape that takes the fields takes them from every object that has the
    same ones. -/
theorem parseShape_taken (hnd : (shape.map (·.1)).Nodup) (h : FieldsTaken t shape fields)
    {all : List (String × JsValue)} (hall : ∀ key ∈ shape.map (·.1),
      get all key = get fields key ∧ has all key = has fields key) :
    parseShape t all shape = some ([], some fields) := by
  induction h with
  | nil => rfl
  | @cons key s v shape fields hv hrest ih =>
      rw [List.map_cons, List.nodup_cons] at hnd
      rcases hall key List.mem_cons_self with ⟨hget, hhas⟩
      rw [get_cons, if_pos rfl] at hget
      rw [has_cons, decide_eq_true rfl, Bool.true_or] at hhas
      refine parseShape_cons.mpr ⟨v, fields, hget ▸ hv, ih hnd.2 fun k hk => ?_, ?_⟩
      · have hne : k ≠ key := fun heq => hnd.1 (heq ▸ hk)
        have hk' := hall k (List.mem_cons_of_mem _ hk)
        rwa [get_cons, if_neg hne, has_cons, decide_eq_false hne, Bool.false_or] at hk'
      · rw [hhas, Bool.not_true, Bool.and_false, if_neg Bool.false_ne_true]
  | @absent key s shape fields hv hrest ih =>
      rw [List.map_cons, List.nodup_cons] at hnd
      rcases hall key List.mem_cons_self with ⟨hget, hhas⟩
      have hnone : has fields key = false :=
        has_false fun hkey => hnd.1 (fieldsTaken_keys hrest key hkey)
      rw [get_of_not_has hnone] at hget
      rw [hnone] at hhas
      refine parseShape_cons.mpr ⟨.undefined, fields, hget ▸ hv, ih hnd.2 fun k hk =>
        hall k (List.mem_cons_of_mem _ hk), ?_⟩
      rw [hhas]
      rfl

/-- An object with the fields of the shape, all of them taken, is taken. -/
theorem takes_object (hnd : (shape.map (·.1)).Nodup) (h : FieldsTaken t shape fields) :
    Takes (object unknownKeys shape) t (.object fields) :=
  accepts_object.mpr ⟨fields, fields, rfl, rfl,
    parseShape_taken hnd h fun _ _ => ⟨rfl, rfl⟩, unrecognized_nil (fieldsTaken_keys h)⟩

/-- A field of an object that is taken is taken. -/
theorem takes_field (hnd : (shape.map (·.1)).Nodup)
    (h : Takes (object unknownKeys shape) t (.object fields)) {key : String} {s : Schema}
    (hmem : (key, s) ∈ shape) : Takes s t (get fields key) :=
  (accepts_field hnd h hmem).1

end Objects

end Zod
