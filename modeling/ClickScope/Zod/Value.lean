import ClickScope.Uuid.Reading
import Mathlib.Data.Rat.Floor

/-!
# Values of the Language

The values a request is made of, and what the language converts them to.

A value is what parsing JSON or a query string gives, or what a schema made of
one: it can be a date, and it can be absent. A finite number is a rational, so
every double is one, and a date is its time value, with none for an invalid
date. An object is its own enumerable properties in their order; a property
that is listed twice is the first of the two.

`Number(value)` and `new Date(value)` follow the language down to its
functions on single texts, which `Host` supplies. An object converts through
its `toString`, which is the built-in one unless a property hides it. What
hides it is data and cannot be called, so the conversion throws, and `none` is
a thrown conversion.

## Main definitions

* `JsNumber`, `JsValue`: The values.
* `Host`: The functions on texts.
* `toText`, `toNumber`, `toDate`: The conversions.
* `get`, `has`: Reading an object.
* `JsValue.isJson`: What a JSON text can say.

## Theorems

* `JsValue.induct`: Induction over values.
* `toDate_range`: A date is within the range of time values.
* `toDate_date`: Converting a date gives it back.
-/

namespace Zod

/-- A number of the language. -/
inductive JsNumber : Type
  | nan
  | infinite (negative : Bool)
  | finite (q : ℚ)
deriving DecidableEq, Repr

inductive JsValue : Type
  | undefined
  | null
  | boolean (b : Bool)
  | number (n : JsNumber)
  | string (s : String)
  | date (time : Option Int)
  | array (items : List JsValue)
  | object (fields : List (String × JsValue))
deriving Repr

/-- Induction over values: an array has the property if its items do, and an
    object if the values of its properties do. -/
@[elab_as_elim]
theorem JsValue.induct {p : JsValue → Prop} (undefined : p .undefined) (null : p .null)
    (boolean : ∀ b, p (.boolean b)) (number : ∀ n, p (.number n)) (string : ∀ s, p (.string s))
    (date : ∀ time, p (.date time))
    (array : ∀ items, (∀ v ∈ items, p v) → p (.array items))
    (object : ∀ fields, (∀ f ∈ fields, p f.2) → p (.object fields)) : ∀ v, p v := by
  refine @JsValue.rec p (fun items => ∀ v ∈ items, p v) (fun fields => ∀ f ∈ fields, p f.2)
    (fun f => p f.2) undefined null boolean number string date array object ?_ ?_ ?_ ?_ ?_
  · intro v hv
    cases hv
  · intro v items hv hitems
    exact List.forall_mem_cons.mpr ⟨hv, hitems⟩
  · intro f hf
    cases hf
  · intro f fields hf hfields
    exact List.forall_mem_cons.mpr ⟨hf, hfields⟩
  · intro key v hv
    exact hv

/-- The largest magnitude of a time value. -/
def MAX_TIME : Int := 8640000000000000

/-- The functions on single texts that the language and its platform supply:
    `String(n)` of a number and of a date, `Number(text)`, `Date.parse(text)`,
    the `protocol` of `new URL(text)`, where none is a thrown `TypeError`, and
    the two patterns of the schema library, of which the one for a UUID asks for
    five groups of digits. -/
structure Host where
  numberText : JsNumber → String
  dateText : Option Int → String
  textNumber : String → JsNumber
  parseDate : String → Option Int
  urlProtocol : String → Option String
  isEmail : String → Bool
  isUuid : String → Bool
  parseDate_range : ∀ s t, parseDate s = some t → -MAX_TIME ≤ t ∧ t ≤ MAX_TIME
  isUuid_hyphenated : ∀ s, isUuid s = true → Uuid.isHyphenated s = true

/-- The property of an object, which is `undefined` if it is not there. -/
def get (fields : List (String × JsValue)) (key : String) : JsValue :=
  (fields.lookup key).getD .undefined

/-- `key in fields` -/
def has (fields : List (String × JsValue)) (key : String) : Bool :=
  (fields.lookup key).isSome

mutual

/-- `String(value)`, except that `undefined` and `null` are the empty text, as
    they are inside an array. -/
def toText (H : Host) : JsValue → Option String
  | .undefined => some ""
  | .null => some ""
  | .boolean b => some (if b then "true" else "false")
  | .number n => some (H.numberText n)
  | .string s => some s
  | .date time => some (H.dateText time)
  | .array items => (itemTexts H items).map (String.intercalate ",")
  | .object fields => if has fields "toString" then none else some "[object Object]"

def itemTexts (H : Host) : List JsValue → Option (List String)
  | [] => some []
  | item :: rest =>
      match toText H item, itemTexts H rest with
      | some text, some texts => some (text :: texts)
      | _, _ => none

end

mutual

/-- A value that JSON can say: nothing undefined, no date, and no number but a
    finite one. -/
def JsValue.isJson : JsValue → Bool
  | .undefined => false
  | .null => true
  | .boolean _ => true
  | .number (.finite _) => true
  | .number _ => false
  | .string _ => true
  | .date _ => false
  | .array items => itemsJson items
  | .object fields => fieldsJson fields

def itemsJson : List JsValue → Bool
  | [] => true
  | item :: rest => item.isJson && itemsJson rest

def fieldsJson : List (String × JsValue) → Bool
  | [] => true
  | (_, v) :: rest => v.isJson && fieldsJson rest

end

/-- A property of a JSON object is JSON, if it is there. -/
theorem get_isJson {fields : List (String × JsValue)} (h : fieldsJson fields = true)
    (key : String) : get fields key = .undefined ∨ (get fields key).isJson = true := by
  induction fields with
  | nil => exact Or.inl rfl
  | cons p fields ih =>
      rcases p with ⟨k, v⟩
      rw [fieldsJson, Bool.and_eq_true] at h
      unfold get
      rw [List.lookup_cons]
      cases key == k with
      | true => exact Or.inr h.1
      | false => exact ih h.2

/-- `Number(value)` -/
def toNumber (H : Host) : JsValue → Option JsNumber
  | .undefined => some .nan
  | .null => some (.finite 0)
  | .boolean b => some (.finite (if b then 1 else 0))
  | .number n => some n
  | .string s => some (H.textNumber s)
  | .date none => some .nan
  | .date (some t) => some (.finite t)
  | .array items => (toText H (.array items)).map H.textNumber
  | .object fields => (toText H (.object fields)).map H.textNumber

/-- The time value of a number: none if it is out of range, and whole
    milliseconds otherwise, rounded toward zero. -/
def timeClip : JsNumber → Option Int
  | .nan => none
  | .infinite _ => none
  | .finite q =>
      if |q| ≤ (MAX_TIME : ℚ) then some (if 0 ≤ q then ⌊q⌋ else ⌈q⌉) else none

/-- `new Date(value).getTime()`, where the inner none is `NaN`. -/
def toDate (H : Host) : JsValue → Option (Option Int)
  | .undefined => some none
  | .null => some (some 0)
  | .boolean b => some (some (if b then 1 else 0))
  | .number n => some (timeClip n)
  | .string s => some (H.parseDate s)
  | .date time => some time
  | .array items => (toText H (.array items)).map H.parseDate
  | .object fields => (toText H (.object fields)).map H.parseDate

@[simp] theorem toNumber_number (H : Host) (n : JsNumber) :
    toNumber H (.number n) = some n := rfl

@[simp] theorem toDate_date (H : Host) (time : Option Int) :
    toDate H (.date time) = some time := rfl

/-- A time value of an integer in range is the integer. -/
theorem timeClip_int (t : Int) (hlo : -MAX_TIME ≤ t) (hhi : t ≤ MAX_TIME) :
    timeClip (.finite t) = some t := by
  have habs : |(t : ℚ)| ≤ (MAX_TIME : ℚ) := by
    rw [abs_le]
    exact ⟨by exact_mod_cast hlo, by exact_mod_cast hhi⟩
  unfold timeClip
  simp only [habs, if_true, Int.floor_intCast, Int.ceil_intCast, ite_self]

theorem timeClip_range {n : JsNumber} {t : Int} (h : timeClip n = some t) :
    -MAX_TIME ≤ t ∧ t ≤ MAX_TIME := by
  cases n with
  | nan => cases h
  | infinite negative => cases h
  | finite q =>
      simp only [timeClip] at h
      by_cases habs : |q| ≤ (MAX_TIME : ℚ)
      · rw [if_pos habs, Option.some.injEq] at h
        rw [abs_le] at habs
        -- The fraction is cut off towards zero, so the bound stays.
        by_cases hq : 0 ≤ q
        · rw [if_pos hq] at h
          have hfloor : (0 : Int) ≤ ⌊q⌋ := Int.floor_nonneg.mpr hq
          have hle : (⌊q⌋ : ℚ) ≤ (MAX_TIME : ℚ) := (Int.floor_le q).trans habs.2
          have hle' : ⌊q⌋ ≤ MAX_TIME := by exact_mod_cast hle
          have hpos : (0 : Int) ≤ MAX_TIME := by decide
          omega
        · rw [if_neg hq] at h
          have hceil : ⌈q⌉ ≤ (0 : Int) := Int.ceil_le.mpr (by exact_mod_cast (not_le.mp hq).le)
          have hge : ((-MAX_TIME : Int) : ℚ) ≤ (⌈q⌉ : ℚ) := by
            refine le_trans ?_ (Int.le_ceil q)
            exact_mod_cast habs.1
          have hge' : -MAX_TIME ≤ ⌈q⌉ := by exact_mod_cast hge
          have hpos : (0 : Int) ≤ MAX_TIME := by decide
          omega
      · rw [if_neg habs] at h
        cases h

/-- A date made of a value that is no date itself is within range. -/
theorem toDate_range {H : Host} {v : JsValue} {t : Int} (hdate : ∀ time, v ≠ .date time)
    (h : toDate H v = some (some t)) : -MAX_TIME ≤ t ∧ t ≤ MAX_TIME := by
  cases v with
  | undefined => cases h
  | null =>
      simp only [toDate, Option.some.injEq] at h
      rw [← h]
      decide
  | boolean b =>
      simp only [toDate, Option.some.injEq] at h
      rw [← h]
      cases b <;> decide
  | number n => exact timeClip_range (Option.some.inj h)
  | string s => exact H.parseDate_range s t (Option.some.inj h)
  | date time => exact absurd rfl (hdate time)
  | array items | object fields =>
      rcases Option.map_eq_some_iff.mp h with ⟨text, _, htext⟩
      exact H.parseDate_range text t htext

end Zod
