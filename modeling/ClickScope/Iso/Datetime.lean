import ClickScope.Iso.Instant
import Mathlib.Tactic.IntervalCases

/-!
# The Pattern of a Date and Time

`YYYY-MM-DDTHH:mm`, perhaps with seconds and a fraction of them, and a `Z`: what
a validator takes for a date and time in UTC. The day has to be one of its
month, and February has a 29th in a leap year only.

The text of an instant fits the pattern as long as its year has four digits, and
only then. From the epoch on that is the time before the year 10000.

## Main definitions

* `daysInMonth`: The length of a month.
* `isDatetime`: The pattern.
* `LAST_INSTANT`: The last instant whose year has four digits.

## Theorems

* `civilOfDay_inMonth`: A day is one of its month.
* `isDatetime_toISOString`: Which instants fit the pattern.
* `fourDigits_iff`: When they are.
-/

namespace Iso

section Calendar

def isLeapYear (year : Int) : Bool :=
  decide (year % 4 = 0) && (decide (year % 100 ≠ 0) || decide (year % 400 = 0))

def daysInMonth (year month : Int) : Int :=
  if month = 2 then (if isLeapYear year then 29 else 28)
  else if month = 4 ∨ month = 6 ∨ month = 9 ∨ month = 11 then 30
  else 31

/-- The year ends with its leap day, since it begins in March. -/
theorem yearStart_leap (y : Int) :
    yearStart (y + 1) = yearStart y + (if isLeapYear (y + 1) then 366 else 365) := by
  unfold yearStart isLeapYear
  split_ifs with h <;>
    simp only [Bool.and_eq_true, Bool.or_eq_true, decide_eq_true_eq, not_and, not_or] at h <;> omega

/-- A month ends where the next one begins. -/
theorem firstOfMonth_next (year month : Int) (hlo : 1 ≤ month) (hhi : month ≤ 12) :
    firstOfMonth (12 * year + month - 3 + 1)
      = firstOfMonth (12 * year + month - 3) + daysInMonth year month := by
  have hleap := yearStart_leap (year - 1)
  rw [Int.sub_add_cancel] at hleap
  unfold firstOfMonth daysInMonth
  -- January and February belong to the year that began in March before.
  interval_cases month <;> unfold monthStart
  · rw [show (12 * year + 1 - 3 + 1) / 12 = year - 1 by omega,
      show (12 * year + 1 - 3) / 12 = year - 1 by omega]
    simp only [reduceIte, Int.reduceEq, or_self]
    omega
  · rw [show (12 * year + 2 - 3 + 1) / 12 = year by omega,
      show (12 * year + 2 - 3) / 12 = year - 1 by omega, hleap]
    simp only [reduceIte]
    split_ifs <;> omega
  all_goals
    rw [show (12 * year + _ - 3 + 1) / 12 = year by omega,
      show (12 * year + _ - 3) / 12 = year by omega]
    simp only [reduceIte, Int.reduceEq, or_self, or_true, true_or]
    omega

/-- A day is one of its month. -/
theorem civilOfDay_inMonth (d : Int) :
    (civilOfDay d).day ≤ daysInMonth (civilOfDay d).year (civilOfDay d).month := by
  have hmonth := civilOfDay_month d
  have hday := civilOfDay_day d
  have hrange := civilOfDay_range d
  have hspec := (firstOfMonth_spec d).2
  have hnext := firstOfMonth_next (civilOfDay d).year (civilOfDay d).month hrange.1 hrange.2.1
  rw [show 12 * (civilOfDay d).year + (civilOfDay d).month - 3 = monthNumber d by omega] at hnext
  omega

end Calendar

section Pattern

/-- Seconds, if there are any, and a fraction of them, if there is one. -/
def skipSeconds (s : List Char) : Option (List Char) :=
  match expect ':' s with
  | none => some s
  | some s =>
      match readNumber 2 s with
      | none => none
      | some (second, s) =>
          if 60 ≤ second then none
          else
            match expect '.' s with
            | none => some s
            | some s =>
                if s.takeWhile Char.isDigit = [] then none else some (s.dropWhile Char.isDigit)

/-- The time of day behind a date, up to the end of the text. -/
def isTimeOfDay (s : List Char) : Bool :=
  match readNumber 2 s with
  | none => false
  | some (hour, s) =>
      match (expect ':' s).bind (readNumber 2) with
      | none => false
      | some (minute, s) =>
          decide (hour < 24) && decide (minute < 60) && (skipSeconds s == some ['Z'])

/-- The pattern: a date with a year of four digits, and a time of day. -/
def isDatetime (s : List Char) : Bool :=
  match readNumber 4 s with
  | none => false
  | some (year, s) =>
      match (expect '-' s).bind (readNumber 2) with
      | none => false
      | some (month, s) =>
          match (expect '-' s).bind (readNumber 2) with
          | none => false
          | some (day, s) =>
              decide (1 ≤ month) && decide (month ≤ 12) && decide (1 ≤ day) &&
                decide ((day : Int) ≤ daysInMonth year month) && (expect 'T' s).any isTimeOfDay

theorem isTimeOfDay_timeText {ms : Nat} (h : ms < 86400000) : isTimeOfDay (timeText ms) = true := by
  have hhour : ms / 3600000 < 10 ^ 2 := by omega
  have hminute : ms / 60000 % 60 < 10 ^ 2 := by omega
  have hsecond : ms / 1000 % 60 < 10 ^ 2 := by omega
  have hlt : ¬ 60 ≤ ms / 1000 % 60 := by omega
  -- The three digits of the fraction end at the mark.
  have htake : (padded 3 (ms % 1000) ++ ['Z']).takeWhile Char.isDigit = padded 3 (ms % 1000) := by
    rw [List.takeWhile_append_of_pos fun c hc => List.all_eq_true.mp (padded_digits 3 _) c hc]
    exact List.append_nil _
  have hdrop : (padded 3 (ms % 1000) ++ ['Z']).dropWhile Char.isDigit = ['Z'] := by
    rw [List.dropWhile_append_of_pos fun c hc => List.all_eq_true.mp (padded_digits 3 _) c hc]
    rfl
  have hne : padded 3 (ms % 1000) ≠ [] := by
    intro hnil
    have hlen := padded_length 3 (ms % 1000)
    rw [hnil] at hlen
    cases hlen
  simp only [isTimeOfDay, timeText, readNumber_padded hhour, expect_self, Option.bind_some,
    readNumber_padded hminute, skipSeconds, readNumber_padded hsecond, hlt, if_false, htake, hne,
    hdrop, beq_self_eq_true, Bool.and_true, Bool.and_eq_true, decide_eq_true_eq]
  omega

/-- A year with a sign does not begin with a digit. -/
theorem readNumber_sign {c : Char} (hc : c = '+' ∨ c = '-') (w : Nat) (s : List Char) :
    readNumber (w + 1) (c :: s) = none := by
  have hdigit : c.isDigit = false := by rcases hc with rfl | rfl <;> decide
  unfold readNumber
  rw [if_neg]
  rw [List.take_succ_cons, List.all_cons, hdigit, Bool.false_and]
  exact fun h => Bool.false_ne_true h.2

/-- The text of an instant fits the pattern exactly if its year has four
    digits. -/
theorem isDatetime_toISOString (t : Int) :
    isDatetime (toISOString t) = true ↔ FourDigits (t / MS_PER_DAY) := by
  have hms : (t % MS_PER_DAY).toNat < 86400000 := by
    unfold MS_PER_DAY
    omega
  have hrange := civilOfDay_range (t / MS_PER_DAY)
  have hin := civilOfDay_inMonth (t / MS_PER_DAY)
  unfold toISOString dateText yearText
  by_cases hfour : FourDigits (t / MS_PER_DAY)
  · unfold FourDigits at hfour ⊢
    have hyear : (civilOfDay (t / MS_PER_DAY)).year.toNat < 10 ^ 4 := by omega
    have hmonth : (civilOfDay (t / MS_PER_DAY)).month.toNat < 10 ^ 2 := by omega
    have hday : (civilOfDay (t / MS_PER_DAY)).day.toNat < 10 ^ 2 := by omega
    have hmonth' : ((civilOfDay (t / MS_PER_DAY)).month.toNat : Int)
        = (civilOfDay (t / MS_PER_DAY)).month := Int.toNat_of_nonneg (by omega)
    have hday' : ((civilOfDay (t / MS_PER_DAY)).day.toNat : Int)
        = (civilOfDay (t / MS_PER_DAY)).day := Int.toNat_of_nonneg (by omega)
    refine iff_of_true ?_ hfour
    rw [if_pos hfour]
    simp only [isDatetime, List.append_assoc, List.cons_append, readNumber_padded hyear,
      expect_self, Option.bind_some, readNumber_padded hmonth, readNumber_padded hday,
      Option.any_some, isTimeOfDay_timeText hms, Bool.and_true, Bool.and_eq_true,
      decide_eq_true_eq, Int.toNat_of_nonneg hfour.1, hmonth', hday']
    omega
  · unfold FourDigits at hfour ⊢
    have hsign : ∀ y : Int, (if 0 ≤ y then '+' else '-') = '+' ∨
        (if 0 ≤ y then '+' else '-') = '-' := by
      intro y
      split_ifs
      · exact Or.inl rfl
      · exact Or.inr rfl
    rw [if_neg hfour]
    simp only [isDatetime, List.cons_append, readNumber_sign (hsign _), Bool.false_eq_true, hfour]

end Pattern

/-- The last instant of the year 9999. -/
def LAST_INSTANT : Int := 253402300799999

/-- From the epoch on a year has four digits up to the last instant. -/
theorem fourDigits_iff {t : Int} (h : 0 ≤ t) : FourDigits (t / MS_PER_DAY) ↔ t ≤ LAST_INSTANT := by
  have hlast : (civilOfDay 2932896).year = 9999 := by decide
  have hafter : (civilOfDay 2932897).year = 10000 := by decide
  have hfirst : (civilOfDay 0).year = 1970 := by decide
  have hday : 0 ≤ t / MS_PER_DAY := by
    unfold MS_PER_DAY
    omega
  have hlo := civilOfDay_year_mono hday
  unfold FourDigits LAST_INSTANT
  constructor
  · rintro ⟨_, hle⟩
    by_contra hlate
    have hlater : 2932897 ≤ t / MS_PER_DAY := by
      unfold MS_PER_DAY
      omega
    have hmono := civilOfDay_year_mono hlater
    omega
  · intro hle
    have hearlier : t / MS_PER_DAY ≤ 2932896 := by
      unfold MS_PER_DAY
      omega
    have hmono := civilOfDay_year_mono hearlier
    omega

end Iso
