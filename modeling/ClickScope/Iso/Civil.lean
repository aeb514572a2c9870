import Mathlib.Order.Monotone.Basic
import Mathlib.Tactic.Ring

/-!
# Civil Dates

Days as dates of the proleptic Gregorian calendar, and back.

A day is a number of days since the first of January 1970. The arithmetic is
that of years which begin in March, so that the leap day is the last of its
year: `yearStart` and `monthStart` count the days before a year and before a
month of it. A month is numbered from March of the year zero, which makes the
order of dates the order of pairs of a month number and a day.

## Main definitions

* `CivilDate`: A date.
* `civilOfDay`, `dayOfCivil`: The date of a day, and the day of a date.

## Theorems

* `dayOfCivil_civilOfDay`: A date has its day.
* `civilOfDay_range`: The months and the days of a month.
* `civilOfDay_lt`: Later days have later dates.
-/

namespace Iso

structure CivilDate where
  year : Int
  month : Int
  day : Int
deriving DecidableEq, Repr

/-- The first of January 1970, counted from the first of March of the year
    zero. -/
def EPOCH_DAY : Int := 719468

/-- The days from the first of March of the year zero to that of year `y`. -/
def yearStart (y : Int) : Int := 365 * y + y / 4 - y / 100 + y / 400

/-- The days from the first of March to the first day of the `m`-th month
    after it. -/
def monthStart (m : Int) : Int := (153 * m + 2) / 5

/-- The year that begins in March, and the day within it, of a day counted from
    March of the year zero: centuries, then four years, then years. -/
def yearAndDay (z : Int) : Int × Int :=
  let century := min (z % 146097 / 36524) 3
  let r := z % 146097 - 36524 * century
  let year := min (r % 1461 / 365) 3
  (400 * (z / 146097) + 100 * century + 4 * (r / 1461) + year, r % 1461 - 365 * year)

/-- The month of a day within its year. -/
def monthOfYearDay (day : Int) : Int := (5 * day + 2) / 153

/-- The month of a day, counted from March of the year zero. -/
def monthNumber (d : Int) : Int :=
  12 * (yearAndDay (d + EPOCH_DAY)).1 + monthOfYearDay (yearAndDay (d + EPOCH_DAY)).2

def civilOfDay (d : Int) : CivilDate :=
  let day := (yearAndDay (d + EPOCH_DAY)).2
  { year := (monthNumber d + 2) / 12, month := (monthNumber d + 2) % 12 + 1,
    day := day - monthStart (monthOfYearDay day) + 1 }

/-- The first day of a month. -/
def firstOfMonth (m : Int) : Int := yearStart (m / 12) + monthStart (m % 12) - EPOCH_DAY

def dayOfCivil (c : CivilDate) : Int :=
  firstOfMonth (12 * c.year + c.month - 3) + c.day - 1

/-- The days before a year, from its place in its 400 years. -/
theorem yearStart_split (era century four year : Int) (hc : 0 ≤ century ∧ century ≤ 3)
    (hf : 0 ≤ four ∧ four ≤ 24) (hy : 0 ≤ year ∧ year ≤ 3) :
    yearStart (400 * era + 100 * century + 4 * four + year)
      = 146097 * era + 36524 * century + 1461 * four + 365 * year := by
  have h4 : (400 * era + 100 * century + 4 * four + year) / 4
      = 100 * era + 25 * century + four := by omega
  have h100 : (400 * era + 100 * century + 4 * four + year) / 100 = 4 * era + century := by omega
  have h400 : (400 * era + 100 * century + 4 * four + year) / 400 = era := by omega
  rw [yearStart, h4, h100, h400]
  ring

/-- A year has 365 days or 366. -/
theorem yearStart_succ (y : Int) :
    yearStart y + 365 ≤ yearStart (y + 1) ∧ yearStart (y + 1) ≤ yearStart y + 366 := by
  unfold yearStart
  omega

/-- A day lies in its year. -/
theorem yearAndDay_spec (z : Int) :
    z = yearStart (yearAndDay z).1 + (yearAndDay z).2 ∧ 0 ≤ (yearAndDay z).2 ∧
      z < yearStart ((yearAndDay z).1 + 1) := by
  -- The day within the 400 years, within the century, and within the four years.
  obtain ⟨c, hc⟩ : ∃ c, c = min (z % 146097 / 36524) 3 := ⟨_, rfl⟩
  obtain ⟨r, hr⟩ : ∃ r, r = z % 146097 - 36524 * c := ⟨_, rfl⟩
  obtain ⟨y, hy⟩ : ∃ y, y = min (r % 1461 / 365) 3 := ⟨_, rfl⟩
  have hyear : yearAndDay z
      = (400 * (z / 146097) + 100 * c + 4 * (r / 1461) + y, r % 1461 - 365 * y) := by
    rw [hy, hr, hc]
    rfl
  have hcrange : 0 ≤ c ∧ c ≤ 3 := by omega
  have hrrange : 0 ≤ r ∧ r ≤ 36524 := by omega
  have hyrange : 0 ≤ y ∧ y ≤ 3 := by omega
  have hfrange : 0 ≤ r / 1461 ∧ r / 1461 ≤ 24 := by omega
  have hstart := yearStart_split (z / 146097) c (r / 1461) y hcrange hfrange hyrange
  rw [hyear]
  refine ⟨?_, ?_, ?_⟩
  · dsimp only
    omega
  · dsimp only
    omega
  · dsimp only
    -- The next year is in the same four years, or else begins the next four
    -- years, the next century or the next 400 years.
    by_cases hsame : y < 3
    · have hnext := yearStart_split (z / 146097) c (r / 1461) (y + 1) hcrange hfrange (by omega)
      rw [← Int.add_assoc] at hnext
      omega
    · by_cases hfour : r / 1461 < 24
      · have hnext := yearStart_split (z / 146097) c (r / 1461 + 1) 0 hcrange (by omega) (by omega)
        rw [show 400 * (z / 146097) + 100 * c + 4 * (r / 1461) + y + 1
          = 400 * (z / 146097) + 100 * c + 4 * (r / 1461 + 1) + 0 by omega]
        omega
      · by_cases hcentury : c < 3
        · have hnext := yearStart_split (z / 146097) (c + 1) 0 0 (by omega) (by omega) (by omega)
          rw [show 400 * (z / 146097) + 100 * c + 4 * (r / 1461) + y + 1
            = 400 * (z / 146097) + 100 * (c + 1) + 4 * 0 + 0 by omega]
          omega
        · have hnext := yearStart_split (z / 146097 + 1) 0 0 0 (by omega) (by omega) (by omega)
          rw [show 400 * (z / 146097) + 100 * c + 4 * (r / 1461) + y + 1
            = 400 * (z / 146097 + 1) + 100 * 0 + 4 * 0 + 0 by omega]
          omega

/-- A day lies in its month of the year. -/
theorem monthOfYearDay_spec {day : Int} (hlo : 0 ≤ day) (hhi : day ≤ 365) :
    0 ≤ monthOfYearDay day ∧ monthOfYearDay day ≤ 11 ∧
      monthStart (monthOfYearDay day) ≤ day ∧ day < monthStart (monthOfYearDay day + 1) := by
  unfold monthOfYearDay monthStart
  omega

theorem yearAndDay_range (z : Int) : 0 ≤ (yearAndDay z).2 ∧ (yearAndDay z).2 ≤ 365 := by
  have hspec := yearAndDay_spec z
  have hsucc := yearStart_succ (yearAndDay z).1
  omega

/-- A month number is a year and a month of it. -/
theorem monthNumber_split (d : Int) :
    monthNumber d / 12 = (yearAndDay (d + EPOCH_DAY)).1 ∧
      monthNumber d % 12 = monthOfYearDay (yearAndDay (d + EPOCH_DAY)).2 := by
  have hrange := yearAndDay_range (d + EPOCH_DAY)
  have hmonth := monthOfYearDay_spec hrange.1 hrange.2
  unfold monthNumber
  omega

/-- A day lies in its month. -/
theorem firstOfMonth_spec (d : Int) :
    firstOfMonth (monthNumber d) ≤ d ∧ d < firstOfMonth (monthNumber d + 1) := by
  have hsplit := monthNumber_split d
  have hspec := yearAndDay_spec (d + EPOCH_DAY)
  have hrange := yearAndDay_range (d + EPOCH_DAY)
  have hmonth := monthOfYearDay_spec hrange.1 hrange.2
  refine ⟨?_, ?_⟩
  · rw [firstOfMonth, hsplit.1, hsplit.2]
    omega
  · by_cases hlast : monthOfYearDay (yearAndDay (d + EPOCH_DAY)).2 < 11
    · have hdiv : (monthNumber d + 1) / 12 = (yearAndDay (d + EPOCH_DAY)).1 := by omega
      have hmod : (monthNumber d + 1) % 12
          = monthOfYearDay (yearAndDay (d + EPOCH_DAY)).2 + 1 := by omega
      rw [firstOfMonth, hdiv, hmod]
      omega
    · -- The last month, February, ends with the year.
      have hdiv : (monthNumber d + 1) / 12 = (yearAndDay (d + EPOCH_DAY)).1 + 1 := by omega
      have hmod : (monthNumber d + 1) % 12 = 0 := by omega
      rw [firstOfMonth, hdiv, hmod, show monthStart 0 = 0 by decide]
      omega

theorem firstOfMonth_succ (m : Int) : firstOfMonth m < firstOfMonth (m + 1) := by
  have hsucc := yearStart_succ (m / 12)
  unfold firstOfMonth monthStart
  by_cases hlast : m % 12 = 11
  · have hdiv : (m + 1) / 12 = m / 12 + 1 := by omega
    have hmod : (m + 1) % 12 = 0 := by omega
    rw [hdiv, hmod, hlast]
    omega
  · have hdiv : (m + 1) / 12 = m / 12 := by omega
    rw [hdiv]
    omega

theorem firstOfMonth_le {m n : Int} (h : m ≤ n) : firstOfMonth m ≤ firstOfMonth n :=
  (strictMono_int_of_lt_succ firstOfMonth_succ).monotone h

/-- Later days are in no earlier months. -/
theorem monthNumber_mono {d d' : Int} (h : d ≤ d') : monthNumber d ≤ monthNumber d' := by
  by_contra hlt
  have hmonth : firstOfMonth (monthNumber d' + 1) ≤ firstOfMonth (monthNumber d) :=
    firstOfMonth_le (by omega)
  have hd := (firstOfMonth_spec d).1
  have hd' := (firstOfMonth_spec d').2
  omega

theorem civilOfDay_month (d : Int) :
    12 * (civilOfDay d).year + (civilOfDay d).month = monthNumber d + 3 := by
  simp only [civilOfDay]
  omega

/-- The day of the month counts from its first day. -/
theorem civilOfDay_day (d : Int) :
    (civilOfDay d).day = d - firstOfMonth (monthNumber d) + 1 := by
  have hsplit := monthNumber_split d
  have hspec := yearAndDay_spec (d + EPOCH_DAY)
  rw [firstOfMonth, hsplit.1, hsplit.2]
  simp only [civilOfDay]
  omega

/-- A date has its day. -/
theorem dayOfCivil_civilOfDay (d : Int) : dayOfCivil (civilOfDay d) = d := by
  have hmonth := civilOfDay_month d
  have hday := civilOfDay_day d
  rw [dayOfCivil, show 12 * (civilOfDay d).year + (civilOfDay d).month - 3 = monthNumber d by
    omega]
  omega

theorem civilOfDay_range (d : Int) :
    1 ≤ (civilOfDay d).month ∧ (civilOfDay d).month ≤ 12 ∧
      1 ≤ (civilOfDay d).day ∧ (civilOfDay d).day ≤ 31 := by
  have hrange := yearAndDay_range (d + EPOCH_DAY)
  have hmonth := monthOfYearDay_spec hrange.1 hrange.2
  unfold monthStart at hmonth
  simp only [civilOfDay, monthStart]
  omega

/-- Later days have later dates: their year and month are later, or else their
    day is. -/
theorem civilOfDay_lt {d d' : Int} (h : d < d') :
    12 * (civilOfDay d).year + (civilOfDay d).month
        < 12 * (civilOfDay d').year + (civilOfDay d').month ∨
      ((civilOfDay d).year = (civilOfDay d').year ∧
        (civilOfDay d).month = (civilOfDay d').month ∧
        (civilOfDay d).day < (civilOfDay d').day) := by
  have hmonth := civilOfDay_month d
  have hmonth' := civilOfDay_month d'
  have hrange := civilOfDay_range d
  have hrange' := civilOfDay_range d'
  rcases (monthNumber_mono h.le).lt_or_eq with hlt | heq
  · omega
  · have hday := civilOfDay_day d
    have hday' := civilOfDay_day d'
    rw [← heq] at hday'
    omega

end Iso
