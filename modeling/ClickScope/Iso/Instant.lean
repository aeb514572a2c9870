import ClickScope.Iso.Civil
import ClickScope.Iso.Decimal

/-!
# Instants as Texts

`YYYY-MM-DDTHH:mm:ss.sssZ`, the text of an instant, and its reader.

An instant is a number of milliseconds since the beginning of 1970, in UTC. A
year outside the four digits is written with a sign and six. The reader takes
the full form only, with a date that exists and a time of day within the day.

## Main definitions

* `toISOString`: The text of an instant.
* `readInstant`: The instant of a text.
* `FourDigits`: The days whose year has four digits.

## Theorems

* `readInstant_toISOString`: An instant is read back from its text.
* `toISOString_take`: The first ten characters are the date.
* `dateText_lt`: Later days have later texts.
-/

namespace Iso

def MS_PER_DAY : Int := 86400000

/-- The largest magnitude of an instant the language can represent. -/
def MAX_INSTANT : Int := 8640000000000000

def yearText (y : Int) : List Char :=
  if 0 ≤ y ∧ y ≤ 9999 then padded 4 y.toNat
  else (if 0 ≤ y then '+' else '-') :: padded 6 y.natAbs

def dateText (c : CivilDate) : List Char :=
  yearText c.year ++ '-' :: (padded 2 c.month.toNat ++ '-' :: padded 2 c.day.toNat)

/-- The time of day, from its milliseconds. -/
def timeText (ms : Nat) : List Char :=
  padded 2 (ms / 3600000) ++ ':' :: (padded 2 (ms / 60000 % 60) ++ ':' ::
    (padded 2 (ms / 1000 % 60) ++ '.' :: (padded 3 (ms % 1000) ++ ['Z'])))

def toISOString (t : Int) : List Char :=
  dateText (civilOfDay (t / MS_PER_DAY)) ++ 'T' :: timeText (t % MS_PER_DAY).toNat

/-- A year of four digits, or of six behind a sign. -/
def readYear : List Char → Option (Int × List Char)
  | '+' :: s => (readNumber 6 s).map (fun r => ((r.1 : Int), r.2))
  | '-' :: s => (readNumber 6 s).bind (fun r => if r.1 = 0 then none else some (-(r.1 : Int), r.2))
  | s => (readNumber 4 s).map (fun r => ((r.1 : Int), r.2))

def readDate (s : List Char) : Option (CivilDate × List Char) := do
  let (year, s) ← readYear s
  let (month, s) ← (expect '-' s).bind (readNumber 2)
  let (day, s) ← (expect '-' s).bind (readNumber 2)
  pure ({ year := year, month := month, day := day }, s)

/-- The milliseconds of a time of day. -/
def readTime (s : List Char) : Option Nat := do
  let (hour, s) ← readNumber 2 s
  let (minute, s) ← (expect ':' s).bind (readNumber 2)
  let (second, s) ← (expect ':' s).bind (readNumber 2)
  let (ms, s) ← (expect '.' s).bind (readNumber 3)
  if hour < 24 ∧ minute < 60 ∧ second < 60 ∧ s = ['Z'] then
    some (hour * 3600000 + minute * 60000 + second * 1000 + ms)
  else none

def readInstant (s : List Char) : Option Int := do
  let (date, s) ← readDate s
  let ms ← (expect 'T' s).bind readTime
  let t := dayOfCivil date * MS_PER_DAY + ms
  if civilOfDay (dayOfCivil date) = date ∧ -MAX_INSTANT ≤ t ∧ t ≤ MAX_INSTANT then some t else none

theorem digit_ne_sign {c : Char} (h : c.isDigit = true) : c ≠ '+' ∧ c ≠ '-' := by
  constructor
  · rintro rfl
    exact absurd h (by decide)
  · rintro rfl
    exact absurd h (by decide)

/-- A text that begins with a digit has a year of four digits. -/
theorem readYear_digit {c : Char} (h : c.isDigit = true) (s : List Char) :
    readYear (c :: s) = (readNumber 4 (c :: s)).map (fun r => ((r.1 : Int), r.2)) := by
  have hne := digit_ne_sign h
  unfold readYear
  split
  · next heq => exact absurd (List.cons.inj heq).1 hne.1
  · next heq => exact absurd (List.cons.inj heq).1 hne.2
  · rfl

theorem readYear_yearText {y : Int} (hlo : -999999 ≤ y) (hhi : y ≤ 999999) (s : List Char) :
    readYear (yearText y ++ s) = some (y, s) := by
  unfold yearText
  by_cases hfour : 0 ≤ y ∧ y ≤ 9999
  · have hlt : y.toNat < 10 ^ 4 := by omega
    have hdigit : (y.toNat / 10 ^ 3 % 10).digitChar.isDigit = true := by
      rw [Nat.isDigit_digitChar, decide_eq_true_eq]
      exact Nat.mod_lt _ (by decide)
    rw [if_pos hfour, padded, List.cons_append, readYear_digit hdigit, ← List.cons_append, ← padded,
      readNumber_padded hlt, Option.map_some, Int.toNat_of_nonneg hfour.1]
  · have hlt : y.natAbs < 10 ^ 6 := by omega
    rw [if_neg hfour, List.cons_append]
    by_cases hneg : 0 ≤ y
    · rw [if_pos hneg, readYear, readNumber_padded hlt, Option.map_some, Int.natAbs_of_nonneg hneg]
    · rw [if_neg hneg, readYear, readNumber_padded hlt, Option.bind_some, if_neg (by omega)]
      congr 2
      omega

theorem civilOfDay_year_mono {d d' : Int} (h : d ≤ d') :
    (civilOfDay d).year ≤ (civilOfDay d').year := by
  have hmonth := monthNumber_mono h
  simp only [civilOfDay]
  omega

/-- The years the language can represent. -/
theorem civilOfDay_year_range {d : Int} (hlo : -100000000 ≤ d) (hhi : d ≤ 100000000) :
    -271821 ≤ (civilOfDay d).year ∧ (civilOfDay d).year ≤ 275760 :=
  ⟨civilOfDay_year_mono hlo, civilOfDay_year_mono hhi⟩

/-- The date of a day is read back from its text. -/
theorem readDate_dateText {d : Int} (hlo : -100000000 ≤ d) (hhi : d ≤ 100000000) (s : List Char) :
    readDate (dateText (civilOfDay d) ++ s) = some (civilOfDay d, s) := by
  have hyear := civilOfDay_year_range hlo hhi
  have hrange := civilOfDay_range d
  have hmonth : (civilOfDay d).month.toNat < 10 ^ 2 := by omega
  have hday : (civilOfDay d).day.toNat < 10 ^ 2 := by omega
  have hdate : CivilDate.mk (civilOfDay d).year (civilOfDay d).month.toNat
      (civilOfDay d).day.toNat = civilOfDay d := by
    rw [Int.toNat_of_nonneg (by omega), Int.toNat_of_nonneg (by omega)]
  have hread : readYear (yearText (civilOfDay d).year
      ++ ('-' :: (padded 2 (civilOfDay d).month.toNat
      ++ '-' :: (padded 2 (civilOfDay d).day.toNat ++ s))))
      = some ((civilOfDay d).year, '-' :: (padded 2 (civilOfDay d).month.toNat
        ++ '-' :: (padded 2 (civilOfDay d).day.toNat ++ s))) :=
    readYear_yearText (by omega) (by omega) _
  simp only [dateText, List.append_assoc, List.cons_append, readDate, hread, expect_self,
    Option.bind_some, readNumber_padded hmonth, readNumber_padded hday, Option.bind_eq_bind, hdate,
    Option.pure_def]

/-- A time of day is read back from its text. -/
theorem readTime_timeText {ms : Nat} (h : ms < 86400000) : readTime (timeText ms) = some ms := by
  have hhour : ms / 3600000 < 10 ^ 2 := by omega
  have hminute : ms / 60000 % 60 < 10 ^ 2 := by omega
  have hsecond : ms / 1000 % 60 < 10 ^ 2 := by omega
  have hms : ms % 1000 < 10 ^ 3 := by omega
  simp only [timeText, readTime, readNumber_padded hhour, expect_self, Option.bind_some,
    readNumber_padded hminute, readNumber_padded hsecond, readNumber_padded hms,
    Option.bind_eq_bind, and_true]
  rw [if_pos (by omega), Option.some.injEq]
  omega

/-- An instant is read back from its text. -/
theorem readInstant_toISOString {t : Int} (hlo : -MAX_INSTANT ≤ t) (hhi : t ≤ MAX_INSTANT) :
    readInstant (toISOString t) = some t := by
  have hday : -100000000 ≤ t / MS_PER_DAY ∧ t / MS_PER_DAY ≤ 100000000 := by
    unfold MS_PER_DAY MAX_INSTANT at *
    omega
  have hms : (t % MS_PER_DAY).toNat < 86400000 := by
    unfold MS_PER_DAY
    omega
  have hsum : t / MS_PER_DAY * MS_PER_DAY + ((t % MS_PER_DAY).toNat : Int) = t := by
    unfold MS_PER_DAY
    omega
  simp only [toISOString, readInstant, readDate_dateText hday.1 hday.2, expect_self,
    Option.bind_some, readTime_timeText hms, Option.bind_eq_bind, dayOfCivil_civilOfDay, hsum]
  rw [if_pos ⟨trivial, hlo, hhi⟩]

/-- What is read is an instant the language can represent. -/
theorem readInstant_range {s : List Char} {t : Int} (h : readInstant s = some t) :
    -MAX_INSTANT ≤ t ∧ t ≤ MAX_INSTANT := by
  simp only [readInstant, Option.bind_eq_bind, Option.bind_eq_some_iff,
    Option.ite_none_right_eq_some, Option.some.injEq] at h
  rcases h with ⟨date, _, ms, _, hrange, rfl⟩
  exact hrange.2

/-- A date with a year of four digits. -/
def FourDigits (d : Int) : Prop := 0 ≤ (civilOfDay d).year ∧ (civilOfDay d).year ≤ 9999

instance (d : Int) : Decidable (FourDigits d) := inferInstanceAs (Decidable (_ ∧ _))

theorem dateText_length {d : Int} (h : FourDigits d) : (dateText (civilOfDay d)).length = 10 := by
  unfold FourDigits at h
  rw [dateText, yearText, if_pos h]
  simp only [List.length_append, List.length_cons, padded_length]

/-- The first ten characters of an instant's text are its date. -/
theorem toISOString_take {t : Int} (h : FourDigits (t / MS_PER_DAY)) :
    (toISOString t).take 10 = dateText (civilOfDay (t / MS_PER_DAY)) := by
  rw [toISOString, ← dateText_length h, List.take_left]

/-- Other dates have more characters. -/
theorem dateText_long {d : Int} (h : ¬ FourDigits d) : (dateText (civilOfDay d)).length = 13 := by
  unfold FourDigits at h
  rw [dateText, yearText, if_neg h]
  simp only [List.length_append, List.length_cons, padded_length]

/-- Of two texts of one length the smaller stays smaller, whatever follows. -/
theorem append_lt {a b : List Char} (hlen : a.length = b.length) (h : a < b) (x y : List Char) :
    a ++ x < b ++ y := by
  induction a generalizing b with
  | nil =>
      rw [List.length_nil, eq_comm, List.length_eq_zero_iff] at hlen
      rw [hlen] at h
      exact absurd h (List.lt_irrefl [])
  | cons c a ih =>
      cases b with
      | nil => cases hlen
      | cons c' b =>
          rw [List.length_cons, List.length_cons, Nat.add_right_cancel_iff] at hlen
          rw [List.cons_lt_cons_iff] at h
          rw [List.cons_append, List.cons_append, List.cons_lt_cons_iff]
          rcases h with hlt | ⟨heq, hlt⟩
          · exact Or.inl hlt
          · exact Or.inr ⟨heq, ih hlen hlt⟩

theorem append_lt_left (a : List Char) {x y : List Char} (h : x < y) : a ++ x < a ++ y := by
  induction a with
  | nil => exact h
  | cons c a ih =>
      rw [List.cons_append, List.cons_append, List.cons_lt_cons_iff]
      exact Or.inr ⟨rfl, ih⟩

/-- Numbers of one width decide whatever follows them. -/
theorem padded_append_lt {w n m : Nat} (h : n < m) (hm : m < 10 ^ w) (x y : List Char) :
    padded w n ++ x < padded w m ++ y :=
  append_lt (by rw [padded_length, padded_length]) (padded_lt h hm) x y

/-- Later days have later texts: the year decides, then the month, then the
    day. -/
theorem dateText_lt {d d' : Int} (hd : FourDigits d) (hd' : FourDigits d') (h : d < d') :
    dateText (civilOfDay d) < dateText (civilOfDay d') := by
  have hyear := civilOfDay_year_mono h.le
  have hrange := civilOfDay_range d
  have hrange' := civilOfDay_range d'
  have hlater := civilOfDay_lt h
  unfold FourDigits at hd hd'
  rw [dateText, dateText, yearText, yearText, if_pos hd, if_pos hd']
  -- The first part in which the dates differ decides, and all parts are padded.
  by_cases hsame : (civilOfDay d).year = (civilOfDay d').year
  · rw [hsame]
    refine append_lt_left _ (List.cons_lt_cons_iff.mpr (Or.inr ⟨rfl, ?_⟩))
    by_cases hmonth : (civilOfDay d).month = (civilOfDay d').month
    · rw [hmonth]
      exact append_lt_left _ (List.cons_lt_cons_iff.mpr
        (Or.inr ⟨rfl, padded_lt (by omega) (by omega)⟩))
    · exact padded_append_lt (by omega) (by omega) _ _
  · exact padded_append_lt (by omega) (by omega) _ _

example : toISOString (-1) = "1969-12-31T23:59:59.999Z".toList := by decide

example : toISOString 8640000000000000 = "+275760-09-13T00:00:00.000Z".toList := by decide

end Iso
