import ClickScope.Zod.Value
import Mathlib.Data.Int.Log
import Mathlib.Tactic.FieldSimp
import Mathlib.Tactic.Linarith
import Mathlib.Tactic.Positivity

/-!
# Numbers as Texts

The text of a number, and the number of a text.

A number of the language is a double, and its text has as few digits as tell it
from the other doubles, the nearest of these if there are several. Reading
rounds what the digits say to the nearest double, so a text is read back as the
number it was written for, although the two rationals may differ.

Whatever layout a text has, it is digits, perhaps a fraction and perhaps an
exponent. The four layouts of the language are four ways to choose these parts
for the same digits, and reading is proved of the parts.

## Main definitions

* `toDouble`, `nearest`: The double that is nearest to a rational.
* `IsDouble`: The rationals that are doubles.
* `shortest`: The shortest digits that round to a number.
* `numberText`, `readNumber`: Writing and reading.

## Theorems

* `isDouble_int`: The integers up to 53 bits are doubles.
* `nearest_relative`: Rounding changes a number by a small share of it.
* `nearest_int`: A number that is very close to an integer is rounded to it.
* `shortest_int`: Every integer that is a double has shortest digits.
* `readNumber_numberText`: A number is read back from its text.
-/

namespace Json

open Zod

section Doubles

/-- The nearest integer, and of two the even one. -/
def halfEven (x : ℚ) : Int :=
  if x - ⌊x⌋ < 1 / 2 then ⌊x⌋
  else if 1 / 2 < x - ⌊x⌋ then ⌊x⌋ + 1
  else if ⌊x⌋ % 2 = 0 then ⌊x⌋ else ⌊x⌋ + 1

/-- The spacing of the doubles at a positive number, as a power of two. -/
def spacing (q : ℚ) : Int := max (Int.log 2 q - 52) (-1074)

/-- The nearest double to a number that is not negative. -/
def toDouble (q : ℚ) : JsNumber :=
  if (halfEven (q / 2 ^ spacing q) : ℚ) * 2 ^ spacing q < 2 ^ 1024 then
    .finite ((halfEven (q / 2 ^ spacing q) : ℚ) * 2 ^ spacing q)
  else .infinite false

/-- A rational that is a double. -/
def IsDouble (q : ℚ) : Prop := toDouble |q| = .finite |q|

instance (q : ℚ) : Decidable (IsDouble q) := inferInstanceAs (Decidable (_ = _))

theorem halfEven_int (n : Int) : halfEven (n : ℚ) = n := by
  unfold halfEven
  rw [Int.floor_intCast, sub_self, if_pos (by norm_num)]

theorem toDouble_zero : toDouble 0 = .finite 0 := by
  have hzero : halfEven 0 = 0 := halfEven_int 0
  unfold toDouble
  rw [zero_div, hzero, Int.cast_zero, zero_mul, if_pos (by positivity)]

/-- An integer in units of a spacing that divides it. -/
theorem scaled_int (n : Int) {s : Int} (hs : s ≤ 0) :
    (n : ℚ) / 2 ^ s = ((n * 2 ^ (-s).toNat : Int) : ℚ) := by
  have hpow : (2 : ℚ) ^ (-s).toNat = 2 ^ (-s) := by
    rw [← zpow_natCast, Int.toNat_of_nonneg (by omega)]
  rw [Int.cast_mul, Int.cast_pow, Int.cast_ofNat, hpow, zpow_neg, div_eq_mul_inv]

/-- An integer of at most 53 bits is a double: its spacing is at most one. -/
theorem isDouble_int {n : Int} (h : |n| < 2 ^ 53) : IsDouble n := by
  unfold IsDouble
  rw [← Int.cast_abs]
  have hq : ((|n| : Int) : ℚ) < 2 ^ 53 := by exact_mod_cast h
  have hspacing : spacing ((|n| : Int) : ℚ) ≤ 0 := by
    unfold spacing
    rcases (abs_nonneg n).eq_or_lt with hzero | hpos
    · rw [← hzero, Int.cast_zero, Int.log_zero_right]
      decide
    · have hpos' : (0 : ℚ) < ((|n| : Int) : ℚ) := by exact_mod_cast hpos
      have hlog := (Int.lt_zpow_iff_log_lt (b := 2) (by decide) (x := 53) hpos').mp
        (by exact_mod_cast hq)
      omega
  -- Scaled by its spacing the integer stays one, so that nothing is rounded.
  have hscaled := scaled_int |n| hspacing
  have hback : (halfEven (((|n| : Int) : ℚ) / 2 ^ spacing ((|n| : Int) : ℚ)) : ℚ)
      * 2 ^ spacing ((|n| : Int) : ℚ) = ((|n| : Int) : ℚ) := by
    rw [hscaled, halfEven_int, ← hscaled]
    exact div_mul_cancel₀ _ (zpow_ne_zero _ two_ne_zero)
  unfold toDouble
  have hbound : (2 : ℚ) ^ 53 < 2 ^ 1024 := pow_lt_pow_right₀ one_lt_two (by decide)
  rw [hback, if_pos (hq.trans hbound)]

/-- The value of the nearest double, if it is finite. -/
def nearest (q : ℚ) : ℚ := (halfEven (q / 2 ^ spacing q) : ℚ) * 2 ^ spacing q

theorem halfEven_near (x : ℚ) : |(halfEven x : ℚ) - x| ≤ 1 / 2 := by
  have hlo := Int.floor_le x
  have hhi := Int.lt_floor_add_one x
  rw [abs_le]
  unfold halfEven
  split_ifs with hbelow habove heven <;> push_cast <;> constructor <;> linarith

theorem halfEven_eq {x : ℚ} {n : Int} (h : |x - n| < 1 / 2) : halfEven x = n := by
  obtain ⟨hdown, hup⟩ := abs_le.mp (halfEven_near x)
  obtain ⟨hbelow, habove⟩ := abs_lt.mp h
  have hlo : (n : ℚ) < halfEven x + 1 := by linarith
  have hhi : (halfEven x : ℚ) < n + 1 := by linarith
  have hlo' : n < halfEven x + 1 := by exact_mod_cast hlo
  have hhi' : halfEven x < n + 1 := by exact_mod_cast hhi
  omega

/-- The nearest double is within half of a spacing. -/
theorem nearest_near (q : ℚ) : |nearest q - q| ≤ 2 ^ spacing q / 2 := by
  have hpos : (0 : ℚ) < 2 ^ spacing q := zpow_pos two_pos _
  have hscaled : nearest q - q
      = ((halfEven (q / 2 ^ spacing q) : ℚ) - q / 2 ^ spacing q) * 2 ^ spacing q := by
    rw [nearest, sub_mul, div_mul_cancel₀ _ hpos.ne']
  calc |nearest q - q|
      = |(halfEven (q / 2 ^ spacing q) : ℚ) - q / 2 ^ spacing q| * 2 ^ spacing q := by
        rw [hscaled, abs_mul, abs_of_pos hpos]
    _ ≤ 1 / 2 * 2 ^ spacing q := mul_le_mul_of_nonneg_right (halfEven_near _) hpos.le
    _ = 2 ^ spacing q / 2 := by ring

/-- The spacing at numbers that are not close to zero. -/
theorem spacing_eq {q : ℚ} (hq : 2 ^ (-1022 : Int) ≤ q) : spacing q = Int.log 2 q - 52 := by
  have hpos : 0 < q := lt_of_lt_of_le (zpow_pos two_pos _) hq
  have hlog := (Int.zpow_le_iff_le_log (b := 2) (by decide) (x := -1022) hpos).mp
    (by exact_mod_cast hq)
  unfold spacing
  omega

theorem normal_of_le {q : ℚ} (h : 1 / 128 ≤ q) : 2 ^ (-1022 : Int) ≤ q := by
  have hbound : (2 : ℚ) ^ (-1022 : Int) ≤ 2 ^ (-7 : Int) :=
    zpow_le_zpow_right₀ one_le_two (by decide)
  calc (2 : ℚ) ^ (-1022 : Int) ≤ 2 ^ (-7 : Int) := hbound
    _ = 1 / 128 := by norm_num
    _ ≤ q := h

/-- Rounding changes a number by a small share of it. -/
theorem nearest_relative {q : ℚ} (hq : 2 ^ (-1022 : Int) ≤ q) :
    |nearest q - q| ≤ q * 2 ^ (-53 : Int) := by
  have hpos : 0 < q := lt_of_lt_of_le (zpow_pos two_pos _) hq
  have hlog : (2 : ℚ) ^ Int.log 2 q ≤ q := by
    exact_mod_cast Int.zpow_log_le_self (b := 2) (by decide) hpos
  calc |nearest q - q| ≤ 2 ^ spacing q / 2 := nearest_near q
    _ = 2 ^ Int.log 2 q * 2 ^ (-53 : Int) := by
        rw [spacing_eq hq, ← zpow_add₀ two_ne_zero, div_eq_mul_inv, ← zpow_neg_one,
          ← zpow_add₀ two_ne_zero]
        congr 1
        omega
    _ ≤ q * 2 ^ (-53 : Int) := mul_le_mul_of_nonneg_right hlog (zpow_pos two_pos _).le

theorem toDouble_nearest {q : ℚ} (hq : 2 ^ (-1022 : Int) ≤ q) (hlt : q < 2 ^ 1023) :
    toDouble q = .finite (nearest q) := by
  have hpos : 0 < q := lt_of_lt_of_le (zpow_pos two_pos _) hq
  have hshare : q * 2 ^ (-53 : Int) ≤ q := by
    have hone : (2 : ℚ) ^ (-53 : Int) ≤ 1 := zpow_le_one_of_nonpos₀ one_le_two (by decide)
    calc q * 2 ^ (-53 : Int) ≤ q * 1 := mul_le_mul_of_nonneg_left hone hpos.le
      _ = q := mul_one q
  have hnear := (abs_le.mp ((nearest_relative hq).trans hshare)).2
  have hfinite : nearest q < 2 ^ 1024 := by
    calc nearest q ≤ 2 * q := by linarith
      _ < 2 * 2 ^ 1023 := mul_lt_mul_of_pos_left hlt two_pos
      _ = 2 ^ 1024 := (pow_succ' 2 1023).symm
  unfold toDouble
  exact if_pos hfinite

/-- A number that is very close to an integer is rounded to it. -/
theorem nearest_int {q : ℚ} {k : Int} (hpos : 0 < k) (hk : k < 2 ^ 53)
    (h : |q - k| < k * 2 ^ (-54 : Int)) : nearest q = k := by
  have hk' : (k : ℚ) < 2 ^ 53 := by exact_mod_cast hk
  have hone : (1 : ℚ) ≤ k := by exact_mod_cast hpos
  have hhalf : (k : ℚ) * 2 ^ (-54 : Int) < 1 / 2 := by
    norm_num at hk' ⊢
    linarith
  obtain ⟨hbelow, habove⟩ := abs_lt.mp (h.trans hhalf)
  have hq : 0 < q := by linarith
  -- The number is in the range of doubles that include all integers
  have hlo : -1 ≤ Int.log 2 q := by
    refine (Int.zpow_le_iff_le_log (b := 2) (by decide) hq).mp ?_
    norm_num
    linarith
  have hhi : Int.log 2 q < 53 := by
    refine (Int.lt_zpow_iff_log_lt (b := 2) (by decide) hq).mp ?_
    have : (k : ℚ) + 1 ≤ 2 ^ 53 := by exact_mod_cast hk
    norm_num at this ⊢
    linarith
  have hnormal : spacing q = Int.log 2 q - 52 := by
    unfold spacing
    omega
  -- and at most the next power of two.
  have hnext : (k : ℚ) ≤ 2 ^ (Int.log 2 q + 1) := by
    have hlt : q < 2 ^ (Int.log 2 q + 1) := by
      exact_mod_cast Int.lt_zpow_succ_log_self (b := 2) (by decide) q
    obtain ⟨e, he⟩ := Int.eq_ofNat_of_zero_le (show 0 ≤ Int.log 2 q + 1 by omega)
    rw [he, zpow_natCast] at hlt ⊢
    have hlt' : k < 2 ^ e + 1 := by
      have : (k : ℚ) < 2 ^ e + 1 := by linarith
      exact_mod_cast this
    exact_mod_cast (show k ≤ 2 ^ e by omega)
  have hspace : (0 : ℚ) < 2 ^ spacing q := zpow_pos two_pos _
  have hscaled := scaled_int k (s := spacing q) (by omega)
  have hround : halfEven (q / 2 ^ spacing q) = k * 2 ^ (-spacing q).toNat := by
    refine halfEven_eq ?_
    rw [← hscaled, ← sub_div, abs_div, abs_of_pos hspace, div_lt_iff₀ hspace]
    calc |q - k| < k * 2 ^ (-54 : Int) := h
      _ ≤ 2 ^ (Int.log 2 q + 1) * 2 ^ (-54 : Int) :=
          mul_le_mul_of_nonneg_right hnext (zpow_pos two_pos _).le
      _ = 1 / 2 * 2 ^ spacing q := by
          rw [hnormal, ← zpow_add₀ two_ne_zero, one_div, ← zpow_neg_one, ← zpow_add₀ two_ne_zero]
          congr 1
          omega
  rw [nearest, hround, ← hscaled, div_mul_cancel₀ _ hspace.ne']

end Doubles

section Digits

/-- A number is below ten to this power, and not below the next smaller one. -/
def magnitude (q : ℚ) : Int := Int.log 10 q + 1

/-- What digits before an exponent say. -/
def decimalValue (d : Nat × Int) : ℚ := d.1 * 10 ^ d.2

/-- The numbers of `k` digits next to a positive number, the nearer one first.
    The next one up can be a power of ten, whose digits end in zeros. -/
def neighbours (q : ℚ) (k : Nat) : List (Nat × Int) :=
  let e := magnitude q - k
  let below := ⌊q / 10 ^ e⌋.toNat
  let above := if below + 1 = 10 ^ k then (10 ^ (k - 1), e + 1) else (below + 1, e)
  if q / 10 ^ e - below ≤ 1 / 2 then [(below, e), above] else [above, (below, e)]

/-- The shortest digits that round to a positive double. There are always some
    of at most seventeen digits; the digits of an integer are some as well. -/
def shortest (q : ℚ) : Option (Nat × Int) :=
  ((List.range (max 17 (magnitude q).toNat)).flatMap (fun k => neighbours q (k + 1))).find?
    (fun d => toDouble (decimalValue d) = .finite q)

theorem shortest_value {q : ℚ} {d : Nat × Int} (h : shortest q = some d) :
    toDouble (decimalValue d) = .finite q := by
  unfold shortest at h
  have hfound := List.find?_some h
  rw [decide_eq_true_eq] at hfound
  exact hfound

/-- All digits of an integer stand for it exactly, so the search ends there if
    not before. -/
theorem shortest_int {n : Nat} (h : IsDouble n) : (shortest n).isSome = true := by
  have hlog : magnitude n = (Nat.log 10 n : Int) + 1 := by
    unfold magnitude
    rw [Int.log_natCast]
  have hvalue : toDouble (decimalValue (n, 0)) = .finite n := by
    unfold IsDouble at h
    rw [Nat.abs_cast] at h
    rw [decimalValue, zpow_zero, mul_one, h]
  -- The number itself is among the candidates, written with all of its digits.
  have hmem : ((n, 0) : Nat × Int) ∈ neighbours n (Nat.log 10 n + 1) := by
    have he : magnitude n - ((Nat.log 10 n + 1 : Nat) : Int) = 0 := by
      rw [hlog]
      omega
    simp only [neighbours, he, zpow_zero, div_one, Int.floor_natCast, Int.toNat_natCast, sub_self]
    rw [if_pos (by norm_num)]
    exact List.mem_cons_self
  rw [shortest, List.find?_isSome]
  refine ⟨(n, 0), List.mem_flatMap.mpr ⟨Nat.log 10 n, List.mem_range.mpr ?_, hmem⟩,
    decide_eq_true hvalue⟩
  rw [hlog]
  omega

end Digits

section Writing

/-- The parts of a text: the digits before the point, those after it, and the
    exponent. -/
structure Layout where
  whole : List Char
  fraction : List Char
  exponent : Int
deriving DecidableEq

/-- The four layouts of the language for digits before a power of ten. -/
def layout (ds : List Char) (e : Int) : Layout :=
  if 0 ≤ e ∧ ds.length + e ≤ 21 then ⟨ds ++ List.replicate e.toNat '0', [], 0⟩
  else if 0 < ds.length + e ∧ ds.length + e ≤ 21 then
    ⟨ds.take (ds.length + e).toNat, ds.drop (ds.length + e).toNat, 0⟩
  else if -6 < ds.length + e ∧ ds.length + e ≤ 0 then
    ⟨['0'], List.replicate (-(ds.length + e)).toNat '0' ++ ds, 0⟩
  else ⟨ds.take 1, ds.drop 1, ds.length + e - 1⟩

def fractionText (fs : List Char) : List Char := if fs = [] then [] else '.' :: fs

def exponentText (x : Int) : List Char :=
  if x = 0 then []
  else 'e' :: (if 0 ≤ x then '+' else '-') :: Nat.toDigits 10 x.natAbs

def Layout.text (l : Layout) : List Char :=
  l.whole ++ (fractionText l.fraction ++ exponentText l.exponent)

/-- The text of a positive double. -/
def unsignedText (q : ℚ) : List Char :=
  match shortest q with
  | some d => (layout (Nat.toDigits 10 d.1) d.2).text
  | none => []

/-- `String(q)` -/
def numberText (q : ℚ) : List Char :=
  if q = 0 then ['0'] else if 0 < q then unsignedText q else '-' :: unsignedText |q|

end Writing

section Reading

/-- The digits after a point, if there is one. -/
def readFraction : List Char → Option (List Char × List Char)
  | '.' :: s =>
      if s.takeWhile Char.isDigit = [] then none
      else some (s.takeWhile Char.isDigit, s.dropWhile Char.isDigit)
  | s => some ([], s)

/-- The digits of an exponent. -/
def readPower (s : List Char) : Option (Int × List Char) :=
  if s.takeWhile Char.isDigit = [] then none
  else some (Nat.ofDigitChars 10 (s.takeWhile Char.isDigit) 0, s.dropWhile Char.isDigit)

def readSigned : List Char → Option (Int × List Char)
  | '+' :: s => readPower s
  | '-' :: s => (readPower s).map (fun r => (-r.1, r.2))
  | s => readPower s

def readExponent : List Char → Option (Int × List Char)
  | [] => some (0, [])
  | c :: s => if c = 'e' ∨ c = 'E' then readSigned s else some (0, c :: s)

/-- The rational that a text without a sign begins with. No other digit follows
    a leading zero. -/
def readUnsigned (s : List Char) : Option (ℚ × List Char) :=
  let ds := s.takeWhile Char.isDigit
  if ds = [] ∨ (ds.head? = some '0' ∧ ds ≠ ['0']) then none
  else do
    let (fs, s) ← readFraction (s.dropWhile Char.isDigit)
    let (x, s) ← readExponent s
    pure ((Nat.ofDigitChars 10 (ds ++ fs) 0 : ℚ) * 10 ^ (x - fs.length), s)

/-- `-n` -/
def negate : JsNumber → JsNumber
  | .nan => .nan
  | .infinite negative => .infinite (!negative)
  | .finite q => .finite (-q)

/-- The number that a text begins with, rounded to a double. -/
def readNumber : List Char → Option (JsNumber × List Char)
  | '-' :: s => (readUnsigned s).map (fun r => (negate (toDouble r.1), r.2))
  | s => (readUnsigned s).map (fun r => (toDouble r.1, r.2))

end Reading

section Parts

/-- No text of a number goes on with what follows. -/
def Ends (rest : List Char) : Prop :=
  ∀ c ∈ rest.head?, c.isDigit = false ∧ c ≠ '.' ∧ c ≠ 'e' ∧ c ≠ 'E'

/-- The parts of a text that can be read back: digits, of which the whole ones
    are at least one and do not begin with a zero, unless it is the only one. -/
def Layout.Valid (l : Layout) : Prop :=
  (∀ c ∈ l.whole ++ l.fraction, c.isDigit = true) ∧ l.whole ≠ [] ∧
    (l.whole.head? = some '0' → l.whole = ['0'])

variable {ds rest : List Char}

theorem takeWhile_digits (hds : ∀ c ∈ ds, c.isDigit = true)
    (hrest : ∀ c ∈ rest.head?, c.isDigit = false) :
    (ds ++ rest).takeWhile Char.isDigit = ds ∧ (ds ++ rest).dropWhile Char.isDigit = rest := by
  rw [List.takeWhile_append_of_pos hds, List.dropWhile_append_of_pos hds]
  cases rest with
  | nil => exact ⟨List.append_nil ds, rfl⟩
  | cons c rest =>
      have hc : ¬ c.isDigit = true := Bool.not_eq_true _ ▸ hrest c rfl
      rw [List.takeWhile_cons_of_neg hc, List.dropWhile_cons_of_neg hc, List.append_nil]
      exact ⟨rfl, rfl⟩

theorem toDigits_digits (n : Nat) : ∀ c ∈ Nat.toDigits 10 n, c.isDigit = true :=
  fun _ hc => Nat.isDigit_of_mem_toDigits (by decide) (by decide) hc

theorem readPower_toDigits (n : Nat) (hrest : ∀ c ∈ rest.head?, c.isDigit = false) :
    readPower (Nat.toDigits 10 n ++ rest) = some ((n : Int), rest) := by
  have hsplit := takeWhile_digits (toDigits_digits n) hrest
  rw [readPower, hsplit.1, hsplit.2, if_neg Nat.toDigits_ne_nil, Nat.ofDigitChars_ten_toDigits]

theorem readExponent_exponentText (x : Int) (hrest : Ends rest) :
    readExponent (exponentText x ++ rest) = some (x, rest) := by
  have hdigit : ∀ c ∈ rest.head?, c.isDigit = false := fun c hc => (hrest c hc).1
  unfold exponentText
  by_cases hx : x = 0
  · rw [if_pos hx, List.nil_append, hx]
    cases rest with
    | nil => rfl
    | cons c rest =>
        have hc := hrest c rfl
        rw [readExponent, if_neg (not_or.mpr ⟨hc.2.2.1, hc.2.2.2⟩)]
  · rw [if_neg hx, List.cons_append, List.cons_append, readExponent, if_pos (Or.inl rfl)]
    by_cases hsign : 0 ≤ x
    · rw [if_pos hsign, readSigned, readPower_toDigits x.natAbs hdigit, Int.natAbs_of_nonneg hsign]
    · have hneg : -(x.natAbs : Int) = x := by omega
      rw [if_neg hsign, readSigned, readPower_toDigits x.natAbs hdigit, Option.map_some, hneg]

theorem readFraction_fractionText {fs : List Char} (hfs : ∀ c ∈ fs, c.isDigit = true)
    (hrest : ∀ c ∈ rest.head?, c.isDigit = false ∧ c ≠ '.') :
    readFraction (fractionText fs ++ rest) = some (fs, rest) := by
  unfold fractionText
  by_cases hnil : fs = []
  · rw [if_pos hnil, List.nil_append, hnil]
    cases rest with
    | nil => rfl
    | cons c rest =>
        rw [readFraction]
        rintro s heq
        exact (hrest c rfl).2 (List.cons.inj heq).1
  · have hsplit := takeWhile_digits hfs (fun c hc => (hrest c hc).1)
    rw [if_neg hnil, List.cons_append, readFraction, hsplit.1, hsplit.2, if_neg hnil]

/-- What follows the fraction begins with an exponent or as the rest does. -/
theorem head_exponentText (x : Int) (hrest : Ends rest) :
    ∀ c ∈ (exponentText x ++ rest).head?, c.isDigit = false ∧ c ≠ '.' := by
  unfold exponentText
  by_cases hx : x = 0
  · rw [if_pos hx, List.nil_append]
    exact fun c hc => ⟨(hrest c hc).1, (hrest c hc).2.1⟩
  · rw [if_neg hx]
    intro c hc
    rw [List.cons_append, List.head?_cons, Option.mem_some_iff] at hc
    rw [← hc]
    decide

theorem head_fractionText (fs : List Char) {s : List Char}
    (hs : ∀ c ∈ s.head?, c.isDigit = false) :
    ∀ c ∈ (fractionText fs ++ s).head?, c.isDigit = false := by
  unfold fractionText
  by_cases hnil : fs = []
  · rw [if_pos hnil, List.nil_append]
    exact hs
  · rw [if_neg hnil]
    intro c hc
    rw [List.cons_append, List.head?_cons, Option.mem_some_iff] at hc
    rw [← hc]
    decide

/-- The parts of a text are read back. -/
theorem readUnsigned_text {l : Layout} (hl : l.Valid) (hrest : Ends rest) :
    readUnsigned (l.text ++ rest) = some
      ((Nat.ofDigitChars 10 (l.whole ++ l.fraction) 0 : ℚ)
        * 10 ^ (l.exponent - l.fraction.length), rest) := by
  have hwhole : ∀ c ∈ l.whole, c.isDigit = true :=
    fun c hc => hl.1 c (List.mem_append_left _ hc)
  have hfraction : ∀ c ∈ l.fraction, c.isDigit = true :=
    fun c hc => hl.1 c (List.mem_append_right _ hc)
  have hexponent := head_exponentText l.exponent hrest
  have hsplit := takeWhile_digits hwhole
    (head_fractionText l.fraction (fun c hc => (hexponent c hc).1))
  -- A valid layout has digits before the point, and no leading zero.
  have hzero : ¬ (l.whole = [] ∨ l.whole.head? = some '0' ∧ l.whole ≠ ['0']) := by
    rintro (hnil | ⟨hhead, hne⟩)
    · exact hl.2.1 hnil
    · exact hne (hl.2.2 hhead)
  unfold Layout.text
  rw [List.append_assoc, List.append_assoc]
  simp only [readUnsigned, hsplit.1, hsplit.2, if_neg hzero,
    readFraction_fractionText hfraction hexponent, readExponent_exponentText l.exponent hrest,
    Option.bind_eq_bind, Option.bind_some, Option.pure_def]

/-- A positive number has no leading zero. -/
theorem toDigits_head {n : Nat} (h : 0 < n) : (Nat.toDigits 10 n).head? ≠ some '0' := by
  induction n using Nat.strong_induction_on with
  | _ n ih =>
      rw [Nat.toDigits_eq_if (by decide)]
      by_cases hsmall : n < 10
      · rw [if_pos hsmall, List.head?_cons]
        intro heq
        rw [Option.some.injEq] at heq
        have hdigit := congrArg Char.toNat heq
        rw [Nat.toNat_digitChar_of_lt_ten hsmall] at hdigit
        change _ = 48 at hdigit
        omega
      · -- The last digit is not the first one.
        have hhead := ih (n / 10) (by omega) (by omega)
        rw [if_neg hsmall, List.head?_append_of_ne_nil _ Nat.toDigits_ne_nil]
        exact hhead

theorem layout_valid (e : Int) (hds : ∀ c ∈ ds, c.isDigit = true) (hne : ds ≠ [])
    (hhead : ds.head? ≠ some '0') : (layout ds e).Valid := by
  have hzeros : ∀ n, ∀ c ∈ List.replicate n '0', c.isDigit = true := by
    intro n c hc
    rw [List.eq_of_mem_replicate hc]
    rfl
  have htake : ∀ n, 0 < n → ds.take n ≠ [] ∧ (ds.take n).head? = ds.head? := by
    intro n hn
    cases ds with
    | nil => exact absurd rfl hne
    | cons d ds =>
        rcases Nat.exists_eq_succ_of_ne_zero hn.ne' with ⟨m, rfl⟩
        rw [List.take_succ_cons]
        exact ⟨List.cons_ne_nil _ _, rfl⟩
  unfold layout
  split_ifs with h1 h2 h3
  · -- zeros after the digits, a point among them, zeros before them, and an exponent
    refine ⟨fun c hc => ?_, fun hnil => hne (List.append_eq_nil_iff.mp hnil).1, fun hzero => ?_⟩
    · rw [List.append_nil] at hc
      exact (List.mem_append.mp hc).elim (hds c) (hzeros _ c)
    · rw [List.head?_append_of_ne_nil _ hne] at hzero
      exact absurd hzero hhead
  · have hfirst := htake (ds.length + e).toNat (by omega)
    refine ⟨fun c hc => ?_, hfirst.1, fun hzero => absurd (hfirst.2 ▸ hzero) hhead⟩
    rw [List.take_append_drop] at hc
    exact hds c hc
  · refine ⟨fun c hc => ?_, List.cons_ne_nil _ _, fun _ => rfl⟩
    rcases List.mem_append.mp hc with hc | hc
    · rw [List.mem_singleton.mp hc]
      rfl
    · exact (List.mem_append.mp hc).elim (hzeros _ c) (hds c)
  · have hfirst := htake 1 Nat.one_pos
    refine ⟨fun c hc => ?_, hfirst.1, fun hzero => absurd (hfirst.2 ▸ hzero) hhead⟩
    rw [List.take_append_drop] at hc
    exact hds c hc

/-- Every layout says what the digits and the exponent do. -/
theorem layout_value (e : Int) (hne : ds ≠ []) :
    (Nat.ofDigitChars 10 ((layout ds e).whole ++ (layout ds e).fraction) 0 : ℚ)
        * 10 ^ ((layout ds e).exponent - (layout ds e).fraction.length)
      = Nat.ofDigitChars 10 ds 0 * 10 ^ e := by
  have hpos : 0 < ds.length := List.length_pos_of_ne_nil hne
  unfold layout
  split_ifs with h1 h2 h3
  · -- The zeros are the power of ten.
    rw [List.append_nil, Nat.ofDigitChars_append, Nat.ofDigitChars_replicate_zero]
    simp only [List.length_nil, Nat.cast_zero, sub_zero, zpow_zero, mul_one]
    rw [Nat.cast_mul, Nat.cast_pow, Nat.cast_ofNat, mul_comm, ← zpow_natCast,
      Int.toNat_of_nonneg h1.1]
  · have hlen : (0 : Int) - ((ds.drop (ds.length + e).toNat).length : Int) = e := by
      rw [List.length_drop]
      omega
    simp only [List.take_append_drop, hlen]
  · have hlen : (0 : Int) - ((List.replicate (-(ds.length + e)).toNat '0' ++ ds).length : Int)
        = e := by
      rw [List.length_append, List.length_replicate]
      omega
    have hdigits : Nat.ofDigitChars 10
        (['0'] ++ (List.replicate (-(ds.length + e)).toNat '0' ++ ds)) 0
        = Nat.ofDigitChars 10 ds 0 := by
      rw [Nat.ofDigitChars_append, Nat.ofDigitChars_append]
      change Nat.ofDigitChars 10 ds
        (Nat.ofDigitChars 10 (List.replicate (-(ds.length + e)).toNat '0') 0) = _
      rw [Nat.ofDigitChars_replicate_zero, Nat.mul_zero]
    simp only [hdigits, hlen]
  · have hlen : ds.length + e - 1 - ((ds.drop 1).length : Int) = e := by
      rw [List.length_drop]
      omega
    simp only [List.take_append_drop, hlen]

end Parts

section RoundTrip

/-- A rational that has a text. -/
def HasText (q : ℚ) : Prop := q ≠ 0 → (shortest |q|).isSome = true

theorem hasText_int {n : Int} (h : IsDouble n) : HasText n := by
  intro _
  have habs : |(n : ℚ)| = ((n.natAbs : Nat) : ℚ) := by
    rw [← Int.cast_abs, Int.abs_eq_natAbs, Int.cast_natCast]
  have hdouble : IsDouble ((n.natAbs : Nat) : ℚ) := by
    unfold IsDouble at h ⊢
    rw [← habs, abs_abs]
    exact h
  rw [habs]
  exact shortest_int hdouble

variable {q : ℚ} {rest : List Char}

/-- The shortest digits of a number other than zero have a layout. -/
theorem shortest_valid {d : Nat × Int} (hd : shortest q = some d) (hq : q ≠ 0) :
    (layout (Nat.toDigits 10 d.1) d.2).Valid := by
  refine layout_valid d.2 (toDigits_digits d.1) Nat.toDigits_ne_nil (toDigits_head ?_)
  rcases Nat.eq_zero_or_pos d.1 with hzero | hpos
  · have hvalue := shortest_value hd
    rw [decimalValue, hzero, Nat.cast_zero, zero_mul, toDouble_zero,
      JsNumber.finite.injEq] at hvalue
    exact absurd hvalue.symm hq
  · exact hpos

theorem unsignedText_some {d : Nat × Int} (hd : shortest q = some d) :
    unsignedText q = (layout (Nat.toDigits 10 d.1) d.2).text := by
  simp only [unsignedText, hd]

theorem readUnsigned_unsignedText {d : Nat × Int} (hd : shortest q = some d) (hq : q ≠ 0)
    (hrest : Ends rest) : readUnsigned (unsignedText q ++ rest) = some (decimalValue d, rest) := by
  have hread := readUnsigned_text (shortest_valid hd hq) hrest
  rw [layout_value d.2 Nat.toDigits_ne_nil, Nat.ofDigitChars_ten_toDigits] at hread
  rw [unsignedText_some hd]
  exact hread

theorem unsignedText_start {d : Nat × Int} (hd : shortest q = some d) (hq : q ≠ 0) :
    ∃ c s, unsignedText q = c :: s ∧ c.isDigit = true := by
  have hvalid := shortest_valid hd hq
  rw [unsignedText_some hd]
  rcases hwhole : (layout (Nat.toDigits 10 d.1) d.2).whole with _ | ⟨c, ds⟩
  · exact absurd hwhole hvalid.2.1
  · have hdigit := hvalid.1 c (List.mem_append_left _ (hwhole ▸ List.mem_cons_self))
    rw [Layout.text, hwhole, List.cons_append]
    exact ⟨c, _, rfl, hdigit⟩

/-- A text begins with a digit, or with the sign. -/
theorem numberText_start (hq : HasText q) :
    ∃ c s, numberText q = c :: s ∧ (c.isDigit = true ∨ c = '-') := by
  unfold numberText
  by_cases hzero : q = 0
  · rw [if_pos hzero]
    exact ⟨'0', [], rfl, Or.inl rfl⟩
  · rw [if_neg hzero]
    by_cases hpos : 0 < q
    · rcases Option.isSome_iff_exists.mp (hq hzero) with ⟨d, hd⟩
      rw [abs_of_pos hpos] at hd
      rcases unsignedText_start hd hzero with ⟨c, s, htext, hdigit⟩
      rw [if_pos hpos, htext]
      exact ⟨c, s, rfl, Or.inl hdigit⟩
    · rw [if_neg hpos]
      exact ⟨'-', _, rfl, Or.inr rfl⟩

/-- A number is read back from its text. -/
theorem readNumber_numberText (hq : HasText q) (hrest : Ends rest) :
    readNumber (numberText q ++ rest) = some (.finite q, rest) := by
  unfold numberText
  by_cases hzero : q = 0
  · have hvalid : Layout.Valid ⟨['0'], [], 0⟩ :=
      ⟨List.all_eq_true.mp rfl, List.cons_ne_nil _ _, fun _ => rfl⟩
    have hread := readUnsigned_text hvalid hrest
    have hvalue : (Nat.ofDigitChars 10 (['0'] ++ []) 0 : ℚ) *
          10 ^ (0 - ([] : List Char).length : Int)
        = 0 := by
      change ((0 : Nat) : ℚ) * _ = 0
      rw [Nat.cast_zero, zero_mul]
    change readUnsigned (['0'] ++ rest) = _ at hread
    rw [if_pos hzero, hzero, readNumber, hread, hvalue, Option.map_some, toDouble_zero]
    intro s hs
    exact absurd (List.cons.inj hs).1 (by decide)
  · rcases Option.isSome_iff_exists.mp (hq hzero) with ⟨d, hd⟩
    have hvalue := shortest_value hd
    have hread := readUnsigned_unsignedText hd (abs_ne_zero.mpr hzero) hrest
    rw [if_neg hzero]
    by_cases hpos : 0 < q
    · rcases unsignedText_start hd (abs_ne_zero.mpr hzero) with ⟨c, s, htext, hdigit⟩
      rw [abs_of_pos hpos] at hread hvalue htext
      rw [if_pos hpos, readNumber, hread, Option.map_some, hvalue]
      -- Its first character is a digit, so the text has no sign.
      intro s' hs
      rw [htext, List.cons_append, List.cons.injEq] at hs
      rw [hs.1] at hdigit
      exact absurd hdigit (by decide)
    · have hneg : |q| = -q := abs_of_nonpos (not_lt.mp hpos)
      rw [if_neg hpos, List.cons_append, readNumber, hread, Option.map_some, hvalue, negate, hneg,
        neg_neg]

end RoundTrip

end Json
