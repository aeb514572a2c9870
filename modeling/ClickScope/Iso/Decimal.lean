import Mathlib.Data.Nat.Basic
import Mathlib.Tactic.Ring

/-!
# Decimals of a Fixed Width

Numbers with leading zeros, as dates have them.

The digits are written from the left, so that the order of two texts of one
width, which is lexicographic, is the order of their numbers.

## Main definitions

* `padded`: The last digits of a number.
* `readNumber`, `expect`: Reading a number or a mark off a text.

## Theorems

* `readNumber_padded`: A number that fits its width is read back.
* `padded_lt`: The texts are in the order of the numbers.
-/

namespace Iso

/-- The last `w` decimal digits of a number. -/
def padded : Nat → Nat → List Char
  | 0, _ => []
  | w + 1, n => Nat.digitChar (n / 10 ^ w % 10) :: padded w n

/-- Read a number of `w` digits off the front of a text. -/
def readNumber (w : Nat) (s : List Char) : Option (Nat × List Char) :=
  if w ≤ s.length ∧ (s.take w).all Char.isDigit then
    some (Nat.ofDigitChars 10 (s.take w) 0, s.drop w)
  else none

/-- Read a mark off the front of a text. -/
def expect (c : Char) : List Char → Option (List Char)
  | [] => none
  | x :: s => if x = c then some s else none

@[simp] theorem expect_self (c : Char) (s : List Char) : expect c (c :: s) = some s := if_pos rfl

@[simp] theorem padded_length (w n : Nat) : (padded w n).length = w := by
  induction w with
  | zero => rfl
  | succ w ih => rw [padded, List.length_cons, ih]

theorem padded_digits (w n : Nat) : (padded w n).all Char.isDigit = true := by
  induction w with
  | zero => rfl
  | succ w ih =>
      have hdigit : n / 10 ^ w % 10 < 10 := Nat.mod_lt _ (by decide)
      rw [padded, List.all_cons, ih, Bool.and_true]
      simp only [Nat.isDigit_digitChar, hdigit, decide_true]

/-- The digits are those of the number modulo the next power of ten. -/
theorem ofDigitChars_padded (w n : Nat) : Nat.ofDigitChars 10 (padded w n) 0 = n % 10 ^ w := by
  induction w with
  | zero => rw [padded, Nat.ofDigitChars_nil, Nat.pow_zero, Nat.mod_one]
  | succ w ih =>
      have hdigit : n / 10 ^ w % 10 < 10 := Nat.mod_lt _ (by decide)
      rw [padded, Nat.ofDigitChars_cons_digitChar_of_lt_ten hdigit, Nat.mul_zero, Nat.zero_add,
        Nat.ofDigitChars_eq_ofDigitChars_zero, padded_length, ih]
      rw [Nat.pow_succ, Nat.mod_mul, Nat.add_comm]

theorem readNumber_padded {w n : Nat} (h : n < 10 ^ w) (s : List Char) :
    readNumber w (padded w n ++ s) = some (n, s) := by
  have htake : (padded w n ++ s).take w = padded w n := by
    rw [List.take_append_of_le_length (padded_length w n).ge, List.take_of_length_le
      (padded_length w n).le]
  have hdrop : (padded w n ++ s).drop w = s := by
    rw [List.drop_append_of_le_length (padded_length w n).ge, List.drop_of_length_le
      (padded_length w n).le, List.nil_append]
  have hlen : w ≤ (padded w n ++ s).length := by
    rw [List.length_append, padded_length]
    omega
  rw [readNumber, htake, hdrop, if_pos ⟨hlen, padded_digits w n⟩, ofDigitChars_padded,
    Nat.mod_eq_of_lt h]

/-- The digits are in the order of their characters. -/
theorem digitChar_lt {n m : Nat} (h : n < m) (hm : m < 10) : n.digitChar < m.digitChar := by
  rw [Char.lt_def, UInt32.lt_iff_toNat_lt]
  change n.digitChar.toNat < m.digitChar.toNat
  rw [Nat.toNat_digitChar_of_lt_ten (by omega), Nat.toNat_digitChar_of_lt_ten hm]
  omega

/-- The texts of two numbers are in the order of what the width has of them. The
    first digits decide, unless they are the same. -/
theorem padded_mod_lt {w n m : Nat} (h : n % 10 ^ w < m % 10 ^ w) : padded w n < padded w m := by
  induction w with
  | zero =>
      rw [Nat.pow_zero, Nat.mod_one, Nat.mod_one] at h
      exact absurd h (Nat.lt_irrefl 0)
  | succ w ih =>
      have hn : n / 10 ^ w % 10 < 10 := Nat.mod_lt _ (by decide)
      have hm : m / 10 ^ w % 10 < 10 := Nat.mod_lt _ (by decide)
      rw [Nat.pow_succ, Nat.mod_mul, Nat.mod_mul] at h
      rw [padded, padded]
      -- The leading digits decide unless they are the same.
      rcases Nat.lt_trichotomy (n / 10 ^ w % 10) (m / 10 ^ w % 10) with hlt | heq | hgt
      · exact List.Lex.rel (digitChar_lt hlt hm)
      · rw [heq]
        refine List.Lex.cons (ih ?_)
        rw [heq] at h
        omega
      · have hlt : n % 10 ^ w < 10 ^ w := Nat.mod_lt _ (Nat.pow_pos (by decide))
        have hlt' : m % 10 ^ w < 10 ^ w := Nat.mod_lt _ (Nat.pow_pos (by decide))
        have hmul : 10 ^ w * (m / 10 ^ w % 10) + 10 ^ w ≤ 10 ^ w * (n / 10 ^ w % 10) := by
          rw [← Nat.mul_succ]
          exact Nat.mul_le_mul_left _ hgt
        omega

theorem padded_lt {w n m : Nat} (h : n < m) (hm : m < 10 ^ w) : padded w n < padded w m := by
  refine padded_mod_lt ?_
  rw [Nat.mod_eq_of_lt hm, Nat.mod_eq_of_lt (h.trans hm)]
  exact h

end Iso
