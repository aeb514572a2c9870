import Mathlib.Data.Rat.Floor

/-!
# Quantiles of a List

The element of a list below which a share of it lies.

A quantile for a share is an element of the list: at most the share of the list
is smaller than it, and more than the share is not larger. Nothing in this is
about the order in which the list is written, or about how the element is
found. There is at most one such element, and it does not get smaller when the
share grows.

Sorting finds it. In a sorted list the elements before an index are not larger
than the one at the index, and those after it are not smaller, so that the
element at the index which cuts off the share is the quantile. Equal elements
need no care: an element that is smaller is before the index, and so are all
of them.

## Main definitions

* `IsQuantile`: An element is the quantile of a list for a share.

## Theorems

* `IsQuantile.unique`: There is at most one quantile.
* `IsQuantile.mono`: A larger share has no smaller quantile.
* `IsQuantile.perm`: The order of the list does not matter.
* `countP_lt_getElem`, `lt_countP_le_getElem`: Where a sorted list is smaller.
* `floor_share_lt`: A share below the whole is cut off inside the list.
* `isQuantile_floor`: The element at the index that cuts off the share.
-/

namespace Quantiles

variable {α : Type} [LinearOrder α] {t t' : ℚ} {xs ys : List α} {x y : α}

/-- An element of the list with at most the share `t` of it below, and more
    than the share not above. -/
structure IsQuantile (t : ℚ) (xs : List α) (x : α) : Prop where
  mem : x ∈ xs
  smaller : (xs.countP (· < x) : ℚ) ≤ t * xs.length
  upTo : t * xs.length < (xs.countP (· ≤ x) : ℚ)

namespace IsQuantile

/-- A larger share has no smaller quantile: what is not above a smaller
    element is below the other one. -/
theorem mono (hx : IsQuantile t xs x) (hy : IsQuantile t' xs y) (h : t ≤ t') : x ≤ y := by
  by_contra hlt
  rw [not_le] at hlt
  have hcount : xs.countP (· ≤ y) ≤ xs.countP (· < x) := by
    refine List.countP_mono_left (fun z _ hz => ?_)
    rw [decide_eq_true_eq] at hz ⊢
    exact hz.trans_lt hlt
  have hcount' : (xs.countP (· ≤ y) : ℚ) ≤ (xs.countP (· < x) : ℚ) := by exact_mod_cast hcount
  have hshare : t * xs.length ≤ t' * xs.length :=
    mul_le_mul_of_nonneg_right h (Nat.cast_nonneg xs.length)
  exact absurd (hy.upTo.trans_le (hcount'.trans (hx.smaller.trans hshare))) (lt_irrefl _)

theorem unique (hx : IsQuantile t xs x) (hy : IsQuantile t xs y) : x = y :=
  le_antisymm (hx.mono hy le_rfl) (hy.mono hx le_rfl)

/-- The order of the list does not matter. -/
theorem perm (hx : IsQuantile t xs x) (h : xs.Perm ys) : IsQuantile t ys x := by
  refine ⟨h.mem_iff.mp hx.mem, ?_, ?_⟩
  · rw [← h.countP_eq, ← h.length_eq]
    exact hx.smaller
  · rw [← h.countP_eq, ← h.length_eq]
    exact hx.upTo

end IsQuantile

section Sorted

variable {i : Nat}

/-- What is smaller than an element of a sorted list is before it. -/
theorem countP_lt_getElem (hsorted : xs.Pairwise (· ≤ ·)) (hi : i < xs.length) :
    xs.countP (· < xs[i]) ≤ i := by
  -- No element from the index on is smaller.
  have hlate : (xs.drop i).countP (· < xs[i]) = 0 := by
    rw [List.countP_eq_zero]
    intro z hz
    rw [decide_eq_true_eq, not_lt]
    rw [List.drop_eq_getElem_cons hi] at hz
    rcases List.mem_cons.mp hz with rfl | hz
    · exact le_rfl
    · have htail := hsorted.sublist (List.drop_sublist i xs)
      rw [List.drop_eq_getElem_cons hi, List.pairwise_cons] at htail
      exact htail.1 z hz
  have hearly : (xs.take i).countP (· < xs[i]) ≤ i :=
    List.countP_le_length.trans (List.length_take_le i xs)
  have hsplit : xs.countP (· < xs[i])
      = (xs.take i).countP (· < xs[i]) + (xs.drop i).countP (· < xs[i]) := by
    rw [← List.countP_append, List.take_append_drop]
  omega

/-- An element of a sorted list is not smaller than what is before it, nor than
    itself. -/
theorem lt_countP_le_getElem (hsorted : xs.Pairwise (· ≤ ·)) (hi : i < xs.length) :
    i < xs.countP (· ≤ xs[i]) := by
  -- The elements up to the index are among those that are counted.
  have hearly : (xs.take (i + 1)).countP (· ≤ xs[i]) = i + 1 := by
    rw [List.countP_eq_length.mpr, List.length_take, Nat.min_eq_left (by omega)]
    intro z hz
    rw [decide_eq_true_eq]
    rw [List.take_succ_eq_append_getElem hi, List.mem_append, List.mem_singleton] at hz
    have hhead := hsorted.sublist (List.take_sublist (i + 1) xs)
    rw [List.take_succ_eq_append_getElem hi, List.pairwise_append] at hhead
    rcases hz with hz | rfl
    · exact hhead.2.2 z hz _ List.mem_cons_self
    · exact le_rfl
  have hsplit := (List.take_sublist (i + 1) xs).countP_le (p := (· ≤ xs[i]))
  omega

theorem isQuantile_getElem (hsorted : xs.Pairwise (· ≤ ·)) (hi : i < xs.length)
    (hfloor : (i : ℚ) ≤ t * xs.length) (hnext : t * xs.length < i + 1) :
    IsQuantile t xs xs[i] := by
  refine ⟨List.getElem_mem hi, ?_, ?_⟩
  · have hcount : (xs.countP (· < xs[i]) : ℚ) ≤ i := by
      exact_mod_cast countP_lt_getElem hsorted hi
    exact hcount.trans hfloor
  · have hcount : (i : ℚ) + 1 ≤ (xs.countP (· ≤ xs[i]) : ℚ) := by
      exact_mod_cast lt_countP_le_getElem hsorted hi
    exact hnext.trans_le hcount

/-- A share below the whole is cut off inside the list. -/
theorem floor_share_lt {n : Nat} (hn : 0 < n) (ht : t < 1) : ⌊t * n⌋₊ < n := by
  have hn' : (0 : ℚ) < n := Nat.cast_pos.mpr hn
  have hshare : t * n < n := by
    calc t * n < 1 * n := mul_lt_mul_of_pos_right ht hn'
      _ = n := one_mul _
  exact (Nat.floor_lt' hn.ne').mpr hshare

/-- The element at the index that cuts off the share is the quantile. -/
theorem isQuantile_floor (hsorted : xs.Pairwise (· ≤ ·)) (ht : 0 ≤ t)
    (hi : ⌊t * xs.length⌋₊ < xs.length) : IsQuantile t xs xs[⌊t * xs.length⌋₊] :=
  isQuantile_getElem hsorted hi (Nat.floor_le (mul_nonneg ht (Nat.cast_nonneg xs.length)))
    (Nat.lt_floor_add_one _)

end Sorted

end Quantiles
