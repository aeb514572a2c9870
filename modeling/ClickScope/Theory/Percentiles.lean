import ClickScope.Core.LogPercentiles
import ClickScope.Order.Quantile

/-!
# Percentiles of the Durations

What the script reports of a group of durations.

The comparator orders finite numbers as they are, so the copy is the sorted
list of the durations. The index that is read cuts off a share of its length,
and the quantile of that share stands there. A quantile depends on the
durations and not on their order, and so does the report; the array that holds
them is one of those that were there, and stays what it is.

Two operations round the index where the script runs. The shares are so close
to their doubles that a product which is an integer exactly is rounded to it,
and all others are a hundredth or more from the integers. So the index is what
it is exactly, up to the length of the longest array.

## Main definitions

* `reportOf`: What is reported of sorted durations.
* `Reports`: A report has the quantiles of the durations.

## Theorems

* `run_computePercentiles`: The durations are copied, and the copy is sorted.
* `pickIndex_inside`: The index is inside of the array.
* `Reports.unique`: The order of the durations does not matter.
* `pickIndex_nearest`: Doubles do not change the index.
* `percentiles_are_quantiles`: The report on some durations.
-/

namespace ClickScope

open Zod Arrays Quantiles Json

variable {h : Heap JsNumber} {durations : Ref} {qs : List ℚ}

section Sorting

/-- The comparator of finite numbers is their order. -/
theorem subtract_finite (a b : ℚ) :
    isPositive (subtract (.finite a) (.finite b)) = false ↔ a ≤ b := by
  rw [subtract, isPositive, decide_eq_false_iff_not, not_lt, sub_nonpos]

theorem sorted_finite (qs : List ℚ) :
    (qs.map JsNumber.finite).insertionSort (fun a b => isPositive (subtract a b) = false)
      = (qs.insertionSort (· ≤ ·)).map JsNumber.finite :=
  (List.map_insertionSort _ _ JsNumber.finite qs
    (fun a _ b _ => (subtract_finite a b).symm)).symm

/-- What is reported of sorted durations. -/
def reportOf (fl : Rounding) (sorted : List JsNumber) : Percentiles where
  count := sorted.length
  p50 := elementAt sorted (pickIndex fl 50 sorted.length)
  p95 := elementAt sorted (pickIndex fl 95 sorted.length)
  p99 := elementAt sorted (pickIndex fl 99 sorted.length)

/-- Without durations there is nothing to sort. -/
theorem run_empty (fl : Rounding) (hmem : h[durations]? = some []) :
    (computePercentiles fl durations).run h
      = ({ count := 0, p50 := some (.finite 0), p95 := some (.finite 0),
           p99 := some (.finite 0) }, h) := by
  rw [computePercentiles, run_then (run_elements hmem)]
  rfl

/-- The durations are copied, and the copy is sorted. -/
theorem run_computePercentiles (fl : Rounding) (hmem : h[durations]? = some (qs.map .finite))
    (hne : qs ≠ []) :
    (computePercentiles fl durations).run h
      = (reportOf fl ((qs.insertionSort (· ≤ ·)).map .finite),
          h ++ [(qs.insertionSort (· ≤ ·)).map .finite]) := by
  have hlength : (qs.map JsNumber.finite).length ≠ 0 := by
    rw [List.length_map]
    exact fun hzero => hne (List.length_eq_zero_iff.mp hzero)
  -- The copy is the last array, and sorting writes to no other.
  have hcopy := getElem?_newArray h (qs.map JsNumber.finite)
  have hset : (h ++ [qs.map JsNumber.finite]).set h.length
      ((qs.insertionSort (· ≤ ·)).map .finite) = h ++ [(qs.insertionSort (· ≤ ·)).map .finite] := by
    rw [List.set_append_right _ _ (le_refl _), Nat.sub_self, List.set_cons_zero]
  have hsort : (sortNumbers h.length).run (h ++ [qs.map JsNumber.finite])
      = ((), h ++ [(qs.insertionSort (· ≤ ·)).map .finite]) := by
    rw [sortNumbers, run_sort _ hcopy, sorted_finite, hset]
  have hsorted : (elements h.length).run (h ++ [(qs.insertionSort (· ≤ ·)).map JsNumber.finite])
      = ((qs.insertionSort (· ≤ ·)).map .finite, h ++ [(qs.insertionSort (· ≤ ·)).map .finite]) :=
    run_elements (getElem?_newArray h _)
  rw [computePercentiles, run_then (run_elements hmem), if_neg hlength,
    run_then (run_elements hmem), run_then (run_newArray _ h), run_then hsort, run_then hsorted]
  rfl

end Sorting

section Selection

variable {p n : Nat}

theorem share_lt_one (hp : p < 100) : (p : ℚ) / 100 < 1 := by
  rw [div_lt_one (by norm_num)]
  exact_mod_cast hp

/-- The index that is read cuts off the share, and the bound by the last index
    changes nothing. -/
theorem pickIndex_unrounded (hp : p < 100) (hn : 0 < n) :
    pickIndex unrounded p n = ((⌊(p : ℚ) / 100 * n⌋₊ : Nat) : Int) := by
  have hlt := floor_share_lt hn (share_lt_one hp)
  have hfloor : ⌊(p : ℚ) / 100 * n⌋ = ((⌊(p : ℚ) / 100 * n⌋₊ : Nat) : Int) :=
    (Int.natCast_floor_eq_floor (by positivity)).symm
  unfold pickIndex unrounded
  rw [hfloor]
  omega

theorem pickIndex_inside (hp : p < 100) (hn : 0 < n) :
    0 ≤ pickIndex unrounded p n ∧ pickIndex unrounded p n < n := by
  have hlt := floor_share_lt hn (share_lt_one hp)
  rw [pickIndex_unrounded hp hn]
  omega

/-- What is read of the sorted durations is the quantile of the durations. -/
theorem picked (hp : p < 100) (hne : qs ≠ []) :
    ∃ x, elementAt ((qs.insertionSort (· ≤ ·)).map .finite)
        (pickIndex unrounded p ((qs.insertionSort (· ≤ ·)).map JsNumber.finite).length)
          = some (.finite x) ∧ IsQuantile ((p : ℚ) / 100) qs x := by
  have hperm := List.perm_insertionSort (· ≤ ·) qs
  have hpos : 0 < (qs.insertionSort (· ≤ ·)).length := by
    rw [hperm.length_eq]
    exact List.length_pos_of_ne_nil hne
  have hi := floor_share_lt hpos (share_lt_one hp)
  -- The quantile of the sorted durations is the one of the durations as they were.
  refine ⟨_, ?_, (isQuantile_floor (List.pairwise_insertionSort (· ≤ ·) qs) (by positivity)
    hi).perm hperm⟩
  rw [List.length_map, pickIndex_unrounded hp hpos, elementAt, if_pos (Int.natCast_nonneg _),
    Int.toNat_natCast, List.getElem?_map, List.getElem?_eq_getElem hi, Option.map_some]

/-- A report of how many durations there are, and of three of their quantiles. -/
def Reports (qs : List ℚ) (r : Percentiles) : Prop :=
  ∃ x50 x95 x99,
    r = { count := qs.length, p50 := some (.finite x50), p95 := some (.finite x95),
          p99 := some (.finite x99) } ∧
    IsQuantile (50 / 100) qs x50 ∧ IsQuantile (95 / 100) qs x95 ∧ IsQuantile (99 / 100) qs x99

theorem reportOf_reports (hne : qs ≠ []) :
    Reports qs (reportOf unrounded ((qs.insertionSort (· ≤ ·)).map .finite)) := by
  rcases picked (p := 50) (by decide) hne with ⟨x50, h50, hq50⟩
  rcases picked (p := 95) (by decide) hne with ⟨x95, h95, hq95⟩
  rcases picked (p := 99) (by decide) hne with ⟨x99, h99, hq99⟩
  refine ⟨x50, x95, x99, ?_, hq50, hq95, hq99⟩
  rw [reportOf, h50, h95, h99, List.length_map, List.length_insertionSort]

/-- Durations in any other order have the same report. -/
theorem Reports.unique {qs' : List ℚ} {r r' : Percentiles} (hr : Reports qs r)
    (hr' : Reports qs' r') (hperm : qs.Perm qs') : r = r' := by
  rcases hr with ⟨x50, x95, x99, rfl, hx50, hx95, hx99⟩
  rcases hr' with ⟨y50, y95, y99, rfl, hy50, hy95, hy99⟩
  rw [(hx50.perm hperm).unique hy50, (hx95.perm hperm).unique hy95,
    (hx99.perm hperm).unique hy99, hperm.length_eq]

end Selection

section Doubles

variable {p n : Nat}

/-- The shares are closer to their doubles than doubles have to be. -/
theorem nearest_share (hp : p ∈ [50, 95, 99]) :
    |nearest ((p : ℚ) / 100) - (p : ℚ) / 100| < (p : ℚ) / 100 * 2 ^ (-54 : Int) := by
  simp only [List.mem_cons, List.not_mem_nil, or_false] at hp
  rcases hp with rfl | rfl | rfl
  · decide +kernel
  · decide +kernel
  · decide +kernel

/-- The product with the length is as close, in proportion. -/
theorem rounded_product (hp : p ∈ [50, 95, 99]) (hn : 0 < n) :
    |nearest ((p : ℚ) / 100) * n - (p : ℚ) / 100 * n| < (p : ℚ) / 100 * n * 2 ^ (-54 : Int) := by
  have hn' : (0 : ℚ) < n := Nat.cast_pos.mpr hn
  rw [← sub_mul, abs_mul, abs_of_pos hn', mul_right_comm]
  exact mul_lt_mul_of_pos_right (nearest_share hp) hn'

/-- A product that is not close to an integer is not rounded across one. -/
theorem floor_nearest_between {x y : ℚ} {k : Nat} (hnear : |y - x| < x * 2 ^ (-54 : Int))
    (hx : x < 2 ^ 32) (hlo : (k : ℚ) + 1 / 100 ≤ x) (hhi : x ≤ (k : ℚ) + 99 / 100) :
    ⌊nearest y⌋ = (k : Int) := by
  have hk : (0 : ℚ) ≤ k := Nat.cast_nonneg k
  -- The product and its rounding are each off by less than a thousandth.
  have hsmall : x * 2 ^ (-54 : Int) < 1 / 1000 := by
    norm_num at hx ⊢
    linarith
  obtain ⟨hdown, hup⟩ := abs_lt.mp (hnear.trans hsmall)
  have hnormal := normal_of_le (q := y) (by linarith)
  have hrounded : y * 2 ^ (-53 : Int) < 1 / 1000 := by
    norm_num at hx ⊢
    linarith
  obtain ⟨hdown', hup'⟩ := abs_lt.mp ((nearest_relative hnormal).trans_lt hrounded)
  rw [Int.floor_eq_iff, Int.cast_natCast]
  constructor <;> linarith

/-- The rounded product has the integer part of the exact one. -/
theorem floor_nearest_product (hp : p ∈ [50, 95, 99]) (hn : 0 < n) (hlt : n < 2 ^ 32) :
    ⌊nearest (nearest ((p : ℚ) / 100) * n)⌋ = ⌊(p : ℚ) / 100 * n⌋ := by
  have hproduct := rounded_product hp hn
  have hp' : 0 < p ∧ p < 100 := by
    simp only [List.mem_cons, List.not_mem_nil, or_false] at hp
    omega
  have hpos : 0 < p * n := Nat.mul_pos hp'.1 hn
  have hle : p * n ≤ 100 * n := Nat.mul_le_mul_right n hp'.2.le
  have hsplit : (p : ℚ) / 100 * n
      = ((p * n / 100 : Nat) : ℚ) + ((p * n % 100 : Nat) : ℚ) / 100 := by
    have hdiv : ((100 * (p * n / 100) + p * n % 100 : Nat) : ℚ) = ((p * n : Nat) : ℚ) := by
      rw [Nat.div_add_mod]
    push_cast at hdiv
    linarith
  have hupper : (p : ℚ) / 100 * n < 2 ^ 32 := by
    have hle' : (p : ℚ) * n ≤ 100 * n := by exact_mod_cast hle
    have hlt' : (n : ℚ) < 2 ^ 32 := by exact_mod_cast hlt
    linarith
  have hr : p * n % 100 < 100 := Nat.mod_lt _ (by decide)
  rcases Nat.eq_zero_or_pos (p * n % 100) with hzero | hrest
  · -- The share is an integer, and its double is rounded to it.
    rw [hzero, Nat.cast_zero, zero_div, add_zero] at hsplit
    rw [hsplit] at hproduct ⊢
    have hint : nearest (nearest ((p : ℚ) / 100) * n) = ((p * n / 100 : Nat) : Int) := by
      refine nearest_int (k := ((p * n / 100 : Nat) : Int)) (by omega) (by omega) ?_
      rw [Int.cast_natCast]
      exact hproduct
    rw [hint, Int.floor_intCast, Int.floor_natCast]
  · -- The share is a hundredth or more from the integers.
    have hlo : (1 : ℚ) ≤ ((p * n % 100 : Nat) : ℚ) := by exact_mod_cast hrest
    have hhi : ((p * n % 100 : Nat) : ℚ) ≤ 99 := by exact_mod_cast Nat.le_of_lt_succ hr
    rw [floor_nearest_between hproduct hupper (k := p * n / 100) (by linarith) (by linarith)]
    symm
    rw [Int.floor_eq_iff, Int.cast_natCast]
    constructor <;> linarith

/-- The index is the same in doubles as it is exactly, for every length that an
    array of the language can have. -/
theorem pickIndex_nearest (hp : p ∈ [50, 95, 99]) (hn : 0 < n) (hlt : n < 2 ^ 32) :
    pickIndex nearest p n = pickIndex unrounded p n := by
  rw [pickIndex, floor_nearest_product hp hn hlt]
  rfl

/-- Neither operation leaves the finite doubles, so that `nearest` is what it
    gives. -/
theorem index_doubles (hp : p ∈ [50, 95, 99]) (hn : 0 < n) (hlt : n < 2 ^ 32) :
    toDouble ((p : ℚ) / 100) = .finite (nearest ((p : ℚ) / 100)) ∧
      toDouble (nearest ((p : ℚ) / 100) * n)
        = .finite (nearest (nearest ((p : ℚ) / 100) * n)) := by
  have hshare : 1 / 2 ≤ (p : ℚ) / 100 ∧ (p : ℚ) / 100 ≤ 1 := by
    simp only [List.mem_cons, List.not_mem_nil, or_false] at hp
    rcases hp with rfl | rfl | rfl <;> norm_num
  have hn' : (1 : ℚ) ≤ n := by exact_mod_cast hn
  have hlt' : (n : ℚ) < 2 ^ 32 := by exact_mod_cast hlt
  have hlo := mul_le_mul hshare.1 hn' one_pos.le (by linarith)
  have hhi := mul_le_mul hshare.2 hlt'.le (by linarith) one_pos.le
  -- The rounded product is within the exact one of it.
  have herror : (p : ℚ) / 100 * n * 2 ^ (-54 : Int) < (p : ℚ) / 100 * n / 2 := by
    norm_num
    linarith
  obtain ⟨hdown, hup⟩ := abs_lt.mp ((rounded_product hp hn).trans herror)
  have hlow : 1 / 128 ≤ nearest ((p : ℚ) / 100) * n := by linarith
  have hhigh : nearest ((p : ℚ) / 100) * n < 2 ^ 34 := by linarith
  have hlarge : (2 : ℚ) ^ 34 < 2 ^ 1023 := pow_lt_pow_right₀ one_lt_two (by decide)
  have hone : (1 : ℚ) < 2 ^ 1023 := one_lt_pow₀ one_lt_two (by decide)
  exact ⟨toDouble_nearest (normal_of_le (le_trans (by norm_num) hshare.1)) (hshare.2.trans_lt hone),
    toDouble_nearest (normal_of_le hlow) (hhigh.trans hlarge)⟩

/-- What the script reports with doubles is what it reports with exact index
    arithmetic. -/
theorem computePercentiles_nearest (hmem : h[durations]? = some (qs.map .finite))
    (hlt : qs.length < 2 ^ 32) :
    (computePercentiles nearest durations).run h
      = (computePercentiles unrounded durations).run h := by
  by_cases hne : qs = []
  · rw [hne] at hmem
    rw [run_empty nearest hmem, run_empty unrounded hmem]
  · have hpos : 0 < qs.length := List.length_pos_of_ne_nil hne
    -- The two runs differ in nothing but the indices.
    have hindex : ∀ p ∈ [50, 95, 99],
        pickIndex nearest p qs.length = pickIndex unrounded p qs.length :=
      fun p hp => pickIndex_nearest hp hpos hlt
    rw [run_computePercentiles nearest hmem hne, run_computePercentiles unrounded hmem hne]
    simp only [reportOf, List.length_map, List.length_insertionSort, hindex 50 (by decide),
      hindex 95 (by decide), hindex 99 (by decide)]

end Doubles

/-- The report on durations that are finite numbers and at least one, with exact
    index arithmetic. Its percentiles are the quantiles of the durations, so
    they do not get smaller from one to the next; the index is inside of the
    array; durations in any other order, in any array of any heap, have the same
    report; and no array that was there is changed. -/
theorem percentiles_are_quantiles (hmem : h[durations]? = some (qs.map .finite)) (hne : qs ≠ []) :
    ∃ x50 x95 x99 h',
      (computePercentiles unrounded durations).run h
          = ({ count := qs.length, p50 := some (.finite x50), p95 := some (.finite x95),
               p99 := some (.finite x99) }, h') ∧
      (IsQuantile (50 / 100) qs x50 ∧ IsQuantile (95 / 100) qs x95 ∧
        IsQuantile (99 / 100) qs x99) ∧
      (x50 ≤ x95 ∧ x95 ≤ x99) ∧
      (∀ p ∈ [50, 95, 99],
        0 ≤ pickIndex unrounded p qs.length ∧ pickIndex unrounded p qs.length < qs.length) ∧
      (∀ (g : Heap JsNumber) (reordered : Ref) (qs' : List ℚ),
        g[reordered]? = some (qs'.map .finite) → qs.Perm qs' →
        ((computePercentiles unrounded reordered).run g).1
          = { count := qs.length, p50 := some (.finite x50), p95 := some (.finite x95),
              p99 := some (.finite x99) }) ∧
      (∀ (a : Ref) (xs : List JsNumber), h[a]? = some xs → h'[a]? = some xs) := by
  rcases reportOf_reports hne with ⟨x50, x95, x99, hreport, hq50, hq95, hq99⟩
  refine ⟨x50, x95, x99, h ++ [(qs.insertionSort (· ≤ ·)).map .finite], ?_, ⟨hq50, hq95, hq99⟩,
    ⟨hq50.mono hq95 (by norm_num), hq95.mono hq99 (by norm_num)⟩, fun p hp => ?_,
    fun g reordered qs' hmem' hperm => ?_,
    fun a xs ha => getElem?_of_prefix (List.prefix_append h _) ha⟩
  · rw [run_computePercentiles unrounded hmem hne, hreport]
  · have hp' : p < 100 := by
      simp only [List.mem_cons, List.not_mem_nil, or_false] at hp
      omega
    exact pickIndex_inside hp' (List.length_pos_of_ne_nil hne)
  · -- Both reports have the quantiles of the same durations.
    have hne' : qs' ≠ [] := fun hnil => hne (List.Perm.eq_nil (hnil ▸ hperm))
    rw [run_computePercentiles unrounded hmem' hne', ← hreport]
    exact (reportOf_reports hne').unique (reportOf_reports hne) hperm.symm

/-- Five durations in no order, in the second of two arrays. -/
theorem percentiles_are_quantiles_shuffled :
    ((computePercentiles unrounded 1).run [[.nan], [40, 10, 50, 20, 30].map .finite]).1
        = { count := 5, p50 := some (.finite 30), p95 := some (.finite 50),
            p99 := some (.finite 50) } ∧
      IsQuantile (50 / 100) [40, 10, 50, 20, 30] (30 : ℚ) ∧
      IsQuantile (95 / 100) [40, 10, 50, 20, 30] (50 : ℚ) ∧
      IsQuantile (99 / 100) [40, 10, 50, 20, 30] (50 : ℚ) := by
  have hreport : ((computePercentiles unrounded 1).run
      [[.nan], [40, 10, 50, 20, 30].map .finite]).1
        = { count := 5, p50 := some (.finite 30), p95 := some (.finite 50),
            p99 := some (.finite 50) } := by
    decide +kernel
  have hmem : ([[.nan], ([40, 10, 50, 20, 30] : List ℚ).map .finite] : Heap JsNumber)[1]?
      = some (([40, 10, 50, 20, 30] : List ℚ).map .finite) := rfl
  -- What the theorem speaks of is what this run reports.
  rcases percentiles_are_quantiles hmem (List.cons_ne_nil _ _) with
    ⟨x50, x95, x99, h', hrun, ⟨hq50, hq95, hq99⟩, -⟩
  rw [hrun] at hreport
  cases hreport
  rw [hrun]
  exact ⟨rfl, hq50, hq95, hq99⟩

end ClickScope
