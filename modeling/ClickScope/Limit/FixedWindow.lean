import Mathlib.Logic.Function.Basic
import Mathlib.Data.List.Basic

/-!
# Fixed-Window Counters

A store that counts hits by key, in windows of a fixed length: the first hit of
a key opens a window, the hits until the window ends are counted in it, and the
next hit opens another one.

What the store has counted is told by the history of its hits. A window is
known by its key and its end, since the windows of a key end one after another.
Each hit is numbered: it is one more than the hits that were counted in its
window before. So at most `max` hits of a window are numbered up to `max`, and
a hit beyond them has `max` other hits of the same key in its window.

## Main definitions

* `Window`, `Store`, `hit`: The store, and counting one hit.
* `inWindow`: The hits of a window.
* `Numbered`: Each hit of a history has its number.
* `Tallied`: A store has counted the hits of a history.

## Theorems

* `tallied_hit`: Counting a hit keeps the store and the history together.
* `nextWindow_ends`: When the window of the next hit ends.
* `admitted_le`: How many hits of a window have a small number.
* `crowded`: A hit with a large number has many before it.
-/

namespace FixedWindow

variable {κ : Type} [DecidableEq κ]

/-- A window: how many hits it has, and when it ends. -/
structure Window where
  count : Nat
  resetAt : Nat
deriving DecidableEq, Repr

abbrev Store (κ : Type) : Type := κ → Option Window

/-- The window a hit is counted in. -/
def nextWindow (span now : Nat) : Option Window → Window
  | some w => if now < w.resetAt then ⟨w.count + 1, w.resetAt⟩ else ⟨1, now + span⟩
  | none => ⟨1, now + span⟩

/-- Count a hit. -/
def hit (span now : Nat) (key : κ) (s : Store κ) : Window × Store κ :=
  (nextWindow span now (s key), Function.update s key (some (nextWindow span now (s key))))

theorem hit_self (span now : Nat) (key : κ) (s : Store κ) :
    (hit span now key s).2 key = some (hit span now key s).1 := by
  unfold hit
  exact Function.update_self key _ s

theorem hit_other (span now : Nat) {key key' : κ} (s : Store κ) (h : key' ≠ key) :
    (hit span now key s).2 key' = s key' := by
  unfold hit
  exact Function.update_of_ne h _ s

/-- A hit, and its window right after it. -/
structure Hit (κ : Type) where
  key : κ
  window : Window
deriving DecidableEq, Repr

/-- The hits of a window, newest first. -/
def inWindow (key : κ) (resetAt : Nat) (hits : List (Hit κ)) : List (Hit κ) :=
  hits.filter (fun h => decide (h.key = key ∧ h.window.resetAt = resetAt))

theorem inWindow_cons_pos {key : κ} {resetAt : Nat} {h : Hit κ} (hits : List (Hit κ))
    (hin : h.key = key ∧ h.window.resetAt = resetAt) :
    inWindow key resetAt (h :: hits) = h :: inWindow key resetAt hits :=
  List.filter_cons_of_pos (decide_eq_true hin)

theorem inWindow_cons_neg {key : κ} {resetAt : Nat} {h : Hit κ} (hits : List (Hit κ))
    (hout : ¬ (h.key = key ∧ h.window.resetAt = resetAt)) :
    inWindow key resetAt (h :: hits) = inWindow key resetAt hits :=
  List.filter_cons_of_neg (by rw [decide_eq_true_eq]; exact hout)

/-- Every hit is one more than the hits of its window before it. -/
def Numbered : List (Hit κ) → Prop
  | [] => True
  | h :: older =>
      h.window.count = (inWindow h.key h.window.resetAt older).length + 1 ∧ Numbered older

/-- A store has counted the hits of a history: its windows are the last ones of
    their keys, and have as many hits as the history. -/
structure Tallied (s : Store κ) (hits : List (Hit κ)) : Prop where
  count : ∀ key w, s key = some w → w.count = (inWindow key w.resetAt hits).length
  last : ∀ h ∈ hits, ∃ w, s h.key = some w ∧ h.window.resetAt ≤ w.resetAt
  numbered : Numbered hits

theorem tallied_nil : Tallied (fun _ : κ => none) [] :=
  ⟨fun _ _ h => (by cases h), fun _ h => (by cases h), trivial⟩

/-- The window of the next hit has as many hits as were counted in it before,
    and one more. -/
theorem nextWindow_count {span : Nat} {s : Store κ} {hits : List (Hit κ)}
    (h : Tallied s hits) (hspan : 0 < span) (now : Nat) (key : κ) :
    (nextWindow span now (s key)).count
      = (inWindow key (nextWindow span now (s key)).resetAt hits).length + 1 := by
  -- No hit has been counted in a window that ends after the last one.
  have hfresh : (∀ w, s key = some w → w.resetAt < now + span) →
      (inWindow key (now + span) hits).length = 0 := by
    intro hlast
    rw [List.length_eq_zero_iff, inWindow, List.filter_eq_nil_iff]
    rintro g hg hwindow
    rw [decide_eq_true_eq] at hwindow
    rcases h.last g hg with ⟨w, hw, hle⟩
    have hlt := hlast w (hwindow.1 ▸ hw)
    omega
  rcases hkey : s key with _ | w
  · rw [nextWindow, hfresh (fun w hw => by rw [hkey] at hw; cases hw)]
  · rw [nextWindow]
    by_cases hnow : now < w.resetAt
    · rw [if_pos hnow, h.count key w hkey]
    · rw [if_neg hnow, hfresh (fun w' hw' => ?_)]
      rw [hkey, Option.some.injEq] at hw'
      rw [← hw']
      omega

/-- The window of the next hit has not ended, and is not longer than a window. -/
theorem nextWindow_ends {span now : Nat} {w : Option Window} (hspan : 0 < span)
    (hw : ∀ v, w = some v → v.resetAt ≤ now + span) :
    now < (nextWindow span now w).resetAt ∧ (nextWindow span now w).resetAt ≤ now + span := by
  rcases w with _ | v
  · change now < now + span ∧ now + span ≤ now + span
    omega
  · have hv := hw v rfl
    rw [nextWindow]
    by_cases hnow : now < v.resetAt
    · rw [if_pos hnow]
      exact ⟨hnow, hv⟩
    · rw [if_neg hnow]
      change now < now + span ∧ now + span ≤ now + span
      omega

theorem resetAt_nextWindow {span now : Nat} {w : Window} :
    w.resetAt ≤ (nextWindow span now (some w)).resetAt := by
  by_cases hnow : now < w.resetAt
  · have hsame : nextWindow span now (some w) = ⟨w.count + 1, w.resetAt⟩ := if_pos hnow
    exact Nat.le_of_eq (congrArg Window.resetAt hsame).symm
  · have hnew : nextWindow span now (some w) = ⟨1, now + span⟩ := if_neg hnow
    have hle : w.resetAt ≤ now + span := by omega
    exact Nat.le_trans hle (Nat.le_of_eq (congrArg Window.resetAt hnew).symm)

/-- Counting a hit keeps the store and the history together. -/
theorem tallied_hit {span now : Nat} {s : Store κ} {hits : List (Hit κ)} (h : Tallied s hits)
    (hspan : 0 < span) (key : κ) :
    Tallied (hit span now key s).2 (⟨key, (hit span now key s).1⟩ :: hits) := by
  have hcount := nextWindow_count h hspan now key
  refine ⟨fun key' w hw => ?_, fun g hg => ?_, hcount, h.numbered⟩
  · by_cases hkey : key' = key
    · rw [hkey, hit_self, Option.some.injEq] at hw
      rw [← hw, hkey, inWindow_cons_pos (h := ⟨key, (hit span now key s).1⟩) hits ⟨rfl, rfl⟩,
        List.length_cons]
      exact hcount
    · -- The window of another key is untouched, and the new hit is not in it.
      rw [hit_other span now s hkey] at hw
      rw [inWindow_cons_neg hits (fun hin => hkey hin.1.symm)]
      exact h.count key' w hw
  · by_cases hkey : g.key = key
    · refine ⟨(hit span now key s).1, hkey ▸ hit_self span now key s, ?_⟩
      rcases List.mem_cons.mp hg with rfl | hg
      · exact Nat.le_refl _
      · rcases h.last g hg with ⟨w, hw, hle⟩
        -- A later window of the key never ends before the one it follows.
        have hnext : (hit span now key s).1 = nextWindow span now (some w) := by
          rw [hit, ← hkey, hw]
        rw [hnext]
        exact Nat.le_trans hle resetAt_nextWindow
    · rcases List.mem_cons.mp hg with rfl | hg
      · exact absurd rfl hkey
      · rcases h.last g hg with ⟨w, hw, hle⟩
        exact ⟨w, (hit_other span now s hkey).trans hw, hle⟩

/-- How many hits of a window have a number up to `max`: all of them, or `max`. -/
theorem admitted_length {hits : List (Hit κ)} (h : Numbered hits) (max : Nat) (key : κ)
    (resetAt : Nat) :
    ((inWindow key resetAt hits).filter (fun g => decide (g.window.count ≤ max))).length
      = min max (inWindow key resetAt hits).length := by
  induction hits with
  | nil => exact (Nat.min_zero max).symm
  | cons g hits ih =>
      rcases h with ⟨hcount, hrest⟩
      by_cases hin : g.key = key ∧ g.window.resetAt = resetAt
      · rw [hin.1, hin.2] at hcount
        rw [inWindow_cons_pos hits hin, List.length_cons]
        -- The newest hit is numbered by how many there are, so it is admitted while they are few.
        by_cases hmax : g.window.count ≤ max
        · rw [List.filter_cons_of_pos (by exact decide_eq_true hmax), List.length_cons, ih hrest]
          omega
        · rw [List.filter_cons_of_neg (by rw [decide_eq_true_eq]; exact hmax), ih hrest]
          omega
      · rw [inWindow_cons_neg hits hin]
        exact ih hrest

theorem admitted_le {hits : List (Hit κ)} (h : Numbered hits) (max : Nat) (key : κ)
    (resetAt : Nat) :
    ((inWindow key resetAt hits).filter (fun g => decide (g.window.count ≤ max))).length ≤ max := by
  rw [admitted_length h]
  exact Nat.min_le_left _ _

/-- A hit with a number beyond `max` has `max` hits of its window before it. -/
theorem crowded {hits newer older : List (Hit κ)} {g : Hit κ} {max : Nat} (h : Numbered hits)
    (heq : hits = newer ++ g :: older) (hmax : max < g.window.count) :
    max ≤ (inWindow g.key g.window.resetAt older).length := by
  induction newer generalizing hits with
  | nil =>
      subst heq
      have hcount := h.1
      omega
  | cons n newer ih =>
      subst heq
      exact ih h.2 rfl

end FixedWindow
