import Mathlib.Data.List.Sort

/-!
# Arrays on a Heap

Arrays that are passed by reference.

A heap is a list of arrays, and a reference is the place of one. A new array is
put at the end, so that the arrays a program found are a prefix of the heap as
long as it writes to no other than its own. That the heap a program found is a
prefix of the one it leaves is all there is to say about what it has not
touched.

A map to arrays groups items by key. Each key has an array of its own, so that
an item which is pushed to one of them is in no other group.

## Main definitions

* `Heap`, `OnHeap`: The arrays, and programs over them.
* `elements`, `newArray`, `setElements`, `push`, `sort`: What a program does.
* `Groups`: A map holds the items of its keys.

## Theorems

* `prefix_newArray`, `prefix_set`: What keeps the arrays that were there.
* `run_foldlM`, `run_mapM`: What loops keep.
* `Groups.set`, `Groups.push`: A group gets one item more.
-/

namespace Arrays

/-- The place of an array. -/
abbrev Ref : Type := Nat

abbrev Heap (α : Type) : Type := List (List α)

/-- A program over arrays. -/
abbrev OnHeap (α β : Type) : Type := StateM (Heap α) β

variable {α : Type}

section Programs

/-- The elements of an array, which are none if there is no such array. -/
def elements (a : Ref) : OnHeap α (List α) := fun h => ((h[a]?).getD [], h)

/-- A new array. -/
def newArray (xs : List α) : OnHeap α Ref := fun h => (h.length, h ++ [xs])

/-- Give an array other elements. -/
def setElements (a : Ref) (xs : List α) : OnHeap α Unit := fun h => ((), h.set a xs)

/-- Put an element at the end of an array. -/
def push (a : Ref) (x : α) : OnHeap α Unit := do
  let xs ← elements a
  setElements a (xs ++ [x])

/-- Sort an array in place. Elements of which neither is after the other keep
    their order. -/
def sort (notAfter : α → α → Prop) [DecidableRel notAfter] (a : Ref) : OnHeap α Unit := do
  let xs ← elements a
  setElements a (xs.insertionSort notAfter)

variable {h h' : Heap α} {a : Ref} {xs : List α}

/-- What goes on after a program that has been run. -/
theorem run_then {β γ : Type} {m : OnHeap α β} {k : β → OnHeap α γ} {b : β}
    (hrun : m.run h = (b, h')) : (m >>= k).run h = (k b).run h' := by
  rw [StateT.run_bind, hrun]
  rfl

theorem run_elements (hmem : h[a]? = some xs) : (elements a).run h = (xs, h) := by
  change ((h[a]?).getD [], h) = (xs, h)
  rw [hmem, Option.getD_some]

@[simp] theorem run_newArray (xs : List α) (h : Heap α) :
    (newArray xs).run h = (h.length, h ++ [xs]) := rfl

@[simp] theorem run_setElements (a : Ref) (xs : List α) (h : Heap α) :
    (setElements a xs).run h = ((), h.set a xs) := rfl

theorem run_push (x : α) (hmem : h[a]? = some xs) :
    (push a x).run h = ((), h.set a (xs ++ [x])) := by
  rw [push, run_then (run_elements hmem), run_setElements]

theorem run_sort (notAfter : α → α → Prop) [DecidableRel notAfter] (hmem : h[a]? = some xs) :
    (sort notAfter a).run h = ((), h.set a (xs.insertionSort notAfter)) := by
  rw [sort, run_then (run_elements hmem), run_setElements]

end Programs

section Frame

variable {h h' : Heap α}

theorem getElem?_newArray (h : Heap α) (xs : List α) : (h ++ [xs])[h.length]? = some xs := by
  rw [List.getElem?_append_right (le_refl _), Nat.sub_self, List.getElem?_cons_zero]

theorem getElem?_of_prefix {a : Ref} {xs : List α} (hpre : h <+: h') (hmem : h[a]? = some xs) :
    h'[a]? = some xs := by
  rcases List.getElem?_eq_some_iff.mp hmem with ⟨ha, rfl⟩
  exact List.prefix_iff_getElem?.mp hpre a ha

theorem prefix_newArray (xs : List α) (hpre : h <+: h') : h <+: h' ++ [xs] :=
  hpre.trans (List.prefix_append h' [xs])

/-- An array that was not there before is written to. -/
theorem prefix_set {a : Ref} (xs : List α) (hpre : h <+: h') (ha : h.length ≤ a) :
    h <+: h'.set a xs := by
  rcases hpre with ⟨new, rfl⟩
  rw [List.set_append_right _ _ ha]
  exact List.prefix_append h _

end Frame

section Loops

variable {β ι : Type}

/-- A loop that carries a value keeps an invariant of the elements it is done
    with. -/
theorem run_foldlM {f : β → ι → OnHeap α β} {I : List ι → β → Heap α → Prop}
    (hstep : ∀ done b x h, I done b h →
      ∃ b' h', (f b x).run h = (b', h') ∧ I (done ++ [x]) b' h') :
    ∀ (xs done : List ι) (b : β) (h : Heap α), I done b h →
      ∃ b' h', (xs.foldlM f b).run h = (b', h') ∧ I (done ++ xs) b' h' := by
  intro xs
  -- By induction on the elements that are left, for any that the loop is done with.
  induction xs with
  | nil =>
      intro done b h hI
      exact ⟨b, h, rfl, (List.append_nil done).symm ▸ hI⟩
  | cons x xs ih =>
      intro done b h hI
      rcases hstep done b x h hI with ⟨b', h', hrun, hI'⟩
      rcases ih (done ++ [x]) b' h' hI' with ⟨b'', h'', hrun', hI''⟩
      refine ⟨b'', h'', ?_, ?_⟩
      · rw [List.foldlM_cons, run_then hrun, hrun']
      · rw [List.append_assoc, List.singleton_append] at hI''
        exact hI''

/-- A loop that collects a result for each element keeps an invariant, and
    relates the elements to their results. -/
theorem run_mapM {f : ι → OnHeap α β} {I : Heap α → Prop} {R : ι → β → Prop}
    (xs : List ι) (hstep : ∀ x ∈ xs, ∀ h, I h → ∃ y h', (f x).run h = (y, h') ∧ R x y ∧ I h')
    (h : Heap α) (hI : I h) :
    ∃ ys h', (xs.mapM f).run h = (ys, h') ∧ List.Forall₂ R xs ys ∧ I h' := by
  induction xs generalizing h with
  | nil => exact ⟨[], h, rfl, .nil, hI⟩
  | cons x xs ih =>
      rcases hstep x List.mem_cons_self h hI with ⟨y, h', hrun, hR, hI'⟩
      rcases ih (fun z hz => hstep z (List.mem_cons_of_mem x hz)) h' hI' with
        ⟨ys, h'', hrun', hRs, hI''⟩
      refine ⟨y :: ys, h'', ?_, .cons hR hRs, hI''⟩
      rw [List.mapM_cons, run_then hrun, run_then hrun']
      rfl

end Loops

section Maps

variable {κ : Type} [DecidableEq κ] {m : List (κ × Ref)} {h : Heap α} {base : Nat}
  {items : κ → List α}

/-- A map holds the items of every key that has some, each key in an array of
    its own that was not there before the map. -/
structure Groups (m : List (κ × Ref)) (h : Heap α) (base : Nat) (items : κ → List α) :
    Prop where
  keys : (m.map Prod.fst).Nodup
  absent : ∀ key, m.lookup key = none ↔ items key = []
  holds : ∀ key a, m.lookup key = some a → h[a]? = some (items key)
  apart : ∀ key key' a, m.lookup key = some a → m.lookup key' = some a → key = key'
  fresh : ∀ key a, m.lookup key = some a → base ≤ a

namespace Groups

theorem nil (h : Heap α) (base : Nat) : Groups ([] : List (κ × Ref)) h base (fun _ => []) :=
  ⟨List.nodup_nil, fun _ => ⟨fun _ => rfl, fun _ => rfl⟩, fun _ _ he => (by cases he),
    fun _ _ _ he => (by cases he), fun _ _ he => (by cases he)⟩

/-- A key that has an array gets one item more. No other key has this array. -/
theorem push (hm : Groups m h base items) {key : κ} {a : Ref} (hkey : m.lookup key = some a)
    (x : α) : Groups m (h.set a (items key ++ [x])) base
      (Function.update items key (items key ++ [x])) := by
  refine ⟨hm.keys, fun key' => ?_, fun key' a' hkey' => ?_, hm.apart, hm.fresh⟩
  · by_cases he : key' = key
    · rw [he, Function.update_self, hkey]
      exact ⟨fun hn => (by cases hn), fun hn => absurd hn (List.append_ne_nil_of_right_ne_nil _
        (List.cons_ne_nil _ _))⟩
    · rw [Function.update_of_ne he]
      exact hm.absent key'
  · by_cases he : key' = key
    · rw [he, hkey, Option.some.injEq] at hkey'
      rw [he, Function.update_self, ← hkey',
        List.getElem?_set_self (List.getElem?_eq_some_iff.mp (hm.holds key a hkey)).1]
    · have hne : a ≠ a' := by
        rintro rfl
        exact he (hm.apart key' key a hkey' hkey)
      rw [Function.update_of_ne he, List.getElem?_set_ne hne]
      exact hm.holds key' a' hkey'

/-- A key that has no array gets a new one. -/
theorem set (hm : Groups m h base items) {key : κ} (hkey : m.lookup key = none) (x : α)
    (hbase : base ≤ h.length) : Groups (m ++ [(key, h.length)]) (h ++ [[x]]) base
      (Function.update items key [x]) := by
  -- What the longer map finds: the new array for the key, the old ones for all others.
  have hself : (m ++ [(key, h.length)]).lookup key = some h.length := by
    rw [List.lookup_append, hkey, Option.none_or, List.lookup_cons_self]
  have hother : ∀ key', key' ≠ key → (m ++ [(key, h.length)]).lookup key' = m.lookup key' := by
    intro key' hne
    rw [List.lookup_append, List.lookup_cons, beq_false_of_ne hne, List.lookup_nil, Option.or_none]
  have hlt : ∀ key' a, m.lookup key' = some a → a < h.length :=
    fun key' a hkey' => (List.getElem?_eq_some_iff.mp (hm.holds key' a hkey')).1
  refine ⟨?_, fun key' => ?_, fun key' a hkey' => ?_, fun key' key'' a hkey' hkey'' => ?_,
    fun key' a hkey' => ?_⟩
  · have hnew : key ∉ m.map Prod.fst := by
      intro hin
      rcases List.mem_map.mp hin with ⟨e, he, rfl⟩
      exact (bne_iff_ne.mp (List.lookup_eq_none_iff.mp hkey e he)) rfl
    rw [List.map_append]
    refine List.nodup_append.mpr ⟨hm.keys, List.nodup_singleton _, fun k hk k' hk' he => hnew ?_⟩
    rw [he, List.mem_singleton.mp hk'] at hk
    exact hk
  · by_cases he : key' = key
    · rw [he, hself, Function.update_self]
      exact ⟨fun hn => (by cases hn), fun hn => (by cases hn)⟩
    · rw [hother key' he, Function.update_of_ne he]
      exact hm.absent key'
  · by_cases he : key' = key
    · rw [he, hself, Option.some.injEq] at hkey'
      rw [he, Function.update_self, ← hkey', getElem?_newArray]
    · rw [hother key' he] at hkey'
      rw [Function.update_of_ne he]
      exact getElem?_of_prefix (List.prefix_append h _) (hm.holds key' a hkey')
  · by_cases he' : key' = key <;> by_cases he'' : key'' = key
    · rw [he', he'']
    · -- An array that was there is not the new one.
      rw [he', hself, Option.some.injEq] at hkey'
      rw [hother key'' he''] at hkey''
      exact absurd hkey'.symm (hlt key'' a hkey'').ne
    · rw [he'', hself, Option.some.injEq] at hkey''
      rw [hother key' he'] at hkey'
      exact absurd hkey''.symm (hlt key' a hkey').ne
    · exact hm.apart key' key'' a (hother key' he' ▸ hkey') (hother key'' he'' ▸ hkey'')
  · by_cases he : key' = key
    · rw [he, hself, Option.some.injEq] at hkey'
      exact hkey' ▸ hbase
    · exact hm.fresh key' a (hother key' he ▸ hkey')

theorem mem_keys (hm : Groups m h base items) (key : κ) :
    key ∈ m.map Prod.fst ↔ items key ≠ [] := by
  rw [Ne, ← hm.absent key, List.lookup_eq_none_iff]
  constructor
  · intro hin hnone
    rcases List.mem_map.mp hin with ⟨e, he, rfl⟩
    exact bne_iff_ne.mp (hnone e he) rfl
  · intro hsome
    by_contra hnot
    refine hsome (fun e he => bne_iff_ne.mpr (fun heq => hnot ?_))
    exact heq ▸ List.mem_map_of_mem he

/-- What the map holds of a key that is one of its entries. -/
theorem entry (hm : Groups m h base items) {e : κ × Ref} (he : e ∈ m) :
    h[e.2]? = some (items e.1) ∧ items e.1 ≠ [] := by
  have hlookup : m.lookup e.1 = some e.2 := by
    rcases List.append_of_mem he with ⟨before, after, rfl⟩
    have hkeys := hm.keys
    rw [List.map_append, List.map_cons, List.nodup_append] at hkeys
    refine List.lookup_eq_some_iff.mpr ⟨before, after, rfl, fun p hp => bne_iff_ne.mpr ?_⟩
    exact (hkeys.2.2 p.1 (List.mem_map_of_mem hp) e.1 List.mem_cons_self).symm
  refine ⟨hm.holds e.1 e.2 hlookup, fun hnil => ?_⟩
  rw [(hm.absent e.1).mpr hnil] at hlookup
  cases hlookup

end Groups

end Maps

end Arrays
