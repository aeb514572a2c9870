import Mathlib.Data.List.Infix
import Mathlib.Data.List.Basic

/-!
# Escaping Characters by Words

Texts in which some characters are replaced by words, so that the characters
themselves can be used for something else. Every word begins with a mark, which
is one of the characters that are replaced.

A replacement is made of each character on its own, so that it can be made of
the parts of a text. It can also be made in passes over the whole text, one for
each character, as long as no pass finds its character in the words of the
passes before: the mark has to be replaced first. Since no word is the beginning
of another, a mark in the result tells which character is meant.

## Main definitions

* `Escaping`: A mark, and the words without it.
* `encode`, `passes`: Replacing at once, and pass by pass.
* `decode`: Reading the words back.

## Theorems

* `passes_eq`: The passes replace each character once.
* `not_mem_encode`: The characters that are gone.
* `encode_mark`: A mark in the result begins a word.
* `decode_encode`: What was replaced is read back.
-/

namespace Html

variable {α : Type} [DecidableEq α]

/-- The characters that are replaced, and what follows the mark in their words. -/
structure Escaping (α : Type) [DecidableEq α] where
  mark : α
  table : List (α × List α)
  marked : mark ∈ table.map (·.1)
  plain : ∀ e ∈ table, ∀ x ∈ e.2, x ∉ table.map (·.1)
  prefixFree : ∀ e ∈ table, ∀ e' ∈ table, e.2 <+: e'.2 → e = e'

/-- Replace every occurrence of a character. -/
def rewrite (c : α) (word s : List α) : List α :=
  s.flatMap (fun x => if x = c then word else [x])

/-- Replace one character after another. -/
def passes : List (α × List α) → List α → List α
  | [], s => s
  | e :: rest, s => passes rest (rewrite e.1 e.2 s)

/-- What a character is replaced by. -/
def wordOf (words : List (α × List α)) (c : α) : List α := (words.lookup c).getD [c]

/-- A character for which there is no word is kept. -/
theorem wordOf_plain {words : List (α × List α)} {c : α} (h : c ∉ words.map (·.1)) :
    wordOf words c = [c] := by
  have hnone : words.lookup c = none := by
    rw [List.lookup_eq_none_iff]
    intro e he
    rw [bne_iff_ne]
    rintro rfl
    exact h (List.mem_map_of_mem he)
  rw [wordOf, hnone, Option.getD_none]

theorem flatMap_wordOf_plain {words : List (α × List α)} {s : List α}
    (h : ∀ x ∈ s, x ∉ words.map (·.1)) : s.flatMap (wordOf words) = s := by
  induction s with
  | nil => rfl
  | cons x s ih =>
      rw [List.forall_mem_cons] at h
      rw [List.flatMap_cons, wordOf_plain h.1, ih h.2, List.singleton_append]

/-- The passes replace each character once, if none finds its character in the
    words of the passes before it. -/
theorem passes_eq {words : List (α × List α)}
    (h : words.Pairwise (fun e later => later.1 ∉ e.2)) (s : List α) :
    passes words s = s.flatMap (wordOf words) := by
  induction words generalizing s with
  | nil => exact (flatMap_wordOf_plain (fun _ _ => List.not_mem_nil)).symm
  | cons e rest ih =>
      rw [List.pairwise_cons] at h
      rw [passes, ih h.2, rewrite, List.flatMap_assoc]
      refine congrArg (fun f => s.flatMap f) (funext fun x => ?_)
      by_cases hx : x = e.1
      · -- The word of this pass is left alone by the passes behind it.
        have hkept : ∀ y ∈ e.2, y ∉ rest.map (·.1) := by
          intro y hy hmem
          rcases List.mem_map.mp hmem with ⟨later, hlater, rfl⟩
          exact h.1 later hlater hy
        rw [if_pos hx, flatMap_wordOf_plain hkept, wordOf, hx, List.lookup_cons, beq_self_eq_true]
        rfl
      · rw [if_neg hx, List.flatMap_singleton, wordOf, wordOf, List.lookup_cons,
          beq_eq_false_iff_ne.mpr hx]

namespace Escaping

variable (E : Escaping α)

/-- The words, with their mark. -/
def words : List (α × List α) := E.table.map (fun e => (e.1, E.mark :: e.2))

/-- Replace all characters at once. -/
def encode (s : List α) : List α := s.flatMap (wordOf E.words)

/-- Read the words back, after the rest of a word that was read. -/
def decodeFrom : Nat → List α → List α
  | _, [] => []
  | skip + 1, _ :: s => decodeFrom skip s
  | 0, c :: s =>
      if c = E.mark then
        match E.table.find? (fun e => e.2.isPrefixOf s) with
        | some e => e.1 :: decodeFrom e.2.length s
        | none => c :: decodeFrom 0 s
      else c :: decodeFrom 0 s

def decode (s : List α) : List α := E.decodeFrom 0 s

variable {E}

theorem encode_append (s t : List α) : E.encode (s ++ t) = E.encode s ++ E.encode t :=
  List.flatMap_append

theorem keys_words : E.words.map (·.1) = E.table.map (·.1) := by
  rw [words, List.map_map]
  rfl

/-- A character is kept, or replaced by a word of the table. -/
theorem wordOf_cases (c : α) :
    (c ∉ E.table.map (·.1) ∧ wordOf E.words c = [c]) ∨
      ∃ w, (c, w) ∈ E.table ∧ wordOf E.words c = E.mark :: w := by
  by_cases hc : c ∈ E.words.map (·.1)
  · rcases hlookup : E.words.lookup c with _ | word
    · -- A key of the table is found in it.
      rcases List.mem_map.mp hc with ⟨e, he, rfl⟩
      have hne := List.lookup_eq_none_iff.mp hlookup e he
      exact absurd rfl (bne_iff_ne.mp hne)
    · have hmem : (c, word) ∈ E.words := by
        rcases List.lookup_eq_some_iff.mp hlookup with ⟨before, after, hsplit, _⟩
        rw [hsplit]
        exact List.mem_append_right before List.mem_cons_self
      rcases List.mem_map.mp hmem with ⟨⟨d, w⟩, hw, heq⟩
      rw [Prod.mk.injEq] at heq
      rcases heq with ⟨rfl, rfl⟩
      exact Or.inr ⟨w, hw, by rw [wordOf, hlookup, Option.getD_some]⟩
  · exact Or.inl ⟨keys_words (E := E) ▸ hc, wordOf_plain hc⟩

/-- Of the characters that are replaced only the mark is left. -/
theorem not_mem_encode {c : α} (hc : c ∈ E.table.map (·.1)) (hmark : c ≠ E.mark) (s : List α) :
    c ∉ E.encode s := by
  intro hmem
  rcases List.mem_flatMap.mp hmem with ⟨d, _, hword⟩
  rcases wordOf_cases (E := E) d with ⟨hplain, heq⟩ | ⟨w, hw, heq⟩
  · rw [heq, List.mem_singleton] at hword
    exact hplain (hword ▸ hc)
  · rw [heq, List.mem_cons] at hword
    rcases hword with hword | hword
    · exact hmark hword
    · exact E.plain _ hw c hword hc

/-- A mark in the result begins a word. -/
theorem encode_mark {s before after : List α} (h : E.encode s = before ++ E.mark :: after) :
    ∃ e ∈ E.table, e.2 <+: after := by
  induction s generalizing before with
  | nil => exact absurd h.symm (List.append_ne_nil_of_right_ne_nil _ (List.cons_ne_nil _ _))
  | cons c s ih =>
      rw [encode, List.flatMap_cons] at h
      rcases wordOf_cases (E := E) c with ⟨hplain, heq⟩ | ⟨w, hw, heq⟩
      · rw [heq, List.singleton_append] at h
        cases before with
        | nil => exact absurd ((List.head_eq_of_cons_eq h) ▸ E.marked) hplain
        | cons b before => exact ih (List.tail_eq_of_cons_eq h)
      · rw [heq, List.cons_append] at h
        cases before with
        | nil => exact ⟨(c, w), hw, (List.tail_eq_of_cons_eq h) ▸ List.prefix_append w _⟩
        | cons b before =>
            -- The mark is none of the rest of the word.
            have hno : E.mark ∉ w := fun hmem => E.plain _ hw _ hmem E.marked
            have htail : w ++ E.encode s = before ++ E.mark :: after :=
              List.tail_eq_of_cons_eq h
            rcases List.append_eq_append_iff.mp htail with
              ⟨more, _, hrest⟩ | ⟨more, hword, hrest⟩
            · exact ih hrest
            · rcases more with _ | ⟨m, more⟩
              · have hnil : E.encode s = [] ++ E.mark :: after := hrest.symm
                exact ih hnil
              · rw [List.cons_append, List.cons.injEq] at hrest
                refine absurd ?_ hno
                rw [hword, hrest.1]
                exact List.mem_append_right _ List.mem_cons_self

/-- Reading goes on behind the word. -/
theorem decodeFrom_append (w s : List α) : E.decodeFrom w.length (w ++ s) = E.decodeFrom 0 s := by
  induction w with
  | nil => rfl
  | cons x w ih =>
      rw [List.length_cons, List.cons_append, decodeFrom]
      exact ih

/-- The word that is found is the one that was written. -/
theorem find_word {c : α} {w : List α} (hw : (c, w) ∈ E.table) (s : List α) :
    E.table.find? (fun e => e.2.isPrefixOf (w ++ s)) = some (c, w) := by
  rcases hfind : E.table.find? (fun e => e.2.isPrefixOf (w ++ s)) with _ | e
  · have hnone := List.find?_eq_none.mp hfind _ hw
    exact absurd (List.isPrefixOf_iff_prefix.mpr (List.prefix_append w s)) hnone
  · have he := List.mem_of_find?_eq_some hfind
    have htest : e.2.isPrefixOf (w ++ s) = true :=
      List.find?_some (p := fun e : α × List α => e.2.isPrefixOf (w ++ s)) hfind
    have hfound : e.2 <+: w ++ s := List.isPrefixOf_iff_prefix.mp htest
    rcases List.prefix_or_prefix_of_prefix hfound (List.prefix_append w s) with hle | hle
    · rw [hfind, E.prefixFree e he _ hw hle]
    · rw [hfind, E.prefixFree _ hw e he hle]

/-- What was replaced is read back. -/
theorem decode_encode (s : List α) : E.decode (E.encode s) = s := by
  unfold decode
  induction s with
  | nil => rfl
  | cons c s ih =>
      rw [encode, List.flatMap_cons]
      rcases wordOf_cases (E := E) c with ⟨hplain, heq⟩ | ⟨w, hw, heq⟩
      · have hne : c ≠ E.mark := fun hmark => hplain (hmark ▸ E.marked)
        rw [heq, List.singleton_append, decodeFrom, if_neg hne]
        exact congrArg (List.cons c) ih
      · rw [heq, List.cons_append, decodeFrom, if_pos rfl, find_word hw]
        change c :: E.decodeFrom w.length (w ++ E.encode s) = c :: s
        rw [decodeFrom_append, ih]

end Escaping

end Html
