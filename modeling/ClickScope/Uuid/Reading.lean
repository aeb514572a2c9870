import Mathlib.Data.List.Basic

/-!
# UUIDs as Texts

Which texts a database reads as a UUID, and which of them are written in the
one form with four hyphens.

A UUID is sixteen bytes. It is read from their hexadecimal digits in either
case, with a hyphen allowed behind every second byte, and with braces around
the whole. It is always shown in lower case, with the hyphens behind the bytes
4, 6, 8 and 10. So a UUID that is read is known by the text it is shown as, and
two texts say the same UUID exactly if they are read as the same text.

## Main definitions

* `read`: The UUID a text says, as it is shown.
* `isHyphenated`: The pattern of five groups of digits.

## Theorems

* `readBytes_append`: Reading goes through a group of digits.
* `read_of_hyphenated`: A text of five groups says a UUID.
-/

namespace Uuid

/-- A hexadecimal digit, in lower case. -/
def digit? (c : Char) : Option Char :=
  if ('0' ≤ c ∧ c ≤ '9') ∨ ('a' ≤ c ∧ c ≤ 'f') then some c
  else if 'A' ≤ c ∧ c ≤ 'F' then some c.toLower
  else none

def skipHyphen : List Char → List Char
  | '-' :: rest => rest
  | rest => rest

/-- What is left to read when `n` bytes are to come. -/
def between (n : Nat) (rest : List Char) : List Char :=
  if n % 2 = 0 ∧ n ≠ 0 then skipHyphen rest else rest

/-- Read so many bytes: their digits, and what is left of the text. -/
def readBytes : Nat → List Char → Option (List Char × List Char)
  | 0, rest => some ([], rest)
  | n + 1, a :: b :: rest =>
      match digit? a, digit? b with
      | some x, some y => (readBytes n (between n rest)).map (fun r => (x :: y :: r.1, r.2))
      | _, _ => none
  | _ + 1, _ => none

/-- The text thirty-two digits are shown as. -/
def shown (digits : List Char) : String :=
  String.ofList (digits.take 8 ++ '-' :: (digits.drop 8).take 4 ++ '-' :: (digits.drop 12).take 4 ++
    '-' :: (digits.drop 16).take 4 ++ '-' :: digits.drop 20)

/-- The UUID a text says, as it is shown. -/
def read (s : String) : Option String :=
  match s.toList with
  | '{' :: body =>
      match readBytes 16 body with
      | some (digits, ['}']) => some (shown digits)
      | _ => none
  | body =>
      match readBytes 16 body with
      | some (digits, []) => some (shown digits)
      | _ => none

/-- Groups of digits of these lengths, with hyphens between them. -/
def isGroups : List Nat → List Char → Bool
  | [], cs => cs.isEmpty
  | [n], cs => cs.length == n && cs.all (fun c => (digit? c).isSome)
  | n :: ns, cs =>
      match cs.drop n with
      | '-' :: rest => (cs.take n).all (fun c => (digit? c).isSome) && isGroups ns rest
      | _ => false

/-- Five groups of eight, four, four, four and twelve digits. -/
def isHyphenated (s : String) : Bool := isGroups [8, 4, 4, 4, 12] s.toList

section Groups

variable {ds : List Char}

/-- Reading goes through a group of digits, and stops at a hyphen between bytes
    only where one may be. -/
theorem readBytes_append {k : Nat} (n : Nat) (hlength : ds.length = 2 * (k + 1))
    (hall : ∀ c ∈ ds, (digit? c).isSome = true) (rest : List Char) :
    ∃ out, readBytes (k + 1 + n) (ds ++ rest) =
      (readBytes n (between n rest)).map (fun r => (out ++ r.1, r.2)) := by
  induction k generalizing ds with
  | zero =>
      match ds, hlength with
      | [a, b], _ =>
          rcases Option.isSome_iff_exists.mp (hall a (by simp)) with ⟨x, hx⟩
          rcases Option.isSome_iff_exists.mp (hall b (by simp)) with ⟨y, hy⟩
          refine ⟨[x, y], ?_⟩
          rw [show 0 + 1 + n = n + 1 by omega]
          simp only [List.cons_append, List.nil_append, readBytes, hx, hy]
  | succ k ih =>
      match ds, hlength with
      | a :: b :: c :: ds, hlength =>
          rcases Option.isSome_iff_exists.mp (hall a (by simp)) with ⟨x, hx⟩
          rcases Option.isSome_iff_exists.mp (hall b (by simp)) with ⟨y, hy⟩
          have hlength' : (c :: ds).length = 2 * (k + 1) := by
            simp only [List.length_cons] at hlength ⊢
            omega
          rcases ih hlength' (fun d hd => hall d (by simp [List.mem_cons.mp hd])) with ⟨out, hout⟩
          -- The next digit is no hyphen.
          have hnext : ∀ m, between m (c :: ds ++ rest) = c :: ds ++ rest := by
            intro m
            have hc : c ≠ '-' := by
              rintro rfl
              exact absurd (hall '-' (by simp)) (by decide)
            have hskip : skipHyphen (c :: ds ++ rest) = c :: ds ++ rest := by
              rw [List.cons_append]
              unfold skipHyphen
              split
              · rename_i heq
                exact absurd (List.cons.inj heq).1 hc
              · rfl
            unfold between
            split_ifs
            · exact hskip
            · rfl
          refine ⟨x :: y :: out, ?_⟩
          rw [show k + 1 + 1 + n = k + 1 + n + 1 by omega]
          rw [List.cons_append, List.cons_append]
          simp only [readBytes, hx, hy]
          rw [hnext, hout, Option.map_map]
          rfl

/-- A group before a hyphen. -/
theorem isGroups_cons {n m : Nat} {ns : List Nat} {cs : List Char}
    (h : isGroups (n :: m :: ns) cs = true) : ∃ ds rest, cs = ds ++ '-' :: rest ∧ ds.length = n ∧
      (∀ c ∈ ds, (digit? c).isSome = true) ∧ isGroups (m :: ns) rest = true := by
  unfold isGroups at h
  split at h
  · rename_i rest hdrop
    rw [Bool.and_eq_true, List.all_eq_true] at h
    refine ⟨cs.take n, rest, ?_, ?_, h.1, h.2⟩
    · rw [← hdrop, List.take_append_drop]
    · have hlength := congrArg List.length hdrop
      rw [List.length_drop, List.length_cons] at hlength
      rw [List.length_take]
      omega
  · cases h

end Groups

/-- A text of five groups says a UUID. -/
theorem read_of_hyphenated {s : String} (h : isHyphenated s = true) : (read s).isSome = true := by
  rcases isGroups_cons h with ⟨d₁, r₁, hs, hl₁, ha₁, h₁⟩
  rcases isGroups_cons h₁ with ⟨d₂, r₂, rfl, hl₂, ha₂, h₂⟩
  rcases isGroups_cons h₂ with ⟨d₃, r₃, rfl, hl₃, ha₃, h₃⟩
  rcases isGroups_cons h₃ with ⟨d₄, d₅, rfl, hl₄, ha₄, h₄⟩
  simp only [isGroups, Bool.and_eq_true, beq_iff_eq, List.all_eq_true] at h₄
  -- The hyphens come when an even number of bytes is left.
  have hskip : ∀ n r, n % 2 = 0 ∧ n ≠ 0 → between n ('-' :: r) = r := by
    intro n r hn
    rw [between, if_pos hn]
    rfl
  rcases readBytes_append (k := 3) 12 hl₁ ha₁
    ('-' :: (d₂ ++ '-' :: (d₃ ++ '-' :: (d₄ ++ '-' :: d₅)))) with ⟨o₁, e₁⟩
  rcases readBytes_append (k := 1) 10 hl₂ ha₂
    ('-' :: (d₃ ++ '-' :: (d₄ ++ '-' :: d₅))) with ⟨o₂, e₂⟩
  rcases readBytes_append (k := 1) 8 hl₃ ha₃ ('-' :: (d₄ ++ '-' :: d₅)) with ⟨o₃, e₃⟩
  rcases readBytes_append (k := 1) 6 hl₄ ha₄ ('-' :: d₅) with ⟨o₄, e₄⟩
  rcases readBytes_append (k := 5) 0 h₄.1 h₄.2 [] with ⟨o₅, e₅⟩
  rw [List.append_nil] at e₅
  rw [hskip _ _ (by decide)] at e₁ e₂ e₃ e₄
  have hread : readBytes 16 s.toList = some (o₁ ++ (o₂ ++ (o₃ ++ (o₄ ++ (o₅ ++ [])))), []) := by
    rw [hs, e₁, e₂, e₃, e₄, e₅]
    rfl
  unfold read
  split
  · rename_i body hbody
    -- The first digit is no brace.
    rw [hbody] at hs
    match d₁, hl₁ with
    | c :: d₁, _ =>
        rw [List.cons_append, List.cons.injEq] at hs
        exact absurd (ha₁ c List.mem_cons_self) (by rw [← hs.1]; decide)
  · rw [hread]
    rfl

end Uuid
