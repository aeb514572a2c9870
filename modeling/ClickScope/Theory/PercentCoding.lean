import ClickScope.Core.Text
import Mathlib.Tactic.NormNum

/-!
# Percent-Encoding

`decodeURIComponent` undoes `encodeURIComponent`.

A character is encoded on its own, either as itself or as the escapes of its
UTF-8 bytes, and both stages of the decoder work off the encoding of one
character before they touch the next. So each stage has a lemma about one
character in front of any text, and the round trip is an induction.

## Main definitions

* `encodeChar`, `escapedChar`: One character, encoded and half decoded.
* `encodingChar`: The characters of an encoding.

## Theorems

* `readEscapes_encodeChar`: The first stage on the encoding of a character.
* `readUtf8_utf8Bytes`: The second stage on the bytes of a character.
* `decode_encode`: The round trip.
* `encode_chars`: The characters of an encoding.
-/

namespace ClickScope

/-- The encoding of one character. -/
def encodeChar (c : Char) : List Char :=
  if unreserved c then [c] else (utf8Bytes c).flatMap percentEncode

/-- What the escapes of a character stand for. -/
def escapedChar (c : Char) : List (Char ⊕ Nat) :=
  if unreserved c then [.inl c] else (utf8Bytes c).map .inr

theorem encodeURIComponent_cons (c : Char) (s : List Char) :
    encodeURIComponent (c :: s) = encodeChar c ++ encodeURIComponent s := List.flatMap_cons

theorem hexValue_hexDigit : ∀ n < 16, hexValue (hexDigit n) = some n := by decide

theorem toNat_lt_max (c : Char) : c.toNat < 0x110000 := by
  rcases c.valid with h | h
  · exact h.trans (by decide)
  · exact h.2

theorem utf8Bytes_lt (c : Char) : ∀ b ∈ utf8Bytes c, b < 256 := by
  have hmax := toNat_lt_max c
  intro b hb
  simp only [utf8Bytes] at hb
  split_ifs at hb <;> simp only [List.mem_cons, List.not_mem_nil, or_false] at hb <;> omega

theorem unreserved_ne_percent {c : Char} (h : unreserved c = true) : c ≠ '%' := by
  rintro rfl
  exact absurd h (by decide)

/-- An escape is read as its byte. -/
theorem readEscapes_percentEncode {b : Nat} (h : b < 256) (s : List Char) :
    readEscapes (percentEncode b ++ s) = (readEscapes s).map (.inr b :: ·) := by
  have hhigh := hexValue_hexDigit (b / 16) (by omega)
  have hlow := hexValue_hexDigit (b % 16) (by omega)
  have hbyte : 16 * (b / 16) + b % 16 = b := by omega
  simp only [percentEncode, List.cons_append, List.nil_append, readEscapes, hhigh, hlow, hbyte]

theorem readEscapes_bytes (bs : List Nat) (h : ∀ b ∈ bs, b < 256) (s : List Char) :
    readEscapes (bs.flatMap percentEncode ++ s) = (readEscapes s).map (bs.map .inr ++ ·) := by
  induction bs with
  | nil =>
      rw [List.flatMap_nil, List.nil_append, List.map_nil]
      exact Option.map_id'.symm
  | cons b bs ih =>
      have hbs := ih (fun b' hb' => h b' (List.mem_cons_of_mem _ hb'))
      rw [List.flatMap_cons, List.append_assoc, readEscapes_percentEncode (h b List.mem_cons_self),
        hbs, Option.map_map]
      rfl

/-- The first stage on the encoding of a character. -/
theorem readEscapes_encodeChar (c : Char) (s : List Char) :
    readEscapes (encodeChar c ++ s) = (readEscapes s).map (escapedChar c ++ ·) := by
  unfold encodeChar escapedChar
  by_cases h : unreserved c = true
  · rw [if_pos h, if_pos h, List.singleton_append]
    have hne := unreserved_ne_percent h
    rw [readEscapes]
    · rfl
    · rintro a b rest heq _
      exact hne heq
    · rintro heq
      exact hne heq
  · rw [if_neg h, if_neg h]
    exact readEscapes_bytes _ (utf8Bytes_lt c) s

theorem readEscapes_encode (s : List Char) :
    readEscapes (encodeURIComponent s) = some (s.flatMap escapedChar) := by
  induction s with
  | nil => rfl
  | cons c s ih => rw [encodeURIComponent_cons, readEscapes_encodeChar, ih]; rfl

section Utf8

variable {acc low x : Nat} (rest : List (Char ⊕ Nat))

/-- A continuation byte with more to come. -/
theorem readUtf8_tail (need : Nat) (hx : x < 64) :
    readUtf8 (need + 2) acc low (.inr (0x80 + x) :: rest)
      = readUtf8 (need + 1) (acc * 64 + x) low rest := by
  have hbyte : ¬ (0x80 + x < 0x80 ∨ 0xC0 ≤ 0x80 + x) := by omega
  have hpart : acc * 64 + (0x80 + x - 0x80) = acc * 64 + x := by omega
  rw [readUtf8, if_neg hbyte]
  simp only [hpart, Nat.add_eq_zero_iff, one_ne_zero, and_false, if_false]

/-- The last continuation byte of a character. -/
theorem readUtf8_last (c : Char) (hx : x < 64) (hc : acc * 64 + x = c.toNat)
    (hlow : low ≤ c.toNat) :
    readUtf8 1 acc low (.inr (0x80 + x) :: rest) = (readUtf8 0 0 0 rest).map (c :: ·) := by
  have hbyte : ¬ (0x80 + x < 0x80 ∨ 0xC0 ≤ 0x80 + x) := by omega
  have hpart : acc * 64 + (0x80 + x - 0x80) = c.toNat := by omega
  have hvalid : c.toNat.isValidChar := c.valid
  rw [readUtf8, if_neg hbyte]
  simp only [hpart, hlow, hvalid, and_self, if_true, Char.ofNat_toNat]

/-- The second stage on the bytes of a character. -/
theorem readUtf8_utf8Bytes (c : Char) :
    readUtf8 0 0 0 ((utf8Bytes c).map .inr ++ rest) = (readUtf8 0 0 0 rest).map (c :: ·) := by
  have hmax : c.toNat < 0x110000 := toNat_lt_max c
  simp only [utf8Bytes]
  split_ifs with h1 h2 h3
  · -- One byte is the character itself.
    rw [List.map_singleton, List.singleton_append, readUtf8, if_pos h1, Char.ofNat_toNat]
  · have hb1 : ¬ 0xC0 + c.toNat / 64 < 0x80 := by omega
    have hb2 : ¬ 0xC0 + c.toNat / 64 < 0xC0 := by omega
    have hb3 : 0xC0 + c.toNat / 64 < 0xE0 := by omega
    simp only [List.map_cons, List.map_nil, List.cons_append, List.nil_append]
    rw [readUtf8, if_neg hb1, if_neg hb2, if_pos hb3]
    exact readUtf8_last rest c (by omega) (by omega) (by omega)
  · have hb1 : ¬ 0xE0 + c.toNat / 4096 < 0x80 := by omega
    have hb2 : ¬ 0xE0 + c.toNat / 4096 < 0xC0 := by omega
    have hb3 : ¬ 0xE0 + c.toNat / 4096 < 0xE0 := by omega
    have hb4 : 0xE0 + c.toNat / 4096 < 0xF0 := by omega
    simp only [List.map_cons, List.map_nil, List.cons_append, List.nil_append]
    rw [readUtf8, if_neg hb1, if_neg hb2, if_neg hb3, if_pos hb4, readUtf8_tail _ 0 (by omega)]
    exact readUtf8_last rest c (by omega) (by omega) (by omega)
  · have hb1 : ¬ 0xF0 + c.toNat / 262144 < 0x80 := by omega
    have hb2 : ¬ 0xF0 + c.toNat / 262144 < 0xC0 := by omega
    have hb3 : ¬ 0xF0 + c.toNat / 262144 < 0xE0 := by omega
    have hb4 : ¬ 0xF0 + c.toNat / 262144 < 0xF0 := by omega
    have hb5 : 0xF0 + c.toNat / 262144 < 0xF8 := by omega
    simp only [List.map_cons, List.map_nil, List.cons_append, List.nil_append]
    rw [readUtf8, if_neg hb1, if_neg hb2, if_neg hb3, if_neg hb4, if_pos hb5,
      readUtf8_tail _ 1 (by omega), readUtf8_tail _ 0 (by omega)]
    exact readUtf8_last rest c (by omega) (by omega) (by omega)

theorem readUtf8_escapedChar (c : Char) :
    readUtf8 0 0 0 (escapedChar c ++ rest) = (readUtf8 0 0 0 rest).map (c :: ·) := by
  unfold escapedChar
  by_cases h : unreserved c = true
  · rw [if_pos h, List.singleton_append, readUtf8]
  · rw [if_neg h]
    exact readUtf8_utf8Bytes rest c

end Utf8

/-- Decoding undoes encoding. -/
theorem decode_encode (s : List Char) : decodeURIComponent (encodeURIComponent s) = some s := by
  unfold decodeURIComponent
  rw [readEscapes_encode, Option.bind_some]
  induction s with
  | nil => rfl
  | cons c s ih =>
      rw [List.flatMap_cons, readUtf8_escapedChar, ih]
      rfl

section Delimiters

/-- The characters of an encoding. -/
def encodingChar (c : Char) : Bool := unreserved c || c == '%'

theorem hexDigit_unreserved : ∀ n < 16, unreserved (hexDigit n) = true := by decide

theorem percentEncode_chars {b : Nat} (h : b < 256) :
    ∀ c ∈ percentEncode b, encodingChar c = true := by
  have hhigh := hexDigit_unreserved (b / 16) (by omega)
  have hlow := hexDigit_unreserved (b % 16) (by omega)
  intro c hc
  simp only [percentEncode, List.mem_cons, List.not_mem_nil, or_false] at hc
  rcases hc with rfl | rfl | rfl
  · rfl
  · rw [encodingChar, hhigh, Bool.true_or]
  · rw [encodingChar, hlow, Bool.true_or]

/-- An encoding has no delimiter and no white space, whatever it encodes. -/
theorem encode_chars (s : List Char) : ∀ c ∈ encodeURIComponent s, encodingChar c = true := by
  intro c hc
  rcases List.mem_flatMap.mp hc with ⟨d, _, hmem⟩
  by_cases h : unreserved d = true
  · rw [if_pos h, List.mem_singleton] at hmem
    rw [hmem, encodingChar, h, Bool.true_or]
  · rw [if_neg h] at hmem
    rcases List.mem_flatMap.mp hmem with ⟨b, hb, hcb⟩
    exact percentEncode_chars (utf8Bytes_lt d b hb) c hcb

end Delimiters

end ClickScope
