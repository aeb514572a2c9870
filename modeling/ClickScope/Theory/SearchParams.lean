import ClickScope.Core.SearchParams
import ClickScope.Theory.PercentCoding

/-!
# Query Strings Are Read Back

Parsing undoes writing: the parameters of a query string that was written from
a list are that list, with every name and value, in order.

The decoder of bytes is a machine with a state between two bytes of a
character. On the bytes of a character it goes through the states of that
character alone and is back at the start, so that a text is decoded character
by character.

## Main definitions

* `formChar`: The characters of a written name or value.

## Theorems

* `decodeLossy_utf8Bytes`: The decoder on the bytes of a character.
* `formDecode_formWrite`: A name or a value is read back.
* `parseParams_serializeParams`: A list of parameters is read back.
-/

namespace ClickScope

section Decoding

variable {lower upper b : Nat} (acc : Nat) (rest : List Nat)

/-- A byte that begins a character and does not end it. -/
theorem decodeLossy_lead {s : Utf8State} (h : Utf8State.lead b = ([], s)) :
    decodeLossy Utf8State.start (b :: rest) = decodeLossy s rest := by
  have hstep : Utf8State.start.step b = Utf8State.lead b := rfl
  rw [decodeLossy, hstep, h, List.nil_append]

/-- A byte within the bounds, with more to come. -/
theorem decodeLossy_more (need : Nat) (hlow : lower ≤ b) (hhigh : b ≤ upper) :
    decodeLossy ⟨need + 2, acc, lower, upper⟩ (b :: rest)
      = decodeLossy ⟨need + 1, acc * 64 + (b - 0x80), 0x80, 0xBF⟩ rest := by
  have hneed : ¬ need + 2 = 0 := by omega
  have hlast : ¬ need + 2 = 1 := by omega
  rw [decodeLossy, Utf8State.step]
  simp only [if_neg hneed, hlow, hhigh, and_self, if_true, if_neg hlast, Nat.add_succ_sub_one,
    List.nil_append]

/-- The last byte of a character. -/
theorem decodeLossy_last {c : Char} (hlow : lower ≤ b) (hhigh : b ≤ upper)
    (hc : acc * 64 + (b - 0x80) = c.toNat) :
    decodeLossy ⟨1, acc, lower, upper⟩ (b :: rest) = c :: decodeLossy Utf8State.start rest := by
  rw [decodeLossy, Utf8State.step]
  simp only [one_ne_zero, if_false, hlow, hhigh, and_self, if_true, hc, Char.ofNat_toNat,
    List.singleton_append]

/-- No character is a surrogate. -/
theorem toNat_not_surrogate (c : Char) : c.toNat < 0xD800 ∨ 0xDFFF < c.toNat :=
  c.valid.imp id And.left

/-- The decoder on the bytes of a character. -/
theorem decodeLossy_utf8Bytes (c : Char) :
    decodeLossy Utf8State.start (utf8Bytes c ++ rest) = c :: decodeLossy Utf8State.start rest := by
  have hmax := toNat_lt_max c
  have hscalar := toNat_not_surrogate c
  simp only [utf8Bytes]
  split_ifs with h1 h2 h3
  · have hbyte : Utf8State.start.step c.toNat = ([c], Utf8State.start) := by
      change Utf8State.lead c.toNat = _
      rw [Utf8State.lead, if_pos h1, Char.ofNat_toNat]
    rw [List.singleton_append, decodeLossy, hbyte, List.singleton_append]
  · have hbyte : Utf8State.lead (0xC0 + c.toNat / 64) = ([], ⟨1, c.toNat / 64, 0x80, 0xBF⟩) := by
      rw [Utf8State.lead, if_neg (by omega), if_pos (by omega), Nat.add_sub_cancel_left]
    rw [List.cons_append, decodeLossy_lead _ hbyte]
    exact decodeLossy_last _ rest (by omega) (by omega) (by omega)
  · -- The bounds of the second byte depend on the first one: it keeps the
    -- character above the shorter ones and away from the surrogates.
    have hbyte : Utf8State.lead (0xE0 + c.toNat / 4096) = ([], ⟨2, c.toNat / 4096,
        if 0xE0 + c.toNat / 4096 = 0xE0 then 0xA0 else 0x80,
        if 0xE0 + c.toNat / 4096 = 0xED then 0x9F else 0xBF⟩) := by
      rw [Utf8State.lead, if_neg (by omega), if_neg (by omega), if_pos (by omega),
        Nat.add_sub_cancel_left]
    rw [List.cons_append, decodeLossy_lead _ hbyte, List.cons_append, decodeLossy_more]
    · exact decodeLossy_last _ rest (by omega) (by omega) (by omega)
    · split_ifs <;> omega
    · split_ifs <;> omega
  · have hbyte : Utf8State.lead (0xF0 + c.toNat / 262144) = ([], ⟨3, c.toNat / 262144,
        if 0xF0 + c.toNat / 262144 = 0xF0 then 0x90 else 0x80,
        if 0xF0 + c.toNat / 262144 = 0xF4 then 0x8F else 0xBF⟩) := by
      rw [Utf8State.lead, if_neg (by omega), if_neg (by omega), if_neg (by omega),
        if_pos (by omega), Nat.add_sub_cancel_left]
    rw [List.cons_append, decodeLossy_lead _ hbyte, List.cons_append, decodeLossy_more,
      List.cons_append, decodeLossy_more]
    · exact decodeLossy_last _ rest (by omega) (by omega) (by omega)
    · omega
    · omega
    · split_ifs <;> omega
    · split_ifs <;> omega

theorem decodeLossy_text (s : List Char) :
    decodeLossy Utf8State.start (s.flatMap utf8Bytes) = s := by
  induction s with
  | nil => rfl
  | cons c s ih => rw [List.flatMap_cons, decodeLossy_utf8Bytes, ih]

end Decoding

section Values

/-- The characters of a written name or value. -/
def formChar (c : Char) : Bool := formPlain c || c == '+' || c == '%'

theorem formPlain_ne {c d : Char} (h : formPlain c = true) (hd : formPlain d = false) : c ≠ d := by
  rintro rfl
  rw [h] at hd
  cases hd

/-- A character that is no percent sign begins no escape. -/
theorem formBytes_cons {c : Char} (h : c ≠ '%') (s : List Char) :
    formBytes (c :: s) = (if c = '+' then [0x20] else utf8Bytes c) ++ formBytes s := by
  rw [formBytes]
  rintro a b rest heq _
  exact h heq

theorem formBytes_percentEncode {b : Nat} (h : b < 256) (s : List Char) :
    formBytes (percentEncode b ++ s) = b :: formBytes s := by
  have hhigh := hexValue_hexDigit (b / 16) (by omega)
  have hlow := hexValue_hexDigit (b % 16) (by omega)
  have hbyte : 16 * (b / 16) + b % 16 = b := by omega
  simp only [percentEncode, List.cons_append, List.nil_append, formBytes, hhigh, hlow, hbyte]

theorem formBytes_escapes (bs : List Nat) (h : ∀ b ∈ bs, b < 256) (s : List Char) :
    formBytes (bs.flatMap percentEncode ++ s) = bs ++ formBytes s := by
  induction bs with
  | nil => rfl
  | cons b bs ih =>
      have hbs := ih (fun b' hb' => h b' (List.mem_cons_of_mem _ hb'))
      rw [List.flatMap_cons, List.append_assoc, formBytes_percentEncode (h b List.mem_cons_self),
        hbs, List.cons_append]

/-- The bytes of a written text are those of the text. -/
theorem formBytes_formWrite (s : List Char) : formBytes (formWrite s) = s.flatMap utf8Bytes := by
  induction s with
  | nil => rfl
  | cons c s ih =>
      unfold formWrite at ih ⊢
      rw [List.flatMap_cons, List.flatMap_cons]
      by_cases hspace : c = ' '
      · rw [if_pos hspace, hspace, List.singleton_append, formBytes_cons (by decide), ih]
        rfl
      · by_cases hplain : formPlain c = true
        · have hplus : c ≠ '+' := formPlain_ne hplain (by decide)
          have hpercent : c ≠ '%' := formPlain_ne hplain (by decide)
          rw [if_neg hspace, if_pos hplain, List.singleton_append, formBytes_cons hpercent,
            if_neg hplus, ih]
        · rw [if_neg hspace, if_neg hplain, formBytes_escapes _ (utf8Bytes_lt c), ih]

/-- A name or a value is read back. -/
theorem formDecode_formWrite (s : List Char) : formDecode (formWrite s) = s := by
  rw [formDecode, formBytes_formWrite, decodeLossy_text]

theorem hexDigit_formPlain : ∀ n < 16, formPlain (hexDigit n) = true := by decide

/-- A written name or value has no delimiter. -/
theorem formWrite_chars (s : List Char) : ∀ c ∈ formWrite s, formChar c = true := by
  intro c hc
  rcases List.mem_flatMap.mp hc with ⟨d, _, hmem⟩
  by_cases hspace : d = ' '
  · rw [if_pos hspace, List.mem_singleton] at hmem
    rw [hmem]
    rfl
  · by_cases hplain : formPlain d = true
    · rw [if_neg hspace, if_pos hplain, List.mem_singleton] at hmem
      rw [hmem, formChar, hplain, Bool.true_or, Bool.true_or]
    · rw [if_neg hspace, if_neg hplain] at hmem
      rcases List.mem_flatMap.mp hmem with ⟨b, hb, hcb⟩
      -- A byte has two hexadecimal digits, which are plain.
      have hlt := utf8Bytes_lt d b hb
      simp only [percentEncode, List.mem_cons, List.not_mem_nil, or_false] at hcb
      rcases hcb with rfl | rfl | rfl
      · rfl
      · rw [formChar, hexDigit_formPlain _ (by omega), Bool.true_or, Bool.true_or]
      · rw [formChar, hexDigit_formPlain _ (by omega), Bool.true_or, Bool.true_or]

theorem formWrite_ne {s : List Char} {d : Char} (hd : formChar d = false) :
    ∀ c ∈ formWrite s, c ≠ d := by
  rintro c hc rfl
  rw [formWrite_chars s c hc] at hd
  cases hd

end Values

section Lists

/-- A segment of a text is without the separator. -/
theorem mem_splitOn {sep : Char} {xs s : List Char} (h : s ∈ xs.splitOn sep) :
    sep ∉ s ∧ ∀ c ∈ s, c ∈ xs := by
  induction xs generalizing s with
  | nil =>
      rw [List.splitOn_nil, List.mem_singleton] at h
      rw [h]
      exact ⟨List.not_mem_nil, fun _ hc => hc⟩
  | cons d xs ih =>
      rw [List.splitOn_cons_eq_if_modifyHead] at h
      by_cases hd : (d == sep) = true
      · rw [if_pos hd] at h
        rcases List.mem_cons.mp h with rfl | h
        · exact ⟨List.not_mem_nil, fun _ hc => (by cases hc)⟩
        · exact ⟨(ih h).1, fun c hc => List.mem_cons_of_mem d ((ih h).2 c hc)⟩
      · rw [if_neg hd] at h
        -- A character that does not separate goes to the front of the first segment.
        rcases hsplit : xs.splitOn sep with _ | ⟨first, rest⟩
        · exact absurd hsplit (List.splitOn_ne_nil sep xs)
        · rw [hsplit, List.modifyHead_cons] at h
          rw [hsplit, List.forall_mem_cons] at ih
          rcases List.mem_cons.mp h with rfl | h
          · have hne : sep ≠ d := fun heq => hd (beq_iff_eq.mpr heq.symm)
            exact ⟨List.not_mem_cons_of_ne_of_not_mem hne ih.1.1,
              fun c hc => List.mem_cons.mpr ((List.mem_cons.mp hc).imp_right (ih.1.2 c))⟩
          · exact ⟨(ih.2 s h).1, fun c hc => List.mem_cons_of_mem d ((ih.2 s h).2 c hc)⟩

theorem mem_intercalate {sep c : Char} {ss : List (List Char)} (h : c ∈ [sep].intercalate ss) :
    c = sep ∨ ∃ s ∈ ss, c ∈ s := by
  induction ss with
  | nil => cases h
  | cons s ss ih =>
      cases ss with
      | nil =>
          rw [List.intercalate_singleton] at h
          exact Or.inr ⟨s, List.mem_cons_self, h⟩
      | cons s' ss =>
          rw [List.intercalate_cons_cons, List.append_assoc, List.mem_append, List.mem_append,
            List.mem_singleton] at h
          rcases h with h | h | h
          · exact Or.inr ⟨s, List.mem_cons_self, h⟩
          · exact Or.inl h
          · rcases ih h with h | ⟨t, ht, hc⟩
            · exact Or.inl h
            · exact Or.inr ⟨t, List.mem_cons_of_mem s ht, hc⟩

/-- The segment of a written parameter. -/
def segmentOf (p : List Char × List Char) : List Char := formWrite p.1 ++ '=' :: formWrite p.2

theorem parseSegment_segmentOf (p : List Char × List Char) : parseSegment (segmentOf p) = p := by
  have hequals : ∀ c ∈ formWrite p.1, (c != '=') = true :=
    fun c hc => bne_iff_ne.mpr (formWrite_ne (by decide) c hc)
  unfold parseSegment segmentOf
  rw [List.takeWhile_append_of_pos hequals, List.dropWhile_append_of_pos hequals,
    List.takeWhile_cons_of_neg (by decide), List.dropWhile_cons_of_neg (by decide),
    List.append_nil, List.drop_one, List.tail_cons, formDecode_formWrite, formDecode_formWrite]

theorem segmentOf_ne {d : Char} (hd : formChar d = false) (hequals : d ≠ '=')
    (p : List Char × List Char) : ∀ c ∈ segmentOf p, c ≠ d := by
  intro c hc
  unfold segmentOf at hc
  rcases List.mem_append.mp hc with hc | hc
  · exact formWrite_ne hd c hc
  · rcases List.mem_cons.mp hc with rfl | hc
    · exact hequals.symm
    · exact formWrite_ne hd c hc

theorem segmentOf_ne_nil (p : List Char × List Char) : segmentOf p ≠ [] := by
  unfold segmentOf
  exact List.append_ne_nil_of_right_ne_nil _ (List.cons_ne_nil _ _)

/-- The segments of a written query string are those of its parameters. -/
theorem querySegments_serializeParams (params : List (List Char × List Char)) :
    querySegments (serializeParams params) = params.map segmentOf := by
  cases params with
  | nil => rfl
  | cons p params =>
      -- A question mark is never written plain, so none is taken off.
      have hhead : (serializeParams (p :: params)).head? ≠ some '?' := by
        intro heq
        rcases hseg : segmentOf p with _ | ⟨c, rest⟩
        · exact segmentOf_ne_nil p hseg
        · have hc : c ≠ '?' := segmentOf_ne (by decide) (by decide) p c
            (hseg ▸ List.mem_cons_self)
          change (['&'].intercalate ((segmentOf p) :: params.map segmentOf)).head? = _ at heq
          rw [hseg, List.intercalate_cons_cons_left, List.head?_cons, Option.some.injEq] at heq
          exact hc heq
      have hsplit : (serializeParams (p :: params)).splitOn '&' = (p :: params).map segmentOf := by
        refine List.splitOn_intercalate '&' (fun s hs hmem => ?_) (List.cons_ne_nil _ _)
        rcases List.mem_map.mp hs with ⟨p', _, rfl⟩
        exact segmentOf_ne (by decide) (by decide) p' '&' hmem rfl
      unfold querySegments
      rw [if_neg hhead, hsplit, List.filter_eq_self]
      intro s hs
      rcases List.mem_map.mp hs with ⟨p', _, rfl⟩
      exact decide_eq_true (segmentOf_ne_nil p')

/-- A list of parameters is read back. -/
theorem parseParams_serializeParams (params : List (List Char × List Char)) :
    parseParams (serializeParams params) = params := by
  rw [parseParams, querySegments_serializeParams, List.map_map]
  exact List.map_id'' (fun p => parseSegment_segmentOf p) params

end Lists

end ClickScope
