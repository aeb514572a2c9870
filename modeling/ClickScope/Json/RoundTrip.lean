import ClickScope.Json.Text

/-!
# Reading Back What Was Written

`JSON.parse` undoes `JSON.stringify` on every value that JSON can say.

Each lemma puts the text of something in front of an arbitrary rest and reads
it off: a character of a string, a number, a value. A number is the only token
that does not show its own end, so the rest must not go on with it; marks and
closing brackets never do.

The reader counts its steps. No value needs more steps than its text has
characters, which is what the induction carries.

## Main definitions

* `Writable`: The values JSON can say, with numbers that have texts and with
  objects that have no name twice.
* `text`: The text of a writable value.

## Theorems

* `readString_quote`: A text in quotes is read back.
* `readValue_text`: A value is read off the front of a text.
* `parse_stringify`: A value is read back.
-/

namespace Json

open Zod

section Strings

theorem readString_short {c e : Char} (hu : c ≠ 'u') (h : shortEscape c = some e)
    (s : List Char) :
    readString ('\\' :: c :: s) = (readString s).map (fun r => (.inl e :: r.1, r.2)) := by
  rw [readString]
  · simp only [h]
  · rintro a b c' d rest heq _
    exact hu heq

theorem readString_plain {c : Char} (hquote : c ≠ '"') (hslash : c ≠ '\\')
    (hcontrol : ¬ c.toNat < 0x20) (s : List Char) :
    readString (c :: s) = (readString s).map (fun r => (.inl c :: r.1, r.2)) := by
  rw [readString, if_neg (not_or.mpr ⟨hcontrol, hslash⟩)]
  · exact hquote
  · rintro _ _ _ _ _ heq _
    exact hslash heq
  · rintro _ _ heq _
    exact hslash heq

theorem hexUnit_control : ∀ n < 32,
    hexUnit '0' '0' (Nat.digitChar (n / 16)) (Nat.digitChar (n % 16)) = some n := by decide

theorem ofNat_of_toNat {c : Char} {n : Nat} (h : c.toNat = n) : Char.ofNat n = c := by
  rw [← h, Char.ofNat_toNat]

/-- A character is read as itself, or as the unit of its escape. -/
theorem readString_escapeChar (c : Char) : ∃ u : Char ⊕ Nat,
    (u = .inl c ∨ (u = .inr c.toNat ∧ c.toNat < 0x20)) ∧
    ∀ s, readString (escapeChar c ++ s) = (readString s).map (fun r => (u :: r.1, r.2)) := by
  unfold escapeChar
  split_ifs with h1 h2 h3 h4 h5 h6 h7 h8
  · exact ⟨.inl c, Or.inl rfl, readString_short (by decide) (h1.symm ▸ rfl)⟩
  · exact ⟨.inl c, Or.inl rfl, readString_short (by decide) (h2.symm ▸ rfl)⟩
  · exact ⟨.inl c, Or.inl rfl,
      readString_short (by decide) (congrArg some (ofNat_of_toNat h3))⟩
  · exact ⟨.inl c, Or.inl rfl,
      readString_short (by decide) (congrArg some (ofNat_of_toNat h4))⟩
  · exact ⟨.inl c, Or.inl rfl,
      readString_short (by decide) (congrArg some (ofNat_of_toNat h5))⟩
  · exact ⟨.inl c, Or.inl rfl,
      readString_short (by decide) (congrArg some (ofNat_of_toNat h6))⟩
  · exact ⟨.inl c, Or.inl rfl,
      readString_short (by decide) (congrArg some (ofNat_of_toNat h7))⟩
  · -- The other control characters are escaped by their units.
    refine ⟨.inr c.toNat, Or.inr ⟨rfl, h8⟩, fun s => ?_⟩
    simp only [List.cons_append, List.nil_append, readString, hexUnit_control c.toNat h8]
  · exact ⟨.inl c, Or.inl rfl, readString_plain h1 h2 h8⟩

theorem joinUnits_cons {c : Char} {u : Char ⊕ Nat} {us : List (Char ⊕ Nat)}
    (h : u = .inl c ∨ (u = .inr c.toNat ∧ c.toNat < 0x20)) :
    joinUnits none (u :: us) = c :: joinUnits none us := by
  rcases h with rfl | ⟨rfl, hlt⟩
  · rw [joinUnits]
  · have hunit : unitChar c.toNat = c := by
      have hvalid : c.toNat.isValidChar := c.valid
      rw [unitChar, if_pos hvalid, Char.ofNat_toNat]
    rw [joinUnits, if_neg (by omega), hunit]

/-- A text in quotes is read back. -/
theorem readString_quote (s rest : List Char) : ∃ us,
    readString (s.flatMap escapeChar ++ '"' :: rest) = some (us, rest) ∧ joinUnits none us = s := by
  induction s with
  | nil => exact ⟨[], rfl, rfl⟩
  | cons c s ih =>
      rcases ih with ⟨us, hread, hjoin⟩
      rcases readString_escapeChar c with ⟨u, hu, hchar⟩
      refine ⟨u :: us, ?_, ?_⟩
      · rw [List.flatMap_cons, List.append_assoc, hchar, hread, Option.map_some]
      · rw [joinUnits_cons hu, hjoin]

end Strings

section Values

mutual

/-- A value that JSON can say, with a text for every number, and no name twice
    in any object. -/
def Writable : JsValue → Prop
  | .undefined => False
  | .null => True
  | .boolean _ => True
  | .number (.finite q) => HasText q
  | .number _ => False
  | .string _ => True
  | .date _ => False
  | .array items => WritableItems items
  | .object fields => (fields.map (·.1)).Nodup ∧ WritableFields fields

def WritableItems : List JsValue → Prop
  | [] => True
  | item :: rest => Writable item ∧ WritableItems rest

def WritableFields : List (String × JsValue) → Prop
  | [] => True
  | (_, v) :: rest => Writable v ∧ WritableFields rest

end

/-- The text of a writable value. -/
def text (v : JsValue) : List Char := (stringify v).getD nullText

theorem stringify_text {v : JsValue} (h : Writable v) : stringify v = some (text v) := by
  cases v with
  | undefined => exact h.elim
  | number n => cases n <;> rfl
  | _ => rfl

theorem skipSpace_starts {c : Char} (h : isSpace c = false) (s : List Char) :
    skipSpace (c :: s) = c :: s :=
  List.dropWhile_cons_of_neg (Bool.eq_false_iff.mp h)

theorem mark_self {c : Char} (h : isSpace c = false) (s : List Char) :
    mark c (c :: s) = some s := by
  simp only [mark, skipSpace_starts h, if_true]

theorem mark_other {c d : Char} (h : isSpace d = false) (hne : d ≠ c) (s : List Char) :
    mark c (d :: s) = none := by
  simp only [mark, skipSpace_starts h, if_neg hne]

theorem writableItems_iff {items : List JsValue} :
    WritableItems items ↔ ∀ v ∈ items, Writable v := by
  induction items with
  | nil => exact ⟨fun _ _ hv => (by cases hv), fun _ => trivial⟩
  | cons v items ih => rw [WritableItems, ih, List.forall_mem_cons]

theorem writableFields_iff {fields : List (String × JsValue)} :
    WritableFields fields ↔ ∀ f ∈ fields, Writable f.2 := by
  induction fields with
  | nil => exact ⟨fun _ _ hf => (by cases hf), fun _ => trivial⟩
  | cons f fields ih => rw [WritableFields, ih, List.forall_mem_cons]

theorem stringifyItems_text (items : List JsValue) : stringifyItems items = items.map text := by
  induction items with
  | nil => rfl
  | cons v items ih => rw [stringifyItems, ih, List.map_cons, text]

/-- The text of a member of an object. -/
def memberText (f : String × JsValue) : List Char := quote f.1.toList ++ ':' :: text f.2

theorem stringifyFields_text {fields : List (String × JsValue)}
    (h : ∀ f ∈ fields, Writable f.2) : stringifyFields fields = fields.map memberText := by
  induction fields with
  | nil => rfl
  | cons f fields ih =>
      rw [List.forall_mem_cons] at h
      simp only [stringifyFields, stringify_text h.1, ih h.2, List.map_cons, memberText]

theorem space_digit : ∀ c ∈ [' ', '\t', '\n', '\r'], c.isDigit = false := by
  have hall : [' ', '\t', '\n', '\r'].all (fun c => !c.isDigit) = true := by decide
  exact fun c hc => Bool.not_eq_true' _ ▸ (List.all_eq_true.mp hall c hc)

/-- The text of a value begins with no white space and no closing bracket. -/
theorem text_start {v : JsValue} (h : Writable v) :
    ∃ c s, text v = c :: s ∧ isSpace c = false ∧ c ≠ ']' := by
  cases v with
  | undefined => exact h.elim
  | null => exact ⟨'n', _, rfl, by decide, by decide⟩
  | boolean b =>
      cases b with
      | true => exact ⟨'t', _, rfl, by decide, by decide⟩
      | false => exact ⟨'f', _, rfl, by decide, by decide⟩
  | number n =>
      cases n with
      | finite q =>
          -- A digit or a sign is neither a space nor a bracket.
          rcases numberText_start h with ⟨c, s, htext, hdigit | rfl⟩
          · refine ⟨c, s, htext, ?_, ?_⟩
            · rw [isSpace, decide_eq_false_iff_not]
              exact fun hmem => Bool.eq_false_iff.mp (space_digit c hmem) hdigit
            · rintro rfl
              exact absurd hdigit (by decide)
          · exact ⟨'-', s, htext, by decide, by decide⟩
      | _ => exact h.elim
  | string s => exact ⟨'"', _, rfl, by decide, by decide⟩
  | date time => exact h.elim
  | array items => exact ⟨'[', _, rfl, by decide, by decide⟩
  | object fields => exact ⟨'{', _, rfl, by decide, by decide⟩

end Values

section Reading

variable {fuel : Nat} (rest : List Char)

/-- The value is read off the front of any text that its own stands in. -/
def Reads (v : JsValue) : Prop :=
  ∀ fuel rest, Ends rest → (text v).length < fuel → readValue fuel (text v ++ rest) = some (v, rest)

theorem ends_mark {c : Char} (h : c = ',' ∨ c = ']' ∨ c = '}') (s : List Char) : Ends (c :: s) := by
  intro d hd
  rw [List.head?_cons, Option.mem_some_iff] at hd
  rw [← hd]
  rcases h with rfl | rfl | rfl <;> decide

/-- The items of an array are read up to its end. -/
theorem readItems_text {items : List JsValue} (hreads : ∀ v ∈ items, Reads v) (hne : items ≠ [])
    (hfuel : ([','].intercalate (items.map text)).length + 1 < fuel) :
    readItems fuel ([','].intercalate (items.map text) ++ ']' :: rest) = some (items, rest) := by
  induction items generalizing fuel with
  | nil => exact absurd rfl hne
  | cons v items ih =>
      rw [List.forall_mem_cons] at hreads
      rcases fuel with _ | fuel
      · omega
      · cases items with
        | nil =>
            rw [List.map_singleton, List.intercalate_singleton] at hfuel ⊢
            -- the last item, which the bracket ends
            have hv := hreads.1 fuel (']' :: rest) (ends_mark (by decide) rest) (by omega)
            simp only [readItems, hv, mark_other (c := ',') (d := ']') (by decide) (by decide),
              mark_self (c := ']') (by decide), Option.map_some]
        | cons v' items =>
            rw [List.map_cons, List.map_cons, List.intercalate_cons_cons,
              ← List.map_cons] at hfuel ⊢
            rw [List.length_append, List.length_append, List.length_singleton] at hfuel
            have hv := hreads.1 fuel
              (',' :: ([','].intercalate ((v' :: items).map text) ++ ']' :: rest))
              (ends_mark (by decide) _) (by omega)
            -- The comma ends an item, and the rest is shorter by it.
            have hrest := @ih fuel hreads.2 (List.cons_ne_nil _ _) (by omega)
            rw [List.append_assoc, List.append_assoc, List.singleton_append]
            simp only [readItems, hv, mark_self (c := ',') (by decide), hrest, Option.map_some]

/-- The members of an object are read up to its end. -/
theorem readMembers_text {fields : List (String × JsValue)} (hreads : ∀ f ∈ fields, Reads f.2)
    (hne : fields ≠ [])
    (hfuel : ([','].intercalate (fields.map memberText)).length + 1 < fuel) :
    readMembers fuel ([','].intercalate (fields.map memberText) ++ '}' :: rest)
      = some (fields, rest) := by
  -- A member is its name in quotes, a colon and its value.
  have hmember : ∀ (f : String × JsValue) (s : List Char), ∃ us,
      (mark '"' (memberText f ++ s)).bind readString = some (us, ':' :: (text f.2 ++ s)) ∧
      unescape us = f.1 := by
    intro f s
    rcases readString_quote f.1.toList (':' :: (text f.2 ++ s)) with ⟨us, hread, hjoin⟩
    refine ⟨us, ?_, by rw [unescape, hjoin, String.ofList_toList]⟩
    rw [memberText, quote, List.append_assoc, List.cons_append, List.cons_append, List.append_assoc,
      mark_self (by decide), Option.bind_some]
    exact hread
  induction fields generalizing fuel with
  | nil => exact absurd rfl hne
  | cons f fields ih =>
      rw [List.forall_mem_cons] at hreads
      rcases fuel with _ | fuel
      · omega
      · have hlen : (text f.2).length < (memberText f).length := by
          rw [memberText, List.length_append, List.length_cons]
          omega
        cases fields with
        | nil =>
            rw [List.map_singleton, List.intercalate_singleton] at hfuel ⊢
            rcases hmember f ('}' :: rest) with ⟨us, hkey, hname⟩
            have hv := hreads.1 fuel ('}' :: rest) (ends_mark (by decide) rest) (by omega)
            simp only [readMembers, hkey, mark_self (c := ':') (by decide), Option.bind_some, hv,
              mark_other (c := ',') (d := '}') (by decide) (by decide),
              mark_self (c := '}') (by decide), Option.map_some, hname]
        | cons f' fields =>
            rw [List.map_cons, List.map_cons, List.intercalate_cons_cons,
              ← List.map_cons] at hfuel ⊢
            rw [List.length_append, List.length_append, List.length_singleton] at hfuel
            rcases hmember f (',' :: ([','].intercalate ((f' :: fields).map memberText)
              ++ '}' :: rest)) with ⟨us, hkey, hname⟩
            have hv := hreads.1 fuel
              (',' :: ([','].intercalate ((f' :: fields).map memberText) ++ '}' :: rest))
              (ends_mark (by decide) _) (by omega)
            have hrest := @ih fuel hreads.2 (List.cons_ne_nil _ _) (by omega)
            rw [List.append_assoc, List.append_assoc, List.singleton_append]
            simp only [readMembers, hkey, mark_self (c := ':') (by decide), Option.bind_some, hv,
              mark_self (c := ',') (by decide), hrest, Option.map_some, hname]

/-- A word is read off the front of a text. -/
theorem word_append (w s : List Char) (v : JsValue) : word w v (w ++ s) = some (v, s) := by
  rw [word, if_pos (List.isPrefixOf_iff_prefix.mpr (List.prefix_append w s)), List.drop_left]

/-- A value that is not in quotes or brackets, and is no word, is a number. -/
theorem readValue_number {c : Char} {s : List Char} (h : c.isDigit = true ∨ c = '-') :
    readValue (fuel + 1) (c :: s) = (readNumber (c :: s)).map (fun r => (.number r.1, r.2)) := by
  have hne : ∀ d : Char, d.isDigit = false → d ≠ '-' → c ≠ d := by
    rintro d hdigit hsign rfl
    rcases h with h | h
    · rw [h] at hdigit
      cases hdigit
    · exact hsign h
  have hspace : isSpace c = false := by
    rw [isSpace, decide_eq_false_iff_not]
    intro hmem
    rcases h with h | rfl
    · exact Bool.eq_false_iff.mp (space_digit c hmem) h
    · exact absurd hmem (by decide)
  simp only [readValue, skipSpace_starts hspace, if_neg (hne '"' (by decide) (by decide)),
    if_neg (hne '[' (by decide) (by decide)), if_neg (hne '{' (by decide) (by decide)),
    if_neg (hne 'n' (by decide) (by decide)), if_neg (hne 't' (by decide) (by decide)),
    if_neg (hne 'f' (by decide) (by decide))]

theorem readValue_word {w : List Char} {v : JsValue} (s : List Char)
    (h : (w, v) ∈ [(nullText, .null), ("true".toList, .boolean true),
      ("false".toList, .boolean false)]) :
    readValue (fuel + 1) (w ++ s) = some (v, s) := by
  simp only [List.mem_cons, Prod.mk.injEq, List.not_mem_nil, or_false] at h
  rcases h with ⟨rfl, rfl⟩ | ⟨rfl, rfl⟩ | ⟨rfl, rfl⟩
  · exact word_append nullText s .null
  · exact word_append "true".toList s (.boolean true)
  · exact word_append "false".toList s (.boolean false)

/-- No bracket closes what goes on with a value. -/
theorem mark_text {items : List JsValue} (h : ∀ v ∈ items, Writable v) (hne : items ≠ [])
    (s : List Char) : mark ']' ([','].intercalate (items.map text) ++ s) = none := by
  cases items with
  | nil => exact absurd rfl hne
  | cons v items =>
      rcases text_start (h v List.mem_cons_self) with ⟨c, t, htext, hspace, hbracket⟩
      rw [List.map_cons, htext, List.intercalate_cons_cons_left]
      exact mark_other hspace hbracket _

/-- A value is read off the front of a text. -/
theorem readValue_text {v : JsValue} (h : Writable v) : Reads v := by
  induction v using JsValue.induct with
  | undefined => exact h.elim
  | date time => exact h.elim
  | null =>
      intro fuel rest _ hfuel
      rcases fuel with _ | fuel
      · omega
      · exact readValue_word rest List.mem_cons_self
  | boolean b =>
      intro fuel rest _ hfuel
      rcases fuel with _ | fuel
      · omega
      · cases b with
        | true => exact readValue_word rest (List.mem_cons_of_mem _ List.mem_cons_self)
        | false =>
            exact readValue_word rest
              (List.mem_cons_of_mem _ (List.mem_cons_of_mem _ List.mem_cons_self))
  | number n =>
      intro fuel rest hrest hfuel
      rcases fuel with _ | fuel
      · omega
      · cases n with
        | finite q =>
            -- A numeral begins with a digit or a sign, so no other kind of value is tried.
            rcases numberText_start h with ⟨c, s, htext, hstart⟩
            have hread := readNumber_numberText h hrest
            change readValue (fuel + 1) (numberText q ++ rest) = _
            rw [htext, List.cons_append] at hread ⊢
            rw [readValue_number hstart, hread, Option.map_some]
        | _ => exact h.elim
  | string s =>
      intro fuel rest _ hfuel
      rcases fuel with _ | fuel
      · omega
      · -- The escapes are read back unit by unit, and the units joined again.
        rcases readString_quote s.toList rest with ⟨us, hread, hjoin⟩
        have htext : text (.string s) ++ rest
            = '"' :: (s.toList.flatMap escapeChar ++ '"' :: rest) := by
          change '"' :: (s.toList.flatMap escapeChar ++ ['"']) ++ rest = _
          rw [List.cons_append, List.append_assoc, List.singleton_append]
        rw [htext]
        simp only [readValue, skipSpace_starts (c := '"') (by decide), if_true, hread,
          Option.map_some, unescape, hjoin, String.ofList_toList]
  | array items ih =>
      intro fuel rest _ hfuel
      rcases fuel with _ | fuel
      · omega
      · have hw := writableItems_iff.mp h
        have htext : text (.array items) ++ rest
            = '[' :: ([','].intercalate (items.map text) ++ ']' :: rest) := by
          change '[' :: ([','].intercalate (stringifyItems items) ++ [']']) ++ rest = _
          rw [stringifyItems_text, List.cons_append, List.append_assoc, List.singleton_append]
        rw [htext]
        by_cases hnil : items = []
        · rw [hnil]
          rfl
        · -- The items are shorter than the array, so the fuel that is left is enough for them.
          have hlen : ([','].intercalate (items.map text)).length + 1 < fuel := by
            have hall := congrArg List.length htext
            rw [List.length_append, List.length_cons, List.length_append, List.length_cons] at hall
            omega
          have hread := readItems_text rest (fun v hv => ih v hv (hw v hv)) hnil hlen
          simp only [readValue, skipSpace_starts (c := '[') (by decide), mark_text hw hnil, hread,
            Option.map_some, if_true, Char.reduceEq, if_false]
  | object fields ih =>
      intro fuel rest _ hfuel
      rcases fuel with _ | fuel
      · omega
      · have hw := writableFields_iff.mp h.2
        have htext : text (.object fields) ++ rest
            = '{' :: ([','].intercalate (fields.map memberText) ++ '}' :: rest) := by
          change '{' :: ([','].intercalate (stringifyFields fields) ++ ['}']) ++ rest = _
          rw [stringifyFields_text hw, List.cons_append, List.append_assoc, List.singleton_append]
        rw [htext]
        by_cases hnil : fields = []
        · rw [hnil]
          rfl
        · have hlen : ([','].intercalate (fields.map memberText)).length + 1 < fuel := by
            have hall := congrArg List.length htext
            rw [List.length_append, List.length_cons, List.length_append, List.length_cons] at hall
            omega
          have hread := readMembers_text rest (fun f hf => ih f hf (hw f hf)) hnil hlen
          -- A field begins with a quote, so the object is not taken for an empty one.
          have hmark : mark '}' ([','].intercalate (fields.map memberText) ++ '}' :: rest)
              = none := by
            rcases fields with _ | ⟨f, fields⟩
            · exact absurd rfl hnil
            · rw [List.map_cons, memberText, quote, List.cons_append,
                List.intercalate_cons_cons_left]
              exact mark_other (by decide) (by decide) _
          simp only [readValue, skipSpace_starts (c := '{') (by decide), hmark, hread,
            Option.map_some, if_true, Char.reduceEq, if_false, ownFields_nodup h.1]

/-- A value is read back from its text. -/
theorem parse_stringify {v : JsValue} (h : Writable v) : (stringify v).bind parse = some v := by
  have hread := readValue_text h (2 * (text v).length + 2) [] (fun c hc => by cases hc) (by omega)
  rw [List.append_nil] at hread
  rw [stringify_text h, Option.bind_some, parse, hread]
  rfl

end Reading

end Json
