import ClickScope.Core.App
import ClickScope.Zod.Reparse

/-!
# The Short Codes a Link Can Have

Aliases that were accepted and codes that were generated, and what their
characters are good for.

Both kinds are short texts of letters, digits, hyphens and underscores. So a
code is a text of the database, decodes to itself, survives the escaping of
HTML, and is one segment of a path. No code is a prefix that another router is
mounted at: an alias that is one is reserved in any case, and a generated code
is longer.

## Main definitions

* `codeChar`: The characters of short codes.
* `Storable`: The short codes a link can have.

## Theorems

* `accepts_customAlias`: The accepted aliases.
* `storable_chars`, `storable_length`: What every storable code looks like.
* `decode_storable`, `escape_storable`, `textOk_storable`: It stands for itself.
* `dispatch_unlock`: Its unlock path is dispatched to the unlock route.
-/

namespace ClickScope

open Async Zod

/-- The characters of short codes. -/
def codeChar (c : Char) : Bool := c.isAlphanum || c == '_' || c == '-'

/-- The short codes a link can have: an alias that was accepted, or a generated
    code. -/
def Storable (code : String) : Prop :=
  (∃ t, Accepts customAliasSchema t (.string code) (.string code)) ∨
    (code.toList.length = DEFAULT_SHORT_CODE_LENGTH ∧ ∀ c ∈ code.toList, c ∈ ALPHABET)

section Characters

variable {code : String}

theorem alphanum_range {c : Char} (h : c.isAlphanum = true) : 48 ≤ c.toNat ∧ c.toNat ≤ 122 := by
  change ((decide ('A'.val ≤ c.val ∧ c.val ≤ 'Z'.val) ||
      decide ('a'.val ≤ c.val) && decide (c.val ≤ 'z'.val)) ||
    decide ('0'.val ≤ c.val) && decide (c.val ≤ '9'.val)) = true at h
  simp only [Bool.or_eq_true, Bool.and_eq_true, decide_eq_true_eq,
    UInt32.le_iff_toNat_le] at h
  have hval : c.toNat = c.val.toNat := rfl
  have hA : 'A'.val.toNat = 65 := rfl
  have hZ : 'Z'.val.toNat = 90 := rfl
  have ha : 'a'.val.toNat = 97 := rfl
  have hz : 'z'.val.toNat = 122 := rfl
  have h0 : '0'.val.toNat = 48 := rfl
  have h9 : '9'.val.toNat = 57 := rfl
  -- The digits come first and the small letters last.
  omega

theorem codeChar_lt {c : Char} (h : codeChar c = true) : c.toNat < 128 := by
  unfold codeChar at h
  rw [Bool.or_eq_true, Bool.or_eq_true, beq_iff_eq, beq_iff_eq] at h
  rcases h with (halnum | rfl) | rfl
  · have hrange := alphanum_range halnum
    omega
  · decide
  · decide

/-- A character with another meaning somewhere is none of a short code. -/
theorem codeChar_ne {c d : Char} (h : codeChar c = true) (hd : codeChar d = false) : c ≠ d := by
  rintro rfl
  rw [h] at hd
  cases hd

theorem alphabet_codeChar : ∀ c ∈ ALPHABET, codeChar c = true := by
  have hall : ALPHABET.all codeChar = true := by decide
  exact List.all_eq_true.mp hall

theorem accepts_customAlias {t : Nat} {v a : JsValue} : Accepts customAliasSchema t v a ↔
    ∃ s, v = .string s ∧ a = .string s ∧ MIN_ALIAS_LENGTH ≤ jsLength s ∧
      jsLength s ≤ MAX_ALIAS_LENGTH ∧ aliasPattern s = true ∧ isReservedShortCode s = false := by
  unfold customAliasSchema
  rw [accepts_refine, accepts_string]
  constructor
  · rintro ⟨⟨s, rfl, rfl, hchecks⟩, hres⟩
    simp only [runChecks_nil, List.mem_cons, List.not_mem_nil, or_false, forall_eq_or_imp,
      forall_eq, Zod.min, Zod.max, Zod.regex, decide_eq_true_eq] at hchecks
    simp only [stringCheck, Option.some.injEq, Bool.not_eq_true'] at hres
    exact ⟨s, rfl, rfl, hchecks.1, hchecks.2.1, hchecks.2.2, hres⟩
  · rintro ⟨s, rfl, rfl, hmin, hmax, hpattern, hres⟩
    refine ⟨⟨s, rfl, rfl, ?_⟩, ?_⟩
    · simp only [runChecks_nil, List.mem_cons, List.not_mem_nil, or_false, forall_eq_or_imp,
        forall_eq, Zod.min, Zod.max, Zod.regex, decide_eq_true_eq]
      exact ⟨hmin, hmax, hpattern⟩
    · simp only [stringCheck, hres, Bool.not_false]

theorem aliasPattern_iff {s : String} :
    aliasPattern s = true ↔ s ≠ "" ∧ ∀ c ∈ s.toList, codeChar c = true := by
  unfold aliasPattern codeChar
  rw [Bool.and_eq_true, decide_eq_true_eq, List.all_eq_true]

/-- A text of short code characters is as long in UTF-16 units. -/
theorem jsLength_codeChars {s : String} (h : ∀ c ∈ s.toList, codeChar c = true) :
    jsLength s = s.toList.length := by
  -- Every character is one unit.
  have hone : s.toList.map (fun c => if c.toNat < 0x10000 then 1 else 2)
      = s.toList.map (fun _ => 1) := by
    refine List.map_congr_left (fun c hc => ?_)
    have hlt := codeChar_lt (h c hc)
    rw [if_pos (by omega)]
  unfold jsLength
  rw [hone, List.map_const', List.sum_replicate_nat, Nat.mul_one]

theorem storable_chars (h : Storable code) : ∀ c ∈ code.toList, codeChar c = true := by
  rcases h with ⟨t, hacc⟩ | ⟨_, hchars⟩
  · rcases accepts_customAlias.mp hacc with ⟨s, hs, _, _, _, hpattern, _⟩
    rw [JsValue.string.injEq] at hs
    rw [hs]
    exact (aliasPattern_iff.mp hpattern).2
  · exact fun c hc => alphabet_codeChar c (hchars c hc)

theorem storable_length (h : Storable code) :
    MIN_ALIAS_LENGTH ≤ jsLength code ∧ jsLength code ≤ MAX_ALIAS_LENGTH := by
  rcases h with ⟨t, hacc⟩ | ⟨hlen, hchars⟩
  · rcases accepts_customAlias.mp hacc with ⟨s, hs, _, hmin, hmax, _, _⟩
    rw [JsValue.string.injEq] at hs
    rw [hs]
    exact ⟨hmin, hmax⟩
  · rw [jsLength_codeChars (fun c hc => alphabet_codeChar c (hchars c hc)), hlen]
    decide

/-- No storable code is a reserved one, in any case. -/
theorem storable_ne_reserved (h : Storable code) :
    ∀ w ∈ RESERVED_SHORT_CODES, code.toList.map Char.toLower ≠ w.toList.map Char.toLower := by
  intro w hw heq
  have hword : w.toList.map Char.toLower = w.toList ∧ w.toList.length ≠ 7 := by
    have hall : ∀ w ∈ RESERVED_SHORT_CODES,
        w.toList.map Char.toLower = w.toList ∧ w.toList.length ≠ 7 := by decide
    exact hall w hw
  rw [hword.1] at heq
  -- An alias is not reserved, and a generated code has seven characters.
  rcases h with ⟨t, hacc⟩ | ⟨hlen, _⟩
  · rcases accepts_customAlias.mp hacc with ⟨s, hs, _, _, _, _, hres⟩
    rw [JsValue.string.injEq] at hs
    rw [← hs, isReservedShortCode, heq, String.ofList_toList] at hres
    rw [List.contains_iff_mem.mpr hw] at hres
    cases hres
  · have hlen' := congrArg List.length heq
    rw [List.length_map, hlen] at hlen'
    exact hword.2 hlen'.symm

/-- No storable code is a path the documentation is mounted at, in any case. -/
theorem storable_ne_docs (h : Storable code) :
    code.toList.map Char.toLower ≠ "docs".toList.map Char.toLower :=
  storable_ne_reserved h "docs" (by decide)

theorem textOk_storable (h : Storable code) : textOk code = true := by
  unfold textOk
  rw [List.all_eq_true]
  intro c hc
  rw [bne_iff_ne]
  exact codeChar_ne (storable_chars h c hc) (by decide)

end Characters

section Encodings

/-- A text without a percent sign has no escapes. -/
theorem readEscapes_plain {s : List Char} (h : ∀ c ∈ s, c ≠ '%') :
    readEscapes s = some (s.map Sum.inl) := by
  induction s with
  | nil => rfl
  | cons c s ih =>
      have hc : c ≠ '%' := h c List.mem_cons_self
      have hrest := ih (fun d hd => h d (List.mem_cons_of_mem c hd))
      rw [readEscapes, hrest]
      · rfl
      · rintro a b rest heq _
        exact hc heq
      · rintro heq
        exact hc heq

theorem readUtf8_plain (s : List Char) : readUtf8 0 0 0 (s.map Sum.inl) = some s := by
  induction s with
  | nil => rfl
  | cons c s ih =>
      rw [List.map_cons, readUtf8, ih]
      rfl

theorem decode_storable {code : String} (h : Storable code) :
    decodeURIComponent code.toList = some code.toList := by
  have hplain : ∀ c ∈ code.toList, c ≠ '%' :=
    fun c hc => codeChar_ne (storable_chars h c hc) (by decide)
  unfold decodeURIComponent
  rw [readEscapes_plain hplain]
  exact readUtf8_plain code.toList

theorem replaceAll_absent {c : Char} {entity : String} {s : List Char} (h : ∀ d ∈ s, d ≠ c) :
    replaceAll c entity s = s := by
  unfold replaceAll
  induction s with
  | nil => rfl
  | cons d s ih =>
      rw [List.flatMap_cons, if_neg (h d List.mem_cons_self),
        ih (fun e he => h e (List.mem_cons_of_mem d he))]
      rfl

theorem escape_storable {code : String} (h : Storable code) : escapeHtml code = code := by
  have hne : ∀ d, codeChar d = false → ∀ c ∈ code.toList, c ≠ d :=
    fun d hd c hc => codeChar_ne (storable_chars h c hc) hd
  unfold escapeHtml
  rw [replaceAll_absent (hne '&' (by decide)), replaceAll_absent (hne '<' (by decide)),
    replaceAll_absent (hne '>' (by decide)), replaceAll_absent (hne '"' (by decide)),
    replaceAll_absent (hne '\'' (by decide)), String.ofList_toList]

end Encodings

section Paths

variable {code : String}

/-- The path of some segments. -/
def pathOf (parts : List (List Char)) : List Char := parts.flatMap (fun part => '/' :: part)

theorem splitOn_pathOf {parts : List (List Char)} (h : ∀ part ∈ parts, '/' ∉ part)
    {s : List Char} (hs : '/' ∉ s) : (s ++ pathOf parts).splitOn '/' = s :: parts := by
  induction parts generalizing s with
  | nil =>
      have hnil : pathOf [] = [] := rfl
      rw [hnil, List.append_nil, List.splitOn_eq_singleton hs]
  | cons part parts ih =>
      have hcons : pathOf (part :: parts) = '/' :: (part ++ pathOf parts) := rfl
      rw [List.forall_mem_cons] at h
      rw [hcons, List.splitOn_append_cons_self_of_not_mem hs, ih h.2 h.1]

/-- The segments of a path are those it was put together from, with a trailing
    slash and without it. -/
theorem segments_pathOf {parts : List (List Char)} {last : List Char} {path : String}
    (hslash : ∀ part ∈ parts ++ [last], '/' ∉ part) (hlast : last ≠ [])
    (hpath : path.toList = pathOf (parts ++ [last]) ∨
      path.toList = pathOf (parts ++ [last]) ++ ['/']) : segments path = parts ++ [last] := by
  unfold segments
  rcases hpath with hpath | hpath
  · have hsplit := splitOn_pathOf hslash (s := []) List.not_mem_nil
    rw [List.nil_append] at hsplit
    have hne : (parts ++ [last]).getLast? ≠ some [] := by
      rw [List.getLast?_concat]
      exact fun heq => hlast (Option.some.inj heq)
    simp only [hpath, hsplit, List.drop_succ_cons, List.drop_zero, if_neg hne]
  · -- A trailing slash is an empty segment at the end.
    have hempty : pathOf (parts ++ [last]) ++ ['/'] = pathOf (parts ++ [last] ++ [[]]) := by
      unfold pathOf
      rw [List.flatMap_append, List.flatMap_append, List.flatMap_append]
      rfl
    have hslash' : ∀ part ∈ parts ++ [last] ++ [[]], '/' ∉ part := by
      intro part hpart
      rcases List.mem_append.mp hpart with hpart | hpart
      · exact hslash part hpart
      · rw [List.mem_singleton.mp hpart]
        exact List.not_mem_nil
    have hsplit := splitOn_pathOf hslash' (s := []) List.not_mem_nil
    rw [List.nil_append] at hsplit
    have htrailing : (parts ++ [last] ++ [[]]).getLast? = some [] := List.getLast?_concat
    simp only [hpath, hempty, hsplit, List.drop_succ_cons, List.drop_zero, if_pos htrailing,
      List.dropLast_concat]

theorem storable_slash (h : Storable code) : '/' ∉ code.toList :=
  fun hmem => codeChar_ne (storable_chars h _ hmem) (by decide) rfl

theorem segments_unlock (h : Storable code) :
    segments ("/" ++ code ++ "/unlock") = [code.toList, "unlock".toList] := by
  have hslash : ∀ part ∈ [code.toList] ++ ["unlock".toList], '/' ∉ part := by
    rw [List.singleton_append, List.forall_mem_cons]
    exact ⟨storable_slash h, by decide⟩
  refine segments_pathOf hslash (by decide) (Or.inl ?_)
  simp only [String.toList_append, pathOf, List.singleton_append, List.flatMap_cons,
    List.flatMap_nil, List.append_nil]
  rfl

theorem takes_eq_false {r : Route} {more : List (List Char)} : r.takes more = false ↔
    r.isPrefix = false ∧ more ≠ [] ∧ (r.atMount = true → more ≠ [[]]) := by
  simp only [Route.takes, Bool.or_eq_false_iff, Bool.and_eq_false_imp, beq_eq_false_iff_ne,
    and_assoc]

/-- A route that leaves some of the path over, or does not match, is passed by. -/
theorem firstMatch_skip {method : Method} {parts : List (List Char)} {r : Route} {rest : List Route}
    (h : ∀ raw more, matchSegments r.pattern parts = some (raw, more) → r.takes more = false) :
    firstMatch method parts (r :: rest) = firstMatch method parts rest := by
  simp only [firstMatch]
  rcases hmatch : matchSegments r.pattern parts with _ | ⟨raw, more⟩
  · rfl
  · simp only [if_pos (h raw more hmatch)]

theorem firstMatch_append {method : Method} {parts : List (List Char)} {before after : List Route}
    (h : ∀ r ∈ before, ∀ raw more, matchSegments r.pattern parts = some (raw, more) →
      r.takes more = false) :
    firstMatch method parts (before ++ after) = firstMatch method parts after := by
  induction before with
  | nil => rfl
  | cons r before ih =>
      rw [List.cons_append, firstMatch_skip (h r List.mem_cons_self)]
      exact ih (fun r' hr' => h r' (List.mem_cons_of_mem r hr'))

/-- A pattern takes as many segments as it has. -/
theorem matchSegments_length {pattern : List Segment} {parts raw more : List (List Char)}
    (h : matchSegments pattern parts = some (raw, more)) :
    parts.length = pattern.length + more.length := by
  induction pattern generalizing parts raw with
  | nil =>
      simp only [matchSegments, Option.some.injEq, Prod.mk.injEq] at h
      rw [h.2, List.length_nil, Nat.zero_add]
  | cons seg pattern ih =>
      -- Each segment of the pattern takes one of the path.
      rcases parts with _ | ⟨part, parts⟩
      · cases seg <;> cases h
      · rw [List.length_cons, List.length_cons]
        cases seg with
        | literal s =>
            simp only [matchSegments] at h
            split_ifs at h
            have hlen := ih h
            omega
        | param =>
            simp only [matchSegments] at h
            split_ifs at h
            rcases Option.map_eq_some_iff.mp h with ⟨⟨raw', more'⟩, hrest, heq⟩
            rw [Prod.mk.injEq] at heq
            rcases heq with ⟨_, rfl⟩
            have hlen := ih hrest
            omega

/-- The only prefix that is mounted. -/
theorem routes_prefix : ∀ r ∈ routes, r.isPrefix = true → r.pattern = [.literal "docs"] := by
  decide

theorem routes_mount : ∀ r ∈ routes, r.atMount = true → r.pattern.length ≠ 1 := by
  decide

/-- Before the unlock route, two segments are the links of the API. -/
theorem routes_two : ∀ r ∈ routes.dropLast, r.pattern.length = 2 →
    r.pattern = [.literal "api", .literal "links"] := by
  decide

theorem storable_ne_nil (h : Storable code) : code.toList ≠ [] := by
  intro hnil
  have hlen := (storable_length h).1
  rw [jsLength_codeChars (storable_chars h), hnil] at hlen
  exact absurd hlen (by decide)

theorem decodeParams_storable (h : Storable code) : decodeParams [code.toList] = some [code] := by
  simp only [decodeParams, List.mapM_cons, List.mapM_nil, decode_storable h, Option.map_some,
    String.ofList_toList]
  rfl

/-- The unlock path of a storable code reaches the unlock route, with the code
    as its parameter. -/
theorem firstMatch_unlock (h : Storable code) :
    firstMatch .post [code.toList, "unlock".toList] routes = .unlock code := by
  -- Every other route leaves the second segment over, or does not match.
  have hbefore : ∀ r ∈ routes.dropLast, ∀ raw more,
      matchSegments r.pattern [code.toList, "unlock".toList] = some (raw, more) →
      r.takes more = false := by
    intro r hr raw more hmatch
    refine takes_eq_false.mpr ⟨?_, ?_, ?_⟩
    · by_contra hfull
      have hdocs := routes_prefix r (List.mem_of_mem_dropLast hr)
        (Bool.eq_true_of_not_eq_false hfull)
      rw [hdocs] at hmatch
      simp only [matchSegments, storable_ne_docs h, if_false, reduceCtorEq] at hmatch
    · rintro rfl
      have hlen := matchSegments_length hmatch
      have htwo : r.pattern.length = 2 := hlen.symm
      have hunlock : ¬ "unlock".toList.map Char.toLower = "links".toList.map Char.toLower := by
        decide
      rw [routes_two r hr htwo, matchSegments, matchSegments, if_neg hunlock, ite_self] at hmatch
      cases hmatch
    · rintro hmount rfl
      have hlen := matchSegments_length hmatch
      exact routes_mount r (List.mem_of_mem_dropLast hr) hmount (Nat.succ.inj hlen.symm)
  -- The unlock route is the last one.
  have hlast : routes = routes.dropLast ++ [paramRoute .post [.param, .literal "unlock"] .unlock] :=
    rfl
  have hmatch : matchSegments [.param, .literal "unlock"] [code.toList, "unlock".toList]
      = some ([code.toList], []) := by
    simp only [matchSegments, if_neg (storable_ne_nil h), if_true, Option.map_some]
  rw [hlast, firstMatch_append hbefore]
  simp only [firstMatch, paramRoute, hmatch, decodeParams_storable h]
  rfl

theorem dispatch_unlock (h : Storable code) :
    dispatch .post ("/" ++ code ++ "/unlock") = .unlock code := by
  rw [dispatch, segments_unlock h, firstMatch_unlock h]

end Paths

end ClickScope
