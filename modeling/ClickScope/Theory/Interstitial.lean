import ClickScope.Core.Redirect
import ClickScope.Html.Escaping
import ClickScope.Html.Tokenizer

/-!
# The Password Page and What Is Filled Into It

Escaping a text loses nothing of it and leaves nothing that a page could take
for its own.

The five replacements are made one after another, the `&` first, so that each
character is replaced once. What is left of the text has no character that
could end a value or begin a tag, so that the short code and the message stay
in the places of the page they are written to, whatever they are.

## Main definitions

* `htmlEntities`: The entities, and the characters they stand for.
* `structureOf`: The elements of a page, and their attributes.

## Theorems

* `escapeHtml_encode`: The five replacements as one.
* `interstitial_pieces`: The page around what is filled in.
* `html_escaped`: Escaping is lossless, and the page keeps its structure.
-/

namespace ClickScope

open Html

/-- The entities of `escapeHtml`, without their `&`. -/
def entityTable : List (Char × List Char) :=
  [('&', "amp;".toList), ('<', "lt;".toList), ('>', "gt;".toList), ('"', "quot;".toList),
    ('\'', "#39;".toList)]

def htmlEntities : Escaping Char where
  mark := '&'
  table := entityTable
  marked := by decide
  plain := by
    have hall : entityTable.all (fun e =>
        e.2.all (fun x => !(entityTable.map (·.1)).contains x)) = true := by decide
    intro e he x hx hmem
    have hx' := List.all_eq_true.mp (List.all_eq_true.mp hall e he) x hx
    rw [List.contains_iff_mem.mpr hmem] at hx'
    cases hx'
  prefixFree := by decide

/-- The elements of a page, and their attributes without their values. -/
def structureOf (page : String) : List Token := skeleton (tokenize page.toList)

section Escape

/-- The five replacements as passes. -/
theorem escapeHtml_passes (s : String) :
    (escapeHtml s).toList = passes htmlEntities.words s.toList := by
  rw [escapeHtml, String.toList_ofList]
  rfl

/-- The five replacements as one. -/
theorem escapeHtml_encode (s : String) :
    (escapeHtml s).toList = htmlEntities.encode s.toList := by
  -- Only the first word could have a character of a later pass, and has none.
  have horder : htmlEntities.words.Pairwise (fun e later => later.1 ∉ e.2) := by decide
  rw [escapeHtml_passes, passes_eq horder]
  rfl

theorem escapeHtml_append (s t : String) : escapeHtml (s ++ t) = escapeHtml s ++ escapeHtml t := by
  refine String.toList_inj.mp ?_
  rw [String.toList_append, escapeHtml_encode, escapeHtml_encode, escapeHtml_encode,
    String.toList_append, Escaping.encode_append]

/-- None of the other four characters is left. -/
theorem escapeHtml_safe (s : String) {c : Char} (hc : c ∈ ['<', '>', '"', '\'']) :
    c ∉ (escapeHtml s).toList := by
  have hall : ['<', '>', '"', '\''].all (fun c =>
      (htmlEntities.table.map (·.1)).contains c && c != htmlEntities.mark) = true := by decide
  have hkey := List.all_eq_true.mp hall c hc
  rw [Bool.and_eq_true, List.contains_iff_mem, bne_iff_ne] at hkey
  rw [escapeHtml_encode]
  exact Escaping.not_mem_encode hkey.1 hkey.2 s.toList

end Escape

section Page

/-- The message as it stands in the page. -/
def errorHtml (errorMessage : Option String) : String :=
  match truthy errorMessage with
  | none => ""
  | some message => "<p>" ++ escapeHtml message ++ "</p>"

/-- The page around the message and the short code: what is written before the
    message ends between tags, and what is written before the code ends in a
    value. -/
theorem interstitial_pieces : ∃ head mid tail : String,
    (∀ code message, renderInterstitial code message
      = head ++ errorHtml message ++ mid ++ escapeHtml code ++ tail) ∧
    (run .data head.toList).1 = .data ∧
    ∃ tag name value, (run .data mid.toList).1 = .quoted '"' tag name value :=
  ⟨_, _, _, fun _ _ => rfl, by decide +kernel, _, _, _, by rfl⟩

/-- A text that is filled in leaves the state between tags as it is. -/
theorem errorHtml_data (message : Option String) :
    (run .data (errorHtml message).toList).1 = .data := by
  unfold errorHtml
  rcases truthy message with _ | text
  · rfl
  · have hopen : (run .data "<p>".toList).1 = .data := by decide
    have hclose : (run .data "</p>".toList).1 = .data := by decide
    rw [String.toList_append, String.toList_append, run_append, run_append, hopen,
      run_text (escapeHtml_safe text (by decide)), hclose]

/-- Whatever the message says, it adds a paragraph or nothing. -/
theorem errorHtml_skeleton {message message' : Option String}
    (h : (truthy message).isSome = (truthy message').isSome) :
    skeleton (run .data (errorHtml message).toList).2
      = skeleton (run .data (errorHtml message').toList).2 := by
  -- A safe text between two tags is only text.
  have hparagraph : ∀ text : String,
      skeleton (run .data ("<p>" ++ escapeHtml text ++ "</p>").toList).2
        = skeleton (run .data "<p></p>".toList).2 := by
    intro text
    have hopen : (run .data "<p>".toList).1 = .data := by decide
    rw [String.toList_append, String.toList_append, run_append, run_append, hopen,
      run_text (escapeHtml_safe text (by decide)), skeleton_append, skeleton_append,
      skeleton_text, List.append_nil]
    rfl
  unfold errorHtml
  generalize truthy message = m at h ⊢
  generalize truthy message' = m' at h ⊢
  rcases m with _ | text
  · rcases m' with _ | text'
    · rfl
    · cases h
  · rcases m' with _ | text'
    · cases h
    · exact (hparagraph text).trans (hparagraph text').symm

/-- Whatever the code is, the page goes on in the value it stands in. -/
theorem value_alike {quote : Char} {a b : List Char} (ha : quote ∉ a) (hb : quote ∉ b)
    (tag : Tag) (name value tail : List Char) :
    skeleton (run (.quoted quote tag name value) (a ++ tail)).2
      = skeleton (run (.quoted quote tag name value) (b ++ tail)).2 := by
  have halike : Alike (run (.quoted quote tag name (value ++ a)) tail)
      (run (.quoted quote tag name (value ++ b)) tail) := run_erase (by rfl) tail
  rw [run_append, run_append, run_quoted ha, run_quoted hb]
  exact halike.2

/-- The structure of the page depends on nothing but whether there is a message. -/
theorem interstitial_structure (code code' : String) {message message' : Option String}
    (h : (truthy message).isSome = (truthy message').isSome) :
    structureOf (renderInterstitial code message)
      = structureOf (renderInterstitial code' message') := by
  rcases interstitial_pieces with ⟨head, mid, tail, hpage, hhead, tag, name, value, hmid⟩
  have hsplit : ∀ code message, (renderInterstitial code message).toList = head.toList ++
      ((errorHtml message).toList ++
        (mid.toList ++ ((escapeHtml code).toList ++ tail.toList))) := by
    intro code message
    rw [hpage]
    simp only [String.toList_append, List.append_assoc]
  have hquote : ∀ code : String, '"' ∉ (escapeHtml code).toList :=
    fun code => escapeHtml_safe code (by decide)
  have hvalue := value_alike (hquote code) (hquote code') tag name value tail.toList
  -- The state is known before and behind the message, and before the code.
  rw [structureOf, structureOf, tokenize, tokenize, hsplit, hsplit, run_append .data head.toList,
    run_append .data head.toList, hhead, run_append .data (errorHtml message).toList,
    run_append .data (errorHtml message').toList, errorHtml_data, errorHtml_data,
    run_append .data mid.toList, run_append .data mid.toList, hmid]
  simp only [skeleton_append]
  rw [errorHtml_skeleton h, hvalue]

end Page

/-- Messages that are both absent, or both something to say. -/
def BothOrNeither (message message' : Option String) : Prop :=
  (message = none ∧ message' = none) ∨
    ∃ text text', message = some text ∧ message' = some text' ∧ text ≠ "" ∧ text' ≠ ""

theorem truthy_of_both {message message' : Option String} (h : BothOrNeither message message') :
    (truthy message).isSome = (truthy message').isSome := by
  rcases h with ⟨rfl, rfl⟩ | ⟨text, text', rfl, rfl, hne, hne'⟩
  · rfl
  · have htext : truthy (some text) = some text := if_neg hne
    have htext' : truthy (some text') = some text' := if_neg hne'
    rw [htext, htext']
    rfl

/-- Escaping leaves none of `<`, `>` and the quotes, every `&` begins an entity,
    the entities are read back as the text, and the five replacements are one,
    so that a text can be escaped in parts. Any two pages with a message, and
    any two without one, have the same elements and attributes. -/
theorem html_escaped (s t code code' : String) (message message' : Option String) :
    (∀ c ∈ ['<', '>', '"', '\''], c ∉ (escapeHtml s).toList) ∧
    (∀ before after, (escapeHtml s).toList = before ++ '&' :: after →
      ∃ e ∈ entityTable, e.2 <+: after) ∧
    htmlEntities.decode (escapeHtml s).toList = s.toList ∧
    (escapeHtml s).toList = htmlEntities.encode s.toList ∧
    escapeHtml (s ++ t) = escapeHtml s ++ escapeHtml t ∧
    (BothOrNeither message message' → structureOf (renderInterstitial code message)
      = structureOf (renderInterstitial code' message')) := by
  refine ⟨fun c hc => escapeHtml_safe s hc, fun before after h => ?_, ?_, escapeHtml_encode s,
    escapeHtml_append s t, fun h => interstitial_structure code code' (truthy_of_both h)⟩
  · rw [escapeHtml_encode] at h
    exact Escaping.encode_mark h
  · rw [escapeHtml_encode]
    exact Escaping.decode_encode s.toList

/-- A code that would close the form, and one that would not. -/
theorem html_escaped_form :
    structureOf (renderInterstitial "\"></form>" (some "<b>it's</b>"))
      = structureOf (renderInterstitial "abc" (some "&lt;")) :=
  (html_escaped "" "" "\"></form>" "abc" (some "<b>it's</b>") (some "&lt;")).2.2.2.2.2
    (Or.inr ⟨_, _, rfl, rfl, by decide, by decide⟩)

end ClickScope
