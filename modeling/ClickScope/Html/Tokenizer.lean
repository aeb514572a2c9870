import Mathlib.Data.List.Basic
import Mathlib.Tactic.SplitIfs

/-!
# The Tags of an HTML Text

The tokenizer of HTML, character by character, and what of a text its tags
depend on.

The states are those of the standard. A character reference is left as it is
written: it changes no state, in a text as in the value of an attribute. The
elements whose content is plain text are told apart, scripts excepted, which
have states of their own.

The skeleton of a text is its tags without the values of their attributes. Two
states that differ in such values go on alike (`step_erase`), so that a text
which is filled into a page changes no tag of the page as long as it cannot
leave the state it begins in: no `<` between tags, and no quote in a value.

## Main definitions

* `Tag`, `Token`, `State`: What the tokenizer makes, and where it is.
* `step`, `run`, `tokenize`: The tokenizer.
* `skeleton`: The tags, without the values of their attributes.

## Theorems

* `run_text`, `run_quoted`: Texts that stay in their state.
* `step_erase`, `run_erase`: The values make no difference to the tags.
-/

namespace Html

section Tokenizer

/-- A tag, with its attributes in order. -/
structure Tag where
  closing : Bool
  name : List Char
  attrs : List (List Char × List Char)
  selfClosing : Bool
deriving DecidableEq, Repr

/-- A second attribute of a name is dropped. -/
def Tag.add (t : Tag) (name value : List Char) : Tag :=
  if name ∈ t.attrs.map (·.1) then t else { t with attrs := t.attrs ++ [(name, value)] }

/-- A character, a tag, or a declaration or comment. -/
inductive Token : Type
  | char (c : Char)
  | tag (t : Tag)
  | markup (text : List Char)
deriving DecidableEq, Repr

inductive State : Type
  | data
  | tagOpen
  | endTagOpen
  | tagName (closing : Bool) (name : List Char)
  /-- Before the name of an attribute, or after a quoted value. -/
  | beforeName (t : Tag)
  | attrName (t : Tag) (name : List Char)
  | afterName (t : Tag) (name : List Char)
  | beforeValue (t : Tag) (name : List Char)
  | quoted (quote : Char) (t : Tag) (name value : List Char)
  | unquoted (t : Tag) (name value : List Char)
  | selfClosing (t : Tag)
  | markup (text : List Char)
  /-- In an element whose content is plain text. -/
  | raw (name : List Char)
  | rawLess (name : List Char)
  | rawEnd (name buffer : List Char)
deriving DecidableEq, Repr

def isSpace (c : Char) : Bool := c ∈ ['\t', '\n', '\r', ' ', Char.ofNat 0x0C]

/-- The elements whose content is plain text. -/
def rawElements : List (List Char) :=
  ["title".toList, "textarea".toList, "style".toList, "xmp".toList, "iframe".toList,
    "noembed".toList, "noframes".toList]

/-- A tag is complete. -/
def emit (t : Tag) : State × List Token :=
  (if t.closing = false ∧ t.name ∈ rawElements then .raw t.name else .data, [.tag t])

def dataStep (c : Char) : State × List Token :=
  if c = '<' then (.tagOpen, []) else (.data, [.char c])

def rawStep (name : List Char) (c : Char) : State × List Token :=
  if c = '<' then (.rawLess name, []) else (.raw name, [.char c])

/-- In a tag, outside its name and its attributes. -/
def inTag (t : Tag) (c : Char) : State × List Token :=
  if isSpace c then (.beforeName t, [])
  else if c = '/' then (.selfClosing t, [])
  else if c = '>' then emit t
  else (.attrName t [c.toLower], [])

/-- Whether `>` ends a declaration or a comment after this text. -/
def closes (text : List Char) : Bool :=
  !(['-', '-'].isPrefixOf text) || ['-', '-'].isSuffixOf text ||
    (decide (5 ≤ text.length) && ['-', '-', '!'].isSuffixOf text)

def step : State → Char → State × List Token
  | .data, c => dataStep c
  | .tagOpen, c =>
      if c = '!' then (.markup [], [])
      else if c = '/' then (.endTagOpen, [])
      else if c.isAlpha then (.tagName false [c.toLower], [])
      else if c = '?' then (.markup [c], [])
      else ((dataStep c).1, .char '<' :: (dataStep c).2)
  | .endTagOpen, c =>
      if c.isAlpha then (.tagName true [c.toLower], [])
      else if c = '>' then (.data, [])
      else (.markup [c], [])
  | .tagName closing name, c =>
      if isSpace c ∨ c = '/' ∨ c = '>' then inTag ⟨closing, name, [], false⟩ c
      else (.tagName closing (name ++ [c.toLower]), [])
  | .beforeName t, c => inTag t c
  | .attrName t name, c =>
      if c = '=' then (.beforeValue t name, [])
      else if isSpace c then (.afterName t name, [])
      else if c = '/' ∨ c = '>' then inTag (t.add name []) c
      else (.attrName t (name ++ [c.toLower]), [])
  | .afterName t name, c =>
      if c = '=' then (.beforeValue t name, [])
      else if isSpace c then (.afterName t name, [])
      else inTag (t.add name []) c
  | .beforeValue t name, c =>
      if isSpace c then (.beforeValue t name, [])
      else if c = '"' ∨ c = '\'' then (.quoted c t name [], [])
      else if c = '>' then emit (t.add name [])
      else (.unquoted t name [c], [])
  | .quoted quote t name value, c =>
      if c = quote then (.beforeName (t.add name value), [])
      else (.quoted quote t name (value ++ [c]), [])
  | .unquoted t name value, c =>
      if isSpace c ∨ c = '>' then inTag (t.add name value) c
      else (.unquoted t name (value ++ [c]), [])
  | .selfClosing t, c => if c = '>' then emit { t with selfClosing := true } else inTag t c
  | .markup text, c =>
      if c = '>' ∧ closes text = true then (.data, [.markup text])
      else (.markup (text ++ [c]), [])
  | .raw name, c => rawStep name c
  | .rawLess name, c =>
      if c = '/' then (.rawEnd name [], [])
      else ((rawStep name c).1, .char '<' :: (rawStep name c).2)
  | .rawEnd name buffer, c =>
      if buffer.map Char.toLower = name ∧ (isSpace c ∨ c = '/' ∨ c = '>') then
        inTag ⟨true, name, [], false⟩ c
      else if c.isAlpha then (.rawEnd name (buffer ++ [c]), [])
      else ((rawStep name c).1, (['<', '/'] ++ buffer).map .char ++ (rawStep name c).2)

def run : State → List Char → State × List Token
  | s, [] => (s, [])
  | s, c :: text => ((run (step s c).1 text).1, (step s c).2 ++ (run (step s c).1 text).2)

/-- The tokens of a whole text. -/
def tokenize (text : List Char) : List Token := (run .data text).2

theorem run_append (s : State) (a b : List Char) :
    run s (a ++ b) = ((run (run s a).1 b).1, (run s a).2 ++ (run (run s a).1 b).2) := by
  induction a generalizing s with
  | nil => rfl
  | cons c a ih =>
      rw [List.cons_append, run, run, ih]
      simp only [List.append_assoc]

end Tokenizer

section Skeleton

/-- A tag without the values of its attributes. -/
def Tag.erase (t : Tag) : Tag := { t with attrs := t.attrs.map (fun a => (a.1, [])) }

/-- The tags and declarations of a text, without the values of attributes. -/
def skeleton (tokens : List Token) : List Token :=
  tokens.filterMap (fun
    | .char _ => none
    | .tag t => some (.tag t.erase)
    | .markup text => some (.markup text))

/-- A state without the values of attributes. -/
def State.erase : State → State
  | .beforeName t => .beforeName t.erase
  | .attrName t name => .attrName t.erase name
  | .afterName t name => .afterName t.erase name
  | .beforeValue t name => .beforeValue t.erase name
  | .quoted quote t name _ => .quoted quote t.erase name []
  | .unquoted t name _ => .unquoted t.erase name []
  | .selfClosing t => .selfClosing t.erase
  | s => s

theorem skeleton_append (a b : List Token) : skeleton (a ++ b) = skeleton a ++ skeleton b :=
  List.filterMap_append

@[simp] theorem Tag.erase_erase (t : Tag) : t.erase.erase = t.erase := by
  simp only [erase, List.map_map, Function.comp_def]

@[simp] theorem Tag.erase_add (t : Tag) (name value : List Char) :
    (t.add name value).erase = t.erase.add name [] := by
  have hnames : t.erase.attrs.map (·.1) = t.attrs.map (·.1) := by
    simp only [erase, List.map_map, Function.comp_def]
  unfold add
  rw [hnames]
  by_cases hname : name ∈ t.attrs.map (·.1)
  · rw [if_pos hname, if_pos hname]
  · rw [if_neg hname, if_neg hname]
    simp only [erase, List.map_append, List.map_cons, List.map_nil]

/-- What two steps have in common if they differ in the values of attributes. -/
def Alike (x y : State × List Token) : Prop :=
  x.1.erase = y.1.erase ∧ skeleton x.2 = skeleton y.2

theorem alike_refl (x : State × List Token) : Alike x x := ⟨rfl, rfl⟩

theorem emit_erase (t : Tag) : Alike (emit t) (emit t.erase) := by
  refine ⟨rfl, ?_⟩
  simp only [emit, skeleton, List.filterMap_cons, List.filterMap_nil, Tag.erase_erase]

theorem inTag_erase (t : Tag) (c : Char) : Alike (inTag t c) (inTag t.erase c) := by
  unfold inTag
  split_ifs
  · exact ⟨by simp only [State.erase, Tag.erase_erase], rfl⟩
  · exact ⟨by simp only [State.erase, Tag.erase_erase], rfl⟩
  · exact emit_erase t
  · exact ⟨by simp only [State.erase, Tag.erase_erase], rfl⟩

/-- The values of attributes make no difference to a step. -/
theorem step_erase (s : State) (c : Char) : Alike (step s c) (step s.erase c) := by
  cases s with
  | beforeName t => exact inTag_erase t c
  | attrName t name =>
      -- An attribute without a value is kept as it is, also when the tag ends here.
      have hadd := inTag_erase (t.add name []) c
      rw [Tag.erase_add] at hadd
      simp only [State.erase, step]
      split_ifs
      · exact ⟨by simp only [State.erase, Tag.erase_erase], rfl⟩
      · exact ⟨by simp only [State.erase, Tag.erase_erase], rfl⟩
      · exact hadd
      · exact ⟨by simp only [State.erase, Tag.erase_erase], rfl⟩
  | afterName t name =>
      have hadd := inTag_erase (t.add name []) c
      rw [Tag.erase_add] at hadd
      simp only [State.erase, step]
      split_ifs
      · exact ⟨by simp only [State.erase, Tag.erase_erase], rfl⟩
      · exact ⟨by simp only [State.erase, Tag.erase_erase], rfl⟩
      · exact hadd
  | beforeValue t name =>
      have hadd := emit_erase (t.add name [])
      rw [Tag.erase_add] at hadd
      simp only [State.erase, step]
      split_ifs
      · exact ⟨by simp only [State.erase, Tag.erase_erase], rfl⟩
      · exact ⟨by simp only [State.erase, Tag.erase_erase], rfl⟩
      · exact hadd
      · exact ⟨by simp only [State.erase, Tag.erase_erase], rfl⟩
  | quoted quote t name value =>
      simp only [State.erase, step]
      split_ifs
      · exact ⟨by simp only [State.erase, Tag.erase_erase, Tag.erase_add], rfl⟩
      · exact ⟨by simp only [State.erase, Tag.erase_erase], rfl⟩
  | unquoted t name value =>
      -- A value is erased when it is added, not while it is read.
      have hadd := inTag_erase (t.add name value) c
      have hempty := inTag_erase (t.erase.add name []) c
      rw [Tag.erase_add] at hadd hempty
      rw [Tag.erase_erase] at hempty
      simp only [State.erase, step]
      split_ifs
      · exact hadd
      · exact ⟨by simp only [State.erase, Tag.erase_erase], rfl⟩
  | selfClosing t =>
      simp only [State.erase, step]
      split_ifs
      · exact emit_erase { t with selfClosing := true }
      · exact inTag_erase t c
  | _ => exact alike_refl _

/-- States that differ in the values of attributes go on alike. -/
theorem run_erase {s s' : State} (h : s.erase = s'.erase) (text : List Char) :
    Alike (run s text) (run s' text) := by
  induction text generalizing s s' with
  | nil => exact ⟨h, rfl⟩
  | cons c text ih =>
      have hleft := step_erase s c
      have hright := step_erase s' c
      rw [← h] at hright
      have hrest := ih (hleft.1.trans hright.1.symm)
      refine ⟨hrest.1, ?_⟩
      simp only [run, skeleton_append]
      rw [hrest.2, hleft.2, hright.2]

end Skeleton

section Texts

/-- A text without `<` makes no tags. -/
theorem run_text {text : List Char} (h : '<' ∉ text) :
    run .data text = (.data, text.map .char) := by
  induction text with
  | nil => rfl
  | cons c text ih =>
      rw [List.mem_cons, not_or] at h
      have hstep : step .data c = (.data, [.char c]) := if_neg (Ne.symm h.1)
      rw [run, hstep, ih h.2]
      rfl

theorem skeleton_text (text : List Char) : skeleton (text.map .char) = [] := by
  induction text with
  | nil => rfl
  | cons c text ih => exact ih

/-- A text without the quote stays in the value it begins in. -/
theorem run_quoted {quote : Char} {text : List Char} (h : quote ∉ text) (t : Tag)
    (name value : List Char) :
    run (.quoted quote t name value) text = (.quoted quote t name (value ++ text), []) := by
  induction text generalizing value with
  | nil => rw [run, List.append_nil]
  | cons c text ih =>
      rw [List.mem_cons, not_or] at h
      have hstep : step (.quoted quote t name value) c
          = (.quoted quote t name (value ++ [c]), []) := if_neg (Ne.symm h.1)
      rw [run, hstep, ih h.2, List.append_assoc]
      rfl

end Texts

end Html
