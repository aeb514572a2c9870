import ClickScope.Json.Fields
import ClickScope.Json.Number
import ClickScope.Iso.Instant

/-!
# Values as JSON Texts

`JSON.stringify(value)` and `JSON.parse(text)`.

Writing leaves out what JSON cannot say: an absent property is skipped, an
absent item is `null`, and so is a number that is not finite. A date is written
as the text of its instant, and an invalid one as `null`. What is written has
no white space between its tokens.

Reading takes every text of the grammar, with white space anywhere between
tokens. A name that an object has twice keeps the first place and the last
value. Escapes are units of UTF-16; two that belong together are one character,
and one that is alone, which no text here has, is the replacement character.
The reader is bounded by a number of steps, and starts with more than any text
of its length needs.

## Main definitions

* `quote`, `readString`, `joinUnits`: Texts in quotes.
* `stringify`: Writing a value.
* `readValue`, `parse`: Reading a value.
-/

namespace Json

open Zod

section Strings

/-- A character between quotes. -/
def escapeChar (c : Char) : List Char :=
  if c = '"' then ['\\', '"']
  else if c = '\\' then ['\\', '\\']
  else if c.toNat = 0x08 then ['\\', 'b']
  else if c.toNat = 0x09 then ['\\', 't']
  else if c.toNat = 0x0A then ['\\', 'n']
  else if c.toNat = 0x0C then ['\\', 'f']
  else if c.toNat = 0x0D then ['\\', 'r']
  else if c.toNat < 0x20 then
    ['\\', 'u', '0', '0', Nat.digitChar (c.toNat / 16), Nat.digitChar (c.toNat % 16)]
  else [c]

def quote (s : List Char) : List Char := '"' :: (s.flatMap escapeChar ++ ['"'])

/-- The value of a hexadecimal digit. -/
def hexValue (c : Char) : Option Nat :=
  if '0' ≤ c ∧ c ≤ '9' then some (c.toNat - 48)
  else if 'A' ≤ c ∧ c ≤ 'F' then some (c.toNat - 55)
  else if 'a' ≤ c ∧ c ≤ 'f' then some (c.toNat - 87)
  else none

/-- The unit of four hexadecimal digits. -/
def hexUnit (a b c d : Char) : Option Nat := do
  let w ← hexValue a
  let x ← hexValue b
  let y ← hexValue c
  let z ← hexValue d
  pure (w * 4096 + x * 256 + y * 16 + z)

/-- The character of a short escape. -/
def shortEscape (c : Char) : Option Char :=
  if c = '"' ∨ c = '\\' ∨ c = '/' then some c
  else if c = 'b' then some (Char.ofNat 0x08)
  else if c = 't' then some (Char.ofNat 0x09)
  else if c = 'n' then some (Char.ofNat 0x0A)
  else if c = 'f' then some (Char.ofNat 0x0C)
  else if c = 'r' then some (Char.ofNat 0x0D)
  else none

/-- Read up to the closing quote: characters, and the units of escapes. -/
def readString : List Char → Option (List (Char ⊕ Nat) × List Char)
  | [] => none
  | '"' :: s => some ([], s)
  | '\\' :: 'u' :: a :: b :: c :: d :: s =>
      match hexUnit a b c d with
      | some u => (readString s).map (fun r => (.inr u :: r.1, r.2))
      | none => none
  | '\\' :: c :: s =>
      match shortEscape c with
      | some e => (readString s).map (fun r => (.inl e :: r.1, r.2))
      | none => none
  | c :: s =>
      if c.toNat < 0x20 ∨ c = '\\' then none
      else (readString s).map (fun r => (.inl c :: r.1, r.2))

/-- The character of a unit on its own. -/
def unitChar (u : Nat) : Char :=
  if u.isValidChar then Char.ofNat u else Char.ofNat 0xFFFD

/-- Put the units together, two surrogates to a character. The first of two may
    already be `pending`. -/
def joinUnits : Option Nat → List (Char ⊕ Nat) → List Char
  | none, [] => []
  | some h, [] => [unitChar h]
  | none, .inl c :: us => c :: joinUnits none us
  | some h, .inl c :: us => unitChar h :: c :: joinUnits none us
  | none, .inr u :: us =>
      if 0xD800 ≤ u ∧ u < 0xDC00 then joinUnits (some u) us else unitChar u :: joinUnits none us
  | some h, .inr u :: us =>
      if 0xDC00 ≤ u ∧ u < 0xE000 then
        Char.ofNat (0x10000 + (h - 0xD800) * 0x400 + (u - 0xDC00)) :: joinUnits none us
      else if 0xD800 ≤ u ∧ u < 0xDC00 then unitChar h :: joinUnits (some u) us
      else unitChar h :: unitChar u :: joinUnits none us

def unescape (us : List (Char ⊕ Nat)) : String := String.ofList (joinUnits none us)

end Strings

section Writing

def nullText : List Char := "null".toList

/-- The text of a date: its instant, if it has one. -/
def dateJson : Option Int → List Char
  | none => nullText
  | some t => if -MAX_TIME ≤ t ∧ t ≤ MAX_TIME then quote (Iso.toISOString t) else nullText

def numberJson : JsNumber → List Char
  | .finite q => numberText q
  | _ => nullText

mutual

/-- `JSON.stringify(value)` -/
def stringify : JsValue → Option (List Char)
  | .undefined => none
  | .null => some nullText
  | .boolean b => some (if b then "true".toList else "false".toList)
  | .number n => some (numberJson n)
  | .string s => some (quote s.toList)
  | .date time => some (dateJson time)
  | .array items => some ('[' :: ([','].intercalate (stringifyItems items) ++ [']']))
  | .object fields => some ('{' :: ([','].intercalate (stringifyFields fields) ++ ['}']))

def stringifyItems : List JsValue → List (List Char)
  | [] => []
  | item :: rest => (stringify item).getD nullText :: stringifyItems rest

def stringifyFields : List (String × JsValue) → List (List Char)
  | [] => []
  | (k, v) :: rest =>
      match stringify v with
      | none => stringifyFields rest
      | some text => (quote k.toList ++ ':' :: text) :: stringifyFields rest

end

end Writing

section Reading

def isSpace (c : Char) : Bool := c ∈ [' ', '\t', '\n', '\r']

def skipSpace (s : List Char) : List Char := s.dropWhile isSpace

/-- Read a mark, perhaps after white space. -/
def mark (c : Char) (s : List Char) : Option (List Char) :=
  match skipSpace s with
  | [] => none
  | d :: rest => if d = c then some rest else none

/-- Read a word off the front of a text. -/
def word (w : List Char) (v : JsValue) (s : List Char) : Option (JsValue × List Char) :=
  if w.isPrefixOf s then some (v, s.drop w.length) else none

mutual

/-- Read a value, in at most so many steps. -/
def readValue : Nat → List Char → Option (JsValue × List Char)
  | 0, _ => none
  | fuel + 1, s =>
      match skipSpace s with
      | [] => none
      | c :: rest =>
          if c = '"' then (readString rest).map (fun r => (.string (unescape r.1), r.2))
          else if c = '[' then
            match mark ']' rest with
            | some rest => some (.array [], rest)
            | none => (readItems fuel rest).map (fun r => (.array r.1, r.2))
          else if c = '{' then
            match mark '}' rest with
            | some rest => some (.object [], rest)
            | none => (readMembers fuel rest).map (fun r => (.object (ownFields r.1), r.2))
          else if c = 'n' then word nullText .null (c :: rest)
          else if c = 't' then word "true".toList (.boolean true) (c :: rest)
          else if c = 'f' then word "false".toList (.boolean false) (c :: rest)
          else (readNumber (c :: rest)).map (fun r => (.number r.1, r.2))

/-- Read the items of an array up to its end. -/
def readItems : Nat → List Char → Option (List JsValue × List Char)
  | 0, _ => none
  | fuel + 1, s =>
      match readValue fuel s with
      | none => none
      | some (v, s) =>
          match mark ',' s with
          | some s => (readItems fuel s).map (fun r => (v :: r.1, r.2))
          | none => (mark ']' s).map (fun s => ([v], s))

/-- Read the members of an object up to its end. -/
def readMembers : Nat → List Char → Option (List (String × JsValue) × List Char)
  | 0, _ => none
  | fuel + 1, s =>
      match (mark '"' s).bind readString with
      | none => none
      | some (key, s) =>
          match (mark ':' s).bind (readValue fuel) with
          | none => none
          | some (v, s) =>
              match mark ',' s with
              | some s => (readMembers fuel s).map (fun r => ((unescape key, v) :: r.1, r.2))
              | none => (mark '}' s).map (fun s => ([(unescape key, v)], s))

end

/-- `JSON.parse(text)`, where none is a thrown `SyntaxError`. -/
def parse (s : List Char) : Option JsValue :=
  match readValue (2 * s.length + 2) s with
  | none => none
  | some (v, rest) => if skipSpace rest = [] then some v else none

end Reading

end Json
