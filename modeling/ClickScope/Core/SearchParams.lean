import ClickScope.Core.Text

/-!
# Query Strings

`URLSearchParams`, as the scrubbing of events uses it: parsing a query string
into its parameters, asking for one, deleting one, and writing the rest.

Parsing never fails. A percent sign that begins no escape stands for itself,
and bytes that are no UTF-8 become replacement characters, one for each
sequence that cannot go on.

## Main definitions

* `Utf8State`, `decodeLossy`: The decoder of bytes.
* `formBytes`, `parseSegment`, `parseParams`: Parsing.
* `formWrite`, `serializeParams`: Writing.
-/

namespace ClickScope

section Decoding

/-- Where the decoder stands in a character: how many bytes are missing, what
    it has read, and between which bounds the next byte must be. -/
structure Utf8State where
  need : Nat
  acc : Nat
  lower : Nat
  upper : Nat
deriving DecidableEq, Repr

namespace Utf8State

def start : Utf8State := ⟨0, 0, 0x80, 0xBF⟩

/-- The first byte of a character, or an error. -/
def lead (b : Nat) : List Char × Utf8State :=
  if b < 0x80 then ([Char.ofNat b], start)
  else if 0xC2 ≤ b ∧ b ≤ 0xDF then ([], ⟨1, b - 0xC0, 0x80, 0xBF⟩)
  else if 0xE0 ≤ b ∧ b ≤ 0xEF then
    ([], ⟨2, b - 0xE0, if b = 0xE0 then 0xA0 else 0x80, if b = 0xED then 0x9F else 0xBF⟩)
  else if 0xF0 ≤ b ∧ b ≤ 0xF4 then
    ([], ⟨3, b - 0xF0, if b = 0xF0 then 0x90 else 0x80, if b = 0xF4 then 0x8F else 0xBF⟩)
  else ([Char.ofNat 0xFFFD], start)

/-- One byte. A byte that cannot go on with a character is an error, and begins
    the next one. -/
def step (s : Utf8State) (b : Nat) : List Char × Utf8State :=
  if s.need = 0 then lead b
  else if s.lower ≤ b ∧ b ≤ s.upper then
    if s.need = 1 then ([Char.ofNat (s.acc * 64 + (b - 0x80))], start)
    else ([], ⟨s.need - 1, s.acc * 64 + (b - 0x80), 0x80, 0xBF⟩)
  else (Char.ofNat 0xFFFD :: (lead b).1, (lead b).2)

end Utf8State

/-- Decode bytes, from some state of the decoder. -/
def decodeLossy (s : Utf8State) : List Nat → List Char
  | [] => if s.need = 0 then [] else [Char.ofNat 0xFFFD]
  | b :: rest => (s.step b).1 ++ decodeLossy (s.step b).2 rest

end Decoding

section Parsing

/-- The bytes of a name or a value: escapes, spaces for plus signs, and the
    bytes of all other characters. -/
def formBytes : List Char → List Nat
  | [] => []
  | '%' :: a :: b :: rest =>
      match hexValue a, hexValue b with
      | some x, some y => (16 * x + y) :: formBytes rest
      | _, _ => 0x25 :: formBytes (a :: b :: rest)
  | c :: rest => (if c = '+' then [0x20] else utf8Bytes c) ++ formBytes rest

/-- The text of a name or a value, as the standard has it. Node takes another way
    to a text with an escape that is not valid: there it cuts characters beyond
    ASCII down to a byte. -/
def formDecode (s : List Char) : List Char := decodeLossy Utf8State.start (formBytes s)

/-- A name and a value, with the first equals sign between them. -/
def parseSegment (segment : List Char) : List Char × List Char :=
  (formDecode (segment.takeWhile (· != '=')), formDecode ((segment.dropWhile (· != '=')).drop 1))

/-- The segments of a query string, without a leading question mark. -/
def querySegments (query : List Char) : List (List Char) :=
  ((if query.head? = some '?' then query.drop 1 else query).splitOn '&').filter (· ≠ [])

/-- `new URLSearchParams(query)` -/
def parseParams (query : List Char) : List (List Char × List Char) :=
  (querySegments query).map parseSegment

/-- `params.has(name)` -/
def hasParam (name : List Char) (params : List (List Char × List Char)) : Bool :=
  params.any (fun p => p.1 == name)

/-- `params.delete(name)` -/
def deleteParam (name : List Char) (params : List (List Char × List Char)) :
    List (List Char × List Char) :=
  params.filter (fun p => p.1 != name)

end Parsing

section Writing

/-- The characters a written parameter leaves alone. -/
def formPlain (c : Char) : Bool := c.isAlphanum || c ∈ ['*', '-', '.', '_']

def formWrite (s : List Char) : List Char :=
  s.flatMap (fun c => if c = ' ' then ['+']
    else if formPlain c then [c] else (utf8Bytes c).flatMap percentEncode)

/-- `params.toString()` -/
def serializeParams (params : List (List Char × List Char)) : List Char :=
  ['&'].intercalate (params.map (fun p => formWrite p.1 ++ '=' :: formWrite p.2))

end Writing

end ClickScope
