import ClickScope.Core.Errors

/-!
# Text Encodings

The string functions of the language that the redirect and the OAuth routes
lean on: percent-encoding, trimming, and the escaping of HTML.

They work on lists of characters. `decodeURIComponent` first turns the escapes
into bytes and then reads UTF-8, byte by byte, out of consecutive escapes; a
malformed escape or an ill-formed sequence is `none`, for the `URIError` the
language throws.

## Main definitions

* `encodeURIComponent`, `decodeURIComponent`: Percent-encoding.
* `trim`: Removing white space at both ends.
* `readCookie`: One cookie's value out of a Cookie header.
* `escapeHtml`: The five replacements of the redirect route.
-/

namespace ClickScope

/-- The characters `encodeURIComponent` leaves alone. -/
def unreserved (c : Char) : Bool :=
  c.isAlphanum || c ∈ ['-', '_', '.', '!', '~', '*', '\'', '(', ')']

def hexDigit (n : Nat) : Char :=
  if n < 10 then Char.ofNat (48 + n) else Char.ofNat (55 + n)

/-- The UTF-8 bytes of a character. -/
def utf8Bytes (c : Char) : List Nat :=
  let n := c.toNat
  if n < 0x80 then [n]
  else if n < 0x800 then [0xC0 + n / 64, 0x80 + n % 64]
  else if n < 0x10000 then [0xE0 + n / 4096, 0x80 + n / 64 % 64, 0x80 + n % 64]
  else [0xF0 + n / 262144, 0x80 + n / 4096 % 64, 0x80 + n / 64 % 64, 0x80 + n % 64]

def percentEncode (b : Nat) : List Char :=
  ['%', hexDigit (b / 16), hexDigit (b % 16)]

def encodeURIComponent (s : List Char) : List Char :=
  s.flatMap (fun c => if unreserved c then [c] else (utf8Bytes c).flatMap percentEncode)

/-- The value of a hexadecimal digit. -/
def hexValue (c : Char) : Option Nat :=
  if '0' ≤ c ∧ c ≤ '9' then some (c.toNat - 48)
  else if 'A' ≤ c ∧ c ≤ 'F' then some (c.toNat - 55)
  else if 'a' ≤ c ∧ c ≤ 'f' then some (c.toNat - 87)
  else none

/-- Read the escapes: a character stands for itself, an escape for a byte. -/
def readEscapes : List Char → Option (List (Char ⊕ Nat))
  | [] => some []
  | '%' :: a :: b :: rest =>
      match hexValue a, hexValue b with
      | some x, some y => (readEscapes rest).map (.inr (16 * x + y) :: ·)
      | _, _ => none
  | '%' :: _ => none
  | c :: rest => (readEscapes rest).map (.inl c :: ·)

/-- Read UTF-8 out of consecutive bytes. `need` continuation bytes are still
    missing from a character read as far as `acc`, which has to come out at
    `low` or above. -/
def readUtf8 : Nat → Nat → Nat → List (Char ⊕ Nat) → Option (List Char)
  | 0, _, _, [] => some []
  | _ + 1, _, _, [] => none
  | 0, _, _, .inl c :: rest => (readUtf8 0 0 0 rest).map (c :: ·)
  | _ + 1, _, _, .inl _ :: _ => none
  | 0, _, _, .inr b :: rest =>
      if b < 0x80 then (readUtf8 0 0 0 rest).map (Char.ofNat b :: ·)
      else if b < 0xC0 then none
      else if b < 0xE0 then readUtf8 1 (b - 0xC0) 0x80 rest
      else if b < 0xF0 then readUtf8 2 (b - 0xE0) 0x800 rest
      else if b < 0xF8 then readUtf8 3 (b - 0xF0) 0x10000 rest
      else none
  | need + 1, acc, low, .inr b :: rest =>
      if b < 0x80 ∨ 0xC0 ≤ b then none
      else
        let acc' := acc * 64 + (b - 0x80)
        if need = 0 then
          if low ≤ acc' ∧ acc'.isValidChar then
            (readUtf8 0 0 0 rest).map (Char.ofNat acc' :: ·)
          else none
        else readUtf8 need acc' low rest

def decodeURIComponent (s : List Char) : Option (List Char) :=
  (readEscapes s).bind (readUtf8 0 0 0)

/-- The white space and line terminators of the language. -/
def isWhiteSpace (c : Char) : Bool :=
  c.toNat ∈ [0x09, 0x0A, 0x0B, 0x0C, 0x0D, 0x20, 0xA0, 0x1680, 0x2028, 0x2029, 0x202F, 0x205F,
    0x3000, 0xFEFF] || (decide (0x2000 ≤ c.toNat) && decide (c.toNat ≤ 0x200A))

def trim (s : List Char) : List Char :=
  ((s.dropWhile isWhiteSpace).reverse.dropWhile isWhiteSpace).reverse

/-- The raw value of one `name=value` part, if it has that name. -/
def cookiePart (name part : List Char) : Option (List Char) :=
  match part.dropWhile (· != '=') with
  | [] => none
  | _ :: value => if trim (part.takeWhile (· != '=')) = name then some (trim value) else none

/-- The decoded value of the first cookie with the name; throws where
    `decodeURIComponent` does. -/
def readCookie (cookieHeader : Option String) (name : String) : Except Err (Option String) :=
  match cookieHeader with
  | none => .ok none
  | some header =>
      match (header.toList.splitOn ';').findSome? (cookiePart name.toList) with
      | none => .ok none
      | some raw =>
          match decodeURIComponent raw with
          | none => .error .uriError
          | some value => .ok (some (String.ofList value))

/-- `value.replace(/c/g, entity)` -/
def replaceAll (c : Char) (entity : String) (s : List Char) : List Char :=
  s.flatMap (fun x => if x = c then entity.toList else [x])

def escapeHtml (value : String) : String :=
  String.ofList (replaceAll '\'' "&#39;" (replaceAll '"' "&quot;" (replaceAll '>' "&gt;"
    (replaceAll '<' "&lt;" (replaceAll '&' "&amp;" value.toList)))))

end ClickScope
