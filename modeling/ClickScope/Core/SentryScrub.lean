import ClickScope.Core.SearchParams
import ClickScope.Json.Text

/-!
# Scrubbing Events

`scrubSentryEvent`, which every event passes on its way to Sentry.

The values here are those that code can come across, not only what JSON can
say: an object has a prototype, which is the built-in one unless a property
named `__proto__` was assigned. Assigning it is all that tells an assignment
from a definition, and it is why a redacted object can lose a property. A
symbol, a function or a big integer is passed on as it is.

A property that an object does not own is read from its prototype, if that is
an object too.

## Main definitions

* `JsData`: The values.
* `assignKey`: Assigning a property.
* `redactDeep`: Redacting by name, at any depth.
* `redactCookies`: Redacting every value.
* `scrubQueryString`: A query string without its `code`.
* `scrubSentryEvent`: The hook.
-/

namespace ClickScope

open Zod Json

section Values

inductive Primitive : Type
  | undefined
  | null
  | boolean (b : Bool)
  | number (n : JsNumber)
  | string (s : String)
  | other (id : Nat)
deriving DecidableEq, Repr

/-- A value. The prototype of an object is the built-in one, or what was
    assigned. -/
inductive JsData : Type
  | primitive (p : Primitive)
  | array (items : List JsData)
  | object (proto : Option JsData) (fields : List (String × JsData))
deriving Repr

def undefinedData : JsData := .primitive .undefined

def textData (s : String) : JsData := .primitive (.string s)

/-- Whether a value passes a test. -/
def JsData.truthy : JsData → Bool
  | .primitive .undefined => false
  | .primitive .null => false
  | .primitive (.boolean b) => b
  | .primitive (.number n) => !(n == .nan || n == .finite 0)
  | .primitive (.string s) => s != ""
  | .primitive (.other _) => true
  | .array _ => true
  | .object _ _ => true

def JsData.isUndefined : JsData → Bool
  | .primitive .undefined => true
  | _ => false

/-- `value.key`, for a key that no built-in prototype has. -/
def prop (key : String) : JsData → JsData
  | .object (some proto) fields => (fields.lookup key).getD (prop key proto)
  | .object none fields => (fields.lookup key).getD undefinedData
  | _ => undefinedData

/-- The own enumerable properties. Items and characters are numbered. -/
def entries : JsData → List (String × JsData)
  | .object _ fields => fields
  | .array items => items.zipIdx.map (fun p => (p.2.repr, p.1))
  | .primitive (.string s) =>
      s.toList.zipIdx.map (fun p => (p.2.repr, textData (String.singleton p.1)))
  | .primitive _ => []

/-- An object under construction: its prototype and its properties. -/
abbrev NewObject : Type := Option JsData × List (String × JsData)

/-- `result[key] = value` on an object that was made by `{}`. A name of the
    prototype's own sets the prototype, if the value is an object or null. -/
def assignKey (key : String) (value : JsData) (result : NewObject) : NewObject :=
  if key = "__proto__" then
    match value with
    | .primitive .null => (some value, result.2)
    | .primitive _ => result
    | _ => (some value, result.2)
  else (result.1, setOwn key value result.2)

def NewObject.toObject (r : NewObject) : JsData := .object r.1 r.2

end Values

section Redaction

def SENSITIVE_KEYS : List String :=
  ["authorization", "cookie", "set-cookie", "password", "token", "jwt"]

def REDACTED : JsData := textData "[REDACTED]"

/-- The small letter of a character, as far as it is ASCII: the Kelvin sign has
    one as well. -/
def lowerChar (c : Char) : Char := if c.toNat = 0x212A then 'k' else c.toLower

/-- `SENSITIVE_KEYS.has(key.toLowerCase())` -/
def isSensitive (key : String) : Bool :=
  SENSITIVE_KEYS.contains (String.ofList (key.toList.map lowerChar))

mutual

def redactDeep : JsData → JsData
  | .primitive p => .primitive p
  | .array items => .array (redactItems items)
  | .object _ fields => (redactFields fields (none, [])).toObject

def redactItems : List JsData → List JsData
  | [] => []
  | item :: rest => redactDeep item :: redactItems rest

/-- The loop over the entries. -/
def redactFields : List (String × JsData) → NewObject → NewObject
  | [], result => result
  | (key, val) :: rest, result =>
      redactFields rest
        (assignKey key (if isSensitive key then REDACTED else redactDeep val) result)

end

/-- Every value redacted, whatever its key. -/
def redactCookies (cookies : JsData) : JsData :=
  ((entries cookies).foldl (fun result f => assignKey f.1 REDACTED result) (none, [])).toObject

def scrubQueryString (queryString : String) : String :=
  let params := parseParams queryString.toList
  String.ofList (serializeParams
    (if hasParam "code".toList params then deleteParam "code".toList params else params))

end Redaction

section Events

/-- An event: the own properties of a plain object. -/
abbrev SentryEvent : Type := List (String × JsData)

/-- `value[key]` of an object that has no other prototype. -/
def own (key : String) (fields : List (String × JsData)) : JsData :=
  (fields.lookup key).getD undefinedData

/-- `{ key: value }`, or nothing. -/
def overrideIf (condition : Bool) (key : String) (value : JsData) : List (String × JsData) :=
  if condition then [(key, value)] else []

/-- The query, if it is a text. -/
def queryOverride : JsData → List (String × JsData)
  | .primitive (.string q) => [("query_string", textData (scrubQueryString q))]
  | _ => []

/-- The properties of the request that are replaced. -/
def requestOverrides (request : JsData) : List (String × JsData) :=
  overrideIf (prop "headers" request).truthy "headers" (redactDeep (prop "headers" request)) ++
  overrideIf (prop "cookies" request).truthy "cookies" (redactCookies (prop "cookies" request)) ++
  overrideIf (!(prop "data" request).isUndefined) "data" (redactDeep (prop "data" request)) ++
  queryOverride (prop "query_string" request)

/-- The request of the new event. -/
def scrubRequest (request : JsData) : JsData :=
  .object none (setAll (requestOverrides request) (entries request))

/-- The properties of the event that are replaced. -/
def eventOverrides (event : SentryEvent) : List (String × JsData) :=
  overrideIf (own "request" event).truthy "request" (scrubRequest (own "request" event)) ++
  overrideIf (own "extra" event).truthy "extra" (redactDeep (own "extra" event)) ++
  overrideIf (own "contexts" event).truthy "contexts" (redactDeep (own "contexts" event))

/-- Sentry's `beforeSend` hook. -/
def scrubSentryEvent (event : SentryEvent) : SentryEvent := setAll (eventOverrides event) event

end Events

end ClickScope
