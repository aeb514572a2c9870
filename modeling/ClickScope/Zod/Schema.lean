import ClickScope.Zod.Value

/-!
# Schemas

A schema library: schemas as functions, built from the ones for the primitive
types by the combinators for the rest.

A schema reads the clock, since a refinement may, and makes of a value either
nothing, or an output with the issues found on the way. The output of a check
that failed is still there, and a refinement around it still runs. What a
refinement throws is not an issue: it ends the whole parse, and `none` stands
for it.

An object goes through the keys of its shape, whatever the order of the value's
own. A key that is absent and comes to `undefined` is not set in the output.

## Main definitions

* `Issue`, `Parsed`, `Schema`: What a schema makes of a value.
* `string`, `number`, `coerceNumber`, `coerceDate`, `boolean`: The primitives.
* `refine`, `optional`, `nullable`, `default`: The wrappers.
* `object`: Objects, strict or not about other keys.
* `safeParse`: The whole parse.

## Theorems

* `runChecks_nil`: No issue is that all checks hold.
* `safeParse_success`: What a successful parse has come to.
-/

namespace Zod

/-- A finding, with the path to the value it is about. -/
structure Issue where
  path : List String
  message : String
deriving DecidableEq, Repr

/-- What a schema made of a value: nothing, or an output, with the issues. -/
inductive Parsed : Type
  | aborted (issues : List Issue)
  | parsed (value : JsValue) (issues : List Issue)
deriving Repr

/-- A schema, given the clock and a value; none if it throws. -/
abbrev Schema := Nat → JsValue → Option Parsed

/-- An issue about the value itself. -/
def here (message : String) : Issue := { path := [], message := message }

/-- The issue as seen from an object that has the value under the key. -/
def Issue.under (key : String) (i : Issue) : Issue := { i with path := key :: i.path }

/-- `getParsedType` -/
def parsedType : JsValue → String
  | .undefined => "undefined"
  | .null => "null"
  | .boolean _ => "boolean"
  | .number .nan => "nan"
  | .number _ => "number"
  | .string _ => "string"
  | .date _ => "date"
  | .array _ => "array"
  | .object _ => "object"

/-- The issue of a value of another type, with the text for a missing one. -/
def invalidType (expected : String) (requiredError : String) (v : JsValue) : Parsed :=
  .aborted [here (match v with
    | .undefined => requiredError
    | v => "Expected " ++ expected ++ ", received " ++ parsedType v)]

/-- The text for a missing value, unless a schema has its own. -/
def REQUIRED : String := "Required"

/-- A check with the message of its issue. -/
structure Check (α : Type) where
  holds : α → Bool
  message : String

/-- All checks are made; each that fails adds its issue. -/
def runChecks {α : Type} (checks : List (Check α)) (a : α) : List Issue :=
  (checks.filter (fun c => !c.holds a)).map (fun c => here c.message)

theorem runChecks_nil {α : Type} {checks : List (Check α)} {a : α} :
    runChecks checks a = [] ↔ ∀ c ∈ checks, c.holds a = true := by
  unfold runChecks
  rw [List.map_eq_nil_iff, List.filter_eq_nil_iff]
  simp only [Bool.not_eq_true, Bool.not_eq_false']

/-- The length of a text in UTF-16 code units. -/
def jsLength (s : String) : Nat :=
  (s.toList.map (fun c => if c.toNat < 0x10000 then 1 else 2)).sum

def minMessage (n : Nat) : String := s!"String must contain at least {n} character(s)"

def maxMessage (n : Nat) : String := s!"String must contain at most {n} character(s)"

def min (n : Nat) (message : String := minMessage n) : Check String :=
  { holds := fun s => decide (n ≤ jsLength s), message := message }

def max (n : Nat) (message : String := maxMessage n) : Check String :=
  { holds := fun s => decide (jsLength s ≤ n), message := message }

def regex (test : String → Bool) (message : String) : Check String :=
  { holds := test, message := message }

def email (H : Host) (message : String) : Check String :=
  { holds := H.isEmail, message := message }

def uuid (H : Host) (message : String) : Check String :=
  { holds := H.isUuid, message := message }

def url (H : Host) (message : String) : Check String :=
  { holds := fun s => (H.urlProtocol s).isSome, message := message }

/-- The integer a number is, if it is one. -/
def JsNumber.toInt? : JsNumber → Option Int
  | .nan => none
  | .infinite _ => none
  | .finite q => if q.den = 1 then some q.num else none

def JsNumber.positive : JsNumber → Bool
  | .nan => false
  | .infinite negative => !negative
  | .finite q => decide (0 < q)

def JsNumber.nonnegative : JsNumber → Bool
  | .nan => false
  | .infinite negative => !negative
  | .finite q => decide (0 ≤ q)

def int : Check JsNumber :=
  { holds := fun n => n.toInt?.isSome, message := "Expected integer, received float" }

def positive (message : String) : Check JsNumber :=
  { holds := JsNumber.positive, message := message }

def nonnegative (message : String) : Check JsNumber :=
  { holds := JsNumber.nonnegative, message := message }

/-- `z.string()` with its checks. -/
def string (checks : List (Check String)) (requiredError : String := REQUIRED) : Schema :=
  fun _ v => match v with
    | .string s => some (.parsed (.string s) (runChecks checks s))
    | v => some (invalidType "string" requiredError v)

/-- `z.number()` with its checks. -/
def number (checks : List (Check JsNumber)) : Schema :=
  fun _ v => match v with
    | .number .nan => some (invalidType "number" REQUIRED (.number .nan))
    | .number n => some (.parsed (.number n) (runChecks checks n))
    | v => some (invalidType "number" REQUIRED v)

/-- `z.coerce.number()` with its checks. -/
def coerceNumber (H : Host) (checks : List (Check JsNumber)) : Schema :=
  fun now v => match toNumber H v with
    | none => none
    | some n => number checks now (.number n)

/-- `z.coerce.date()` -/
def coerceDate (H : Host) : Schema :=
  fun _ v => match toDate H v with
    | none => none
    | some none => some (.aborted [here "Invalid date"])
    | some (some t) => some (.parsed (.date (some t)) [])

/-- `z.boolean()` -/
def boolean : Schema :=
  fun _ v => match v with
    | .boolean b => some (.parsed (.boolean b) [])
    | v => some (invalidType "boolean" REQUIRED v)

/-- `.refine(check, message)`, where a check that throws answers none. -/
def refine (s : Schema) (check : Nat → JsValue → Option Bool) (message : String) : Schema :=
  fun now v => match s now v with
    | none => none
    | some (.aborted issues) => some (.aborted issues)
    | some (.parsed a issues) =>
        match check now a with
        | none => none
        | some true => some (.parsed a issues)
        | some false => some (.parsed a (issues ++ [here message]))

/-- `.optional()` -/
def optional (s : Schema) : Schema :=
  fun now v => match v with
    | .undefined => some (.parsed .undefined [])
    | v => s now v

/-- `.nullable()` -/
def nullable (s : Schema) : Schema :=
  fun now v => match v with
    | .null => some (.parsed .null [])
    | v => s now v

/-- `.default(d)` -/
def default (s : Schema) (d : JsValue) : Schema :=
  fun now v => match v with
    | .undefined => s now d
    | v => s now v

def JsValue.isUndefined : JsValue → Bool
  | .undefined => true
  | _ => false

/-- Parse the fields of a shape, in its order. All of them are parsed, whatever
    becomes of the ones before; one that comes to nothing leaves no output. -/
def parseShape (now : Nat) (fields : List (String × JsValue)) :
    List (String × Schema) → Option (List Issue × Option (List (String × JsValue)))
  | [] => some ([], some [])
  | (key, s) :: rest =>
      match s now (get fields key), parseShape now fields rest with
      | some (.aborted issues), some (more, _) => some (issues.map (·.under key) ++ more, none)
      | some (.parsed v issues), some (more, out) =>
          some (issues.map (·.under key) ++ more, out.map (fun out =>
            if v.isUndefined && !has fields key then out else (key, v) :: out))
      | _, _ => none

theorem parseShape_nil (now : Nat) (fields : List (String × JsValue)) :
    parseShape now fields [] = some ([], some []) :=
  rfl

theorem parseShape_first (now : Nat) (fields : List (String × JsValue)) (key : String) (s : Schema)
    (rest : List (String × Schema)) :
    parseShape now fields ((key, s) :: rest) =
      match s now (get fields key), parseShape now fields rest with
      | some (.aborted issues), some (more, _) => some (issues.map (·.under key) ++ more, none)
      | some (.parsed v issues), some (more, out) =>
          some (issues.map (·.under key) ++ more, out.map (fun out =>
            if v.isUndefined && !has fields key then out else (key, v) :: out))
      | _, _ => none :=
  rfl

/-- What an object schema does about keys outside its shape. -/
inductive UnknownKeys : Type
  | strip
  | strict
deriving DecidableEq, Repr

/-- The issue about keys outside the shape, if there are any and it matters. -/
def unrecognized (unknownKeys : UnknownKeys) (shape : List (String × Schema))
    (fields : List (String × JsValue)) : List Issue :=
  match unknownKeys with
  | .strip => []
  | .strict =>
      match (fields.map (·.1)).filter (fun k => !(shape.map (·.1)).contains k) with
      | [] => []
      | extra => [here ("Unrecognized key(s) in object: " ++
          String.intercalate ", " (extra.map (fun k => "'" ++ k ++ "'")))]

/-- `z.object(shape)`, and `.strict()`. -/
def object (unknownKeys : UnknownKeys) (shape : List (String × Schema)) : Schema :=
  fun now v => match v with
    | .object fields =>
        match parseShape now fields shape with
        | none => none
        | some (issues, none) => some (.aborted (issues ++ unrecognized unknownKeys shape fields))
        | some (issues, some out) =>
            some (.parsed (.object out) (issues ++ unrecognized unknownKeys shape fields))
    | v => some (invalidType "object" REQUIRED v)

/-- The result of a parse that threw nothing. -/
inductive SafeParse : Type
  | success (data : JsValue)
  | failure (issues : List Issue)
deriving Repr

/-- `schema.safeParse(value)` -/
def safeParse (s : Schema) (now : Nat) (v : JsValue) : Option SafeParse :=
  match s now v with
  | none => none
  | some (.aborted issues) => some (.failure issues)
  | some (.parsed a []) => some (.success a)
  | some (.parsed _ issues) => some (.failure issues)

/-- The schema takes the value, and makes the output of it. -/
def Accepts (s : Schema) (now : Nat) (v a : JsValue) : Prop :=
  s now v = some (.parsed a [])

/-- A parse succeeds exactly if it finds no issue. -/
theorem safeParse_success {s : Schema} {now : Nat} {v a : JsValue} :
    safeParse s now v = some (.success a) ↔ Accepts s now v a := by
  unfold safeParse Accepts
  rcases s now v with _ | issues | ⟨b, _ | ⟨i, issues⟩⟩
  · simp only [reduceCtorEq]
  · simp only [Option.some.injEq, reduceCtorEq]
  · simp only [Option.some.injEq, SafeParse.success.injEq, Parsed.parsed.injEq, and_true]
  · simp only [Option.some.injEq, reduceCtorEq, Parsed.parsed.injEq, and_false]

end Zod
