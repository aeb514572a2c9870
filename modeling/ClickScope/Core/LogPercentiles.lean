import ClickScope.Heap.Arrays
import ClickScope.Json.Text

/-!
# Percentiles of the Log

The script that reads the durations of requests from a log: grouping them by
route, the percentiles of a group, and the rows of the table.

The durations of a group are an array, which the script sorts a copy of. Arrays
are on a heap, so that this copying is in the model. Only the rounding of the
index arithmetic is left open: each operation rounds its exact result by some
`Rounding`, which is to the nearest double where the script runs, and `unrounded`
where the arithmetic is exact.

A comparator decides by the sign of a difference. The difference of two doubles
has the sign of the exact one, so it is taken exactly, and a difference that is
not a number counts as zero. The two zeros of the language, which are equal, are
one number.

## Main definitions

* `sortNumbers`: `sort((a, b) => a - b)`.
* `pickIndex`, `computePercentiles`: The percentiles of an array.
* `parseLine`, `groupDurationsByRoute`: Reading a log.
* `tableRows`: The rows that are printed.
-/

namespace ClickScope

open Zod Arrays

section Numbers

/-- `a - b` -/
def subtract : JsNumber → JsNumber → JsNumber
  | .finite a, .finite b => .finite (a - b)
  | .finite _, .infinite negative => .infinite (!negative)
  | .infinite negative, .finite _ => .infinite negative
  | .infinite a, .infinite b => if a = b then .nan else .infinite a
  | _, _ => .nan

/-- `0 < n` -/
def isPositive : JsNumber → Bool
  | .nan => false
  | .infinite negative => !negative
  | .finite q => decide (0 < q)

/-- What an operation makes of its exact result. -/
abbrev Rounding : Type := ℚ → ℚ

def unrounded : Rounding := fun q => q

end Numbers

section Percentiles

/-- A percentile is absent where the script reads outside of the array. -/
structure Percentiles where
  count : Nat
  p50 : Option JsNumber
  p95 : Option JsNumber
  p99 : Option JsNumber
deriving DecidableEq, Repr

/-- `sort((a, b) => a - b)` -/
def sortNumbers (a : Ref) : OnHeap JsNumber Unit :=
  sort (fun a b => isPositive (subtract a b) = false) a

/-- `xs[index]` -/
def elementAt (xs : List JsNumber) (index : Int) : Option JsNumber :=
  if 0 ≤ index then xs[index.toNat]? else none

/-- `Math.min(length - 1, Math.floor((p / 100) * length))` -/
def pickIndex (fl : Rounding) (p length : Nat) : Int :=
  min ((length : Int) - 1) ⌊fl (fl ((p : ℚ) / 100) * length)⌋

def computePercentiles (fl : Rounding) (durations : Ref) : OnHeap JsNumber Percentiles := do
  if (← elements durations).length = 0 then
    return { count := 0, p50 := some (.finite 0), p95 := some (.finite 0), p99 := some (.finite 0) }
  let copy ← newArray (← elements durations)
  sortNumbers copy
  let sorted ← elements copy
  let pick := fun (p : Nat) => elementAt sorted (pickIndex fl p sorted.length)
  return { count := sorted.length, p50 := pick 50, p95 := pick 95, p99 := pick 99 }

end Percentiles

section Grouping

structure RequestCompletedLine where
  method : String
  route : String
  durationMs : JsNumber
deriving DecidableEq, Repr

/-- A line that says that a request was completed. -/
def parseLine (line : String) : Option RequestCompletedLine :=
  match Json.parse line.toList with
  | some (.object record) =>
      match get record "msg", get record "method", get record "route", get record "durationMs" with
      | .string msg, .string method, .string route, .number durationMs =>
          if msg = "Request completed" then some ⟨method, route, durationMs⟩ else none
      | _, _, _, _ => none
  | _ => none

/-- The key of a route pattern. -/
def routeKey (parsed : RequestCompletedLine) : String := parsed.method ++ " " ++ parsed.route

/-- The body of the loop over the lines. -/
def groupLine (grouped : List (String × Ref)) (line : String) :
    OnHeap JsNumber (List (String × Ref)) :=
  match parseLine line with
  | none => pure grouped
  | some parsed =>
      match grouped.lookup (routeKey parsed) with
      | some existing => do
          push existing parsed.durationMs
          pure grouped
      | none => do
          let durations ← newArray [parsed.durationMs]
          pure (grouped ++ [(routeKey parsed, durations)])

def groupDurationsByRoute (lines : List String) : OnHeap JsNumber (List (String × Ref)) :=
  lines.foldlM groupLine []

structure TableRow where
  route : String
  percentiles : Percentiles
deriving DecidableEq, Repr

/-- `sort((a, b) => b.p95 - a.p95)` -/
def sortRows (rows : List TableRow) : List TableRow :=
  rows.insertionSort (fun a b => isPositive (subtract (b.percentiles.p95.getD .nan)
    (a.percentiles.p95.getD .nan)) = false)

/-- The rows that `printTable` prints. -/
def tableRows (fl : Rounding) (grouped : List (String × Ref)) :
    OnHeap JsNumber (List TableRow) := do
  let rows ← grouped.mapM (fun entry => do
    let percentiles ← computePercentiles fl entry.2
    pure { route := entry.1, percentiles })
  pure (sortRows rows)

end Grouping

end ClickScope
