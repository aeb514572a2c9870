import ClickScope.Theory.Percentiles

/-!
# The Table of a Log

What the rows of the table say about the lines of a log.

The loop over the lines keeps a map from routes to arrays, and each array has
the durations of the lines of its route so far, in their order. The rows are
then computed from these arrays, one after another, and each copy that is
sorted is a new array. So a row reports on the durations of its route, whatever
rows there are besides it.

Where the script runs, the index arithmetic is in doubles. A log has fewer lines
than an array can have elements, which is enough for the percentiles to be the
exact ones.

## Main definitions

* `durationsOf`: The durations of a route in a log.

## Theorems

* `groupDurationsByRoute_groups`: The map has the durations of every route.
* `tableRows_reports`: A row reports on the durations of its array.
* `table_of_log`: The rows are the reports on the routes.
* `tables_agree`: The order of the lines does not matter.
-/

namespace ClickScope

open Zod Arrays Quantiles Json

section Grouping

/-- The duration that a line has for a route. -/
def durationOf (key : String) (line : String) : Option JsNumber :=
  (parseLine line).bind (fun parsed =>
    if routeKey parsed = key then some parsed.durationMs else none)

/-- The durations of a route in a log. -/
def durationsOf (lines : List String) (key : String) : List JsNumber :=
  lines.filterMap (durationOf key)

variable {lines : List String} {line key : String} {parsed : RequestCompletedLine}
  {g h : Heap JsNumber} {grouped : List (String × Ref)}

/-- A line that completes no request has no duration. -/
theorem durationsOf_skip (lines : List String) (h : parseLine line = none) :
    durationsOf (lines ++ [line]) = durationsOf lines := by
  funext key
  rw [durationsOf, List.filterMap_append, List.filterMap_cons_none, List.filterMap_nil,
    List.append_nil, durationsOf]
  rw [durationOf, h, Option.bind_none]

/-- A line that completes a request adds a duration to its route. -/
theorem durationsOf_add (lines : List String) (h : parseLine line = some parsed) :
    durationsOf (lines ++ [line]) = Function.update (durationsOf lines) (routeKey parsed)
      (durationsOf lines (routeKey parsed) ++ [parsed.durationMs]) := by
  funext key
  by_cases hkey : key = routeKey parsed
  · have hline : durationOf (routeKey parsed) line = some parsed.durationMs := by
      rw [durationOf, h, Option.bind_some, if_pos rfl]
    rw [hkey, Function.update_self, durationsOf, List.filterMap_append,
      List.filterMap_cons_some hline, List.filterMap_nil, durationsOf]
  · have hline : durationOf key line = none := by
      rw [durationOf, h, Option.bind_some, if_neg (Ne.symm hkey)]
    rw [Function.update_of_ne hkey, durationsOf, List.filterMap_append,
      List.filterMap_cons_none hline, List.filterMap_nil, List.append_nil, durationsOf]

/-- One line: it is skipped, or it is pushed to the array of its route, or it
    begins a new one. -/
theorem groupLine_groups (line : String)
    (hinv : g <+: h ∧ Groups grouped h g.length (durationsOf lines)) :
    ∃ grouped' h', (groupLine grouped line).run h = (grouped', h') ∧ g <+: h' ∧
      Groups grouped' h' g.length (durationsOf (lines ++ [line])) := by
  rcases hinv with ⟨hpre, hm⟩
  unfold groupLine
  rcases hparsed : parseLine line with _ | parsed
  · rw [durationsOf_skip lines hparsed]
    exact ⟨grouped, h, rfl, hpre, hm⟩
  · rw [durationsOf_add lines hparsed]
    simp only
    rcases hkey : grouped.lookup (routeKey parsed) with _ | existing
    · -- The route is new, so it has no durations yet.
      have hnone := (hm.absent _).mp hkey
      rw [hnone, List.nil_append]
      exact ⟨_, _, rfl, prefix_newArray _ hpre, hm.set hkey parsed.durationMs hpre.length_le⟩
    · -- The loop made the array of the route, so none that was there is written to.
      refine ⟨grouped, _, ?_, prefix_set _ hpre (hm.fresh _ _ hkey), hm.push hkey _⟩
      simp only
      rw [run_then (run_push parsed.durationMs (hm.holds _ _ hkey))]
      rfl

theorem groupDurationsByRoute_groups (lines : List String) (g : Heap JsNumber) :
    ∃ grouped h, (groupDurationsByRoute lines).run g = (grouped, h) ∧ g <+: h ∧
      Groups grouped h g.length (durationsOf lines) := by
  have hrun := run_foldlM (f := groupLine)
    (I := fun done grouped h => g <+: h ∧ Groups grouped h g.length (durationsOf done))
    (fun done grouped line h hinv => groupLine_groups line hinv) lines [] [] g
    ⟨List.prefix_refl g, Groups.nil g g.length⟩
  rw [List.nil_append] at hrun
  exact hrun

end Grouping

section Rows

variable {g : Heap JsNumber} {grouped : List (String × Ref)}

/-- A row reports on the durations of an entry. -/
def ReportsEntry (g : Heap JsNumber) (entry : String × Ref) (row : TableRow) : Prop :=
  row.route = entry.1 ∧
    ∃ qs : List ℚ, g[entry.2]? = some (qs.map .finite) ∧ Reports qs row.percentiles

/-- The rows are computed from the arrays that were there, since a copy that is
    sorted is a new array. -/
theorem tableRows_reports (hentries : ∀ entry ∈ grouped, ∃ qs : List ℚ,
      g[entry.2]? = some (qs.map .finite) ∧ qs ≠ [] ∧ qs.length < 2 ^ 32) :
    ∃ rows h, (tableRows nearest grouped).run g = (sortRows rows, h) ∧
      List.Forall₂ (ReportsEntry g) grouped rows ∧ g <+: h := by
  have hloop := run_mapM (I := fun h => g <+: h) (R := ReportsEntry g)
    (f := fun entry => do
      let percentiles ← computePercentiles nearest entry.2
      pure { route := entry.1, percentiles })
    grouped (fun entry he h hpre => ?_) g (List.prefix_refl g)
  · rcases hloop with ⟨rows, h, hrun, hrows, hpre⟩
    refine ⟨rows, h, ?_, hrows, hpre⟩
    rw [tableRows, run_then hrun]
    rfl
  · -- The array of the entry is still there, whatever copies are behind it by now.
    rcases hentries entry he with ⟨qs, hmem, hne, hlt⟩
    have hmem' := getElem?_of_prefix hpre hmem
    refine ⟨⟨entry.1, reportOf unrounded ((qs.insertionSort (· ≤ ·)).map .finite)⟩, _, ?_,
      ⟨rfl, qs, hmem, reportOf_reports hne⟩,
      prefix_newArray ((qs.insertionSort (· ≤ ·)).map .finite) hpre⟩
    rw [run_then ((computePercentiles_nearest hmem' hlt).trans
      (run_computePercentiles unrounded hmem' hne))]
    rfl

theorem reported_routes {rows : List TableRow}
    (hrows : List.Forall₂ (ReportsEntry g) grouped rows) :
    rows.map (·.route) = grouped.map Prod.fst := by
  have heq : List.Forall₂ (· = ·) (rows.map (·.route)) (grouped.map Prod.fst) := by
    rw [List.forall₂_map_left_iff, List.forall₂_map_right_iff]
    exact (hrows.imp (fun _ _ hrow => hrow.1)).flip
  exact List.forall₂_eq_eq_eq ▸ heq

theorem reported_entry {rows : List TableRow} (hrows : List.Forall₂ (ReportsEntry g) grouped rows) :
    ∀ row ∈ rows, ∃ entry ∈ grouped, ReportsEntry g entry row := by
  intro row hrow
  rcases List.getElem_of_mem hrow with ⟨i, hi, rfl⟩
  have hi' : i < grouped.length := hrows.length_eq.symm ▸ hi
  exact ⟨_, List.get_mem grouped ⟨i, hi'⟩, hrows.get hi' hi⟩

/-- The 95th percentile of a row, if it is a finite number. -/
def rowKey (row : TableRow) : ℚ :=
  match row.percentiles.p95 with
  | some (.finite q) => q
  | _ => 0

/-- Rows of finite percentiles are in descending order. -/
theorem sortRows_descending {rows : List TableRow}
    (hrows : ∀ row ∈ rows, ∃ q, row.percentiles.p95 = some (.finite q)) :
    ((sortRows rows).map rowKey).Pairwise (· ≥ ·) := by
  unfold sortRows
  rw [List.map_insertionSort _ (· ≥ ·) rowKey rows (fun a ha b hb => ?_)]
  · exact List.pairwise_insertionSort (· ≥ ·) _
  · rcases hrows a ha with ⟨x, hx⟩
    rcases hrows b hb with ⟨y, hy⟩
    unfold rowKey
    rw [hx, hy, Option.getD_some, Option.getD_some, subtract_finite]

end Rows

section Log

variable {lines : List String}

/-- Every completed request of the log has a finite duration. -/
def FiniteDurations (lines : List String) : Prop :=
  ∀ line ∈ lines, ∀ parsed, parseLine line = some parsed → ∃ q, parsed.durationMs = .finite q

theorem durationsOf_finite (hfinite : FiniteDurations lines) (key : String) :
    ∃ qs : List ℚ, durationsOf lines key = qs.map .finite := by
  have hrange : durationsOf lines key ∈ Set.range (List.map JsNumber.finite) := by
    rw [Set.range_list_map]
    intro x hx
    -- A duration comes from a line that completes a request of the route.
    rcases List.mem_filterMap.mp hx with ⟨line, hline, hduration⟩
    rcases Option.bind_eq_some_iff.mp hduration with ⟨parsed, hparsed, hkey⟩
    rcases hfinite line hline parsed hparsed with ⟨q, hq⟩
    by_cases hroute : routeKey parsed = key
    · rw [if_pos hroute, hq, Option.some.injEq] at hkey
      exact ⟨q, hkey⟩
    · rw [if_neg hroute] at hkey
      cases hkey
  rcases hrange with ⟨qs, hqs⟩
  exact ⟨qs, hqs.symm⟩

/-- The entries of the map have some durations, and no more than there are lines. -/
theorem entries_finite {g h : Heap JsNumber} {grouped : List (String × Ref)}
    (hfinite : FiniteDurations lines) (hlt : lines.length < 2 ^ 32)
    (hm : Groups grouped h g.length (durationsOf lines)) :
    ∀ entry ∈ grouped, ∃ qs : List ℚ,
      h[entry.2]? = some (qs.map .finite) ∧ qs ≠ [] ∧ qs.length < 2 ^ 32 := by
  intro entry he
  rcases durationsOf_finite hfinite entry.1 with ⟨qs, hqs⟩
  have hentry := hm.entry he
  rw [hqs] at hentry
  have hlength : qs.length ≤ lines.length := by
    have hle := List.length_filterMap_le (durationOf entry.1) lines
    rw [durationsOf] at hqs
    rw [hqs, List.length_map] at hle
    exact hle
  exact ⟨qs, hentry.1, fun hnil => hentry.2 (hnil ▸ rfl), hlength.trans_lt hlt⟩

/-- The table of a log. It has one row for every route with a completed request;
    each row reports on the durations of its route, with doubles for the index;
    and the rows are in the descending order of their 95th percentiles. -/
theorem table_of_log (hfinite : FiniteDurations lines) (hlt : lines.length < 2 ^ 32)
    (g : Heap JsNumber) :
    ∃ rows h, (groupDurationsByRoute lines >>= tableRows nearest).run g = (rows, h) ∧ g <+: h ∧
      (rows.map (·.route)).Nodup ∧
      (∀ key, key ∈ rows.map (·.route) ↔ durationsOf lines key ≠ []) ∧
      (∀ row ∈ rows, ∃ qs, durationsOf lines row.route = qs.map .finite ∧
        Reports qs row.percentiles) ∧
      (rows.map rowKey).Pairwise (· ≥ ·) := by
  rcases groupDurationsByRoute_groups lines g with ⟨grouped, g', hgroup, hpre, hm⟩
  rcases tableRows_reports (entries_finite hfinite hlt hm) with ⟨rows, h, htable, hrows, hpre'⟩
  have hroutes := reported_routes hrows
  -- Before they are sorted the rows are in the order of the map.
  have hperm : (sortRows rows).Perm rows := List.perm_insertionSort _ rows
  have hreports : ∀ row ∈ rows, ∃ qs, durationsOf lines row.route = qs.map .finite ∧
      Reports qs row.percentiles := by
    intro row hrow
    rcases reported_entry hrows row hrow with ⟨entry, he, hroute, qs, hmem, hqs⟩
    have hentry := (hm.entry he).1
    rw [hmem, Option.some.injEq] at hentry
    exact ⟨qs, by rw [hentry, hroute], hqs⟩
  refine ⟨sortRows rows, h, ?_, hpre.trans hpre', ?_, fun key => ?_, fun row hrow => ?_, ?_⟩
  · rw [run_then hgroup, htable]
  · rw [(hperm.map _).nodup_iff, hroutes]
    exact hm.keys
  · rw [(hperm.map _).mem_iff, hroutes]
    exact hm.mem_keys key
  · exact hreports row (hperm.mem_iff.mp hrow)
  · refine sortRows_descending (fun row hrow => ?_)
    rcases hreports row hrow with ⟨qs, -, x50, x95, x99, hrow, -⟩
    exact ⟨x95, by rw [hrow]⟩

/-- Logs of the same lines have the same rows for their routes, in whatever
    order the lines are. -/
theorem tables_agree {lines' : List String} {g g' : Heap JsNumber} {row row' : TableRow}
    (hfinite : FiniteDurations lines) (hlt : lines.length < 2 ^ 32) (hperm : lines.Perm lines')
    (hrow : row ∈ ((groupDurationsByRoute lines >>= tableRows nearest).run g).1)
    (hrow' : row' ∈ ((groupDurationsByRoute lines' >>= tableRows nearest).run g').1)
    (hroute : row.route = row'.route) : row = row' := by
  have hfinite' : FiniteDurations lines' :=
    fun line hline => hfinite line (hperm.mem_iff.mpr hline)
  rcases table_of_log hfinite hlt g with ⟨rows, h, hrun, -, -, -, hreports, -⟩
  rcases table_of_log hfinite' (hperm.length_eq ▸ hlt) g' with
    ⟨rows', h', hrun', -, -, -, hreports', -⟩
  rw [hrun] at hrow
  rw [hrun'] at hrow'
  rcases hreports row hrow with ⟨qs, hqs, hr⟩
  rcases hreports' row' hrow' with ⟨qs', hqs', hr'⟩
  -- The durations of the route are the same but for their order.
  have hdurations : (qs.map JsNumber.finite).Perm (qs'.map JsNumber.finite) := by
    rw [← hqs, ← hqs', ← hroute]
    exact hperm.filterMap _
  have hinj : Function.Injective JsNumber.finite := fun _ _ he => JsNumber.finite.inj he
  have hsame := hr.unique hr' ((List.map_perm_map_iff hinj).mp hdurations)
  cases row
  cases row'
  rw [TableRow.mk.injEq]
  exact ⟨hroute, hsame⟩

end Log

end ClickScope
