import ClickScope.Async.Among
import ClickScope.Theory.Footprint
import ClickScope.Theory.VisitOutcomes
import Mathlib.Algebra.BigOperators.Group.List.Lemmas

/-!
# Daily Stats

Which calendar day the daily counts of a link are listed under.

The server cuts the clicks into days in the time zone of its session, and
answers with the instant each day begins at. The service labels that instant
with its date in UTC. So a label is the date of its clicks exactly if the local
day begins on the same date in UTC, that is, at or after the midnight of UTC:
where the zone is ahead of UTC at that moment every label is a day early.

A label has ten characters, which are the date as long as the year has four
digits.

`daily_stats_iff` says when the stats are exact. One direction computes the
labels. For the other, a day whose label is a day early needs its own label from
the day after it, which then is early too; so there would be no last day.

## Main definitions

* `SessionZone`: The offsets of a session time zone.
* `SessionZone.Truncates`: What `date_trunc('day', _)` does in it.
* `counted`: The clicks the stats are about.
* `StatsExact`: The stats neither lose, duplicate nor misdate a click.
* `LabelledByDate`: A click whose label is its date.

## Theorems

* `getLinkClickStats_run`: The stats as a function of the clicks.
* `statsExact_iff`: When they are exact.
* `daily_stats_iff`: The same, for the runs of the service.
* `stats_misdated`: A click an hour after midnight in India.
-/

namespace ClickScope

open Async Iso

/-- A session time zone, in milliseconds: the offset from UTC at an instant, and
    the one the server resolves the midnight with that begins a local day. A
    midnight can be skipped or occur twice, and the server has its own rules
    for these, so the second is given beside the first. -/
structure SessionZone where
  offset : Int → Int
  midnightOffset : Int → Int
  offset_lt : ∀ t, -MS_PER_DAY < offset t ∧ offset t < MS_PER_DAY
  midnightOffset_lt : ∀ d, -MS_PER_DAY < midnightOffset d ∧ midnightOffset d < MS_PER_DAY

namespace SessionZone

/-- The local calendar day of an instant. -/
def localDay (zone : SessionZone) (t : Int) : Int := (t + zone.offset t) / MS_PER_DAY

/-- The instant a local day begins at. -/
def dayStart (zone : SessionZone) (d : Int) : Int := d * MS_PER_DAY - zone.midnightOffset d

/-- In this zone, `date_trunc('day', _)` is the beginning of the local day. -/
def Truncates (zone : SessionZone) (pg : Postgres) : Prop :=
  ∀ t : Nat, pg.dateTrunc t = zone.dayStart (zone.localDay t)

/-- The calendar date of a click. -/
def dateOf (zone : SessionZone) (c : ClickRow) : String :=
  String.ofList (dateText (civilOfDay (zone.localDay c.clickedAt)))

/-- The date in UTC of a local day's beginning. -/
theorem dayStart_div (zone : SessionZone) (d : Int) :
    zone.dayStart d / MS_PER_DAY = if zone.midnightOffset d ≤ 0 then d else d - 1 := by
  have hlt := zone.midnightOffset_lt d
  unfold dayStart
  unfold MS_PER_DAY at *
  split_ifs with h
  · omega
  · omega

/-- A click does not come before the day that precedes the epoch. -/
theorem localDay_ge (zone : SessionZone) (t : Nat) : -1 ≤ zone.localDay t := by
  have hlt := zone.offset_lt t
  unfold localDay
  unfold MS_PER_DAY at *
  omega

end SessionZone

/-- The clicks of a link since an instant. -/
def counted (db : Db) (linkId : String) (since : Int) : List ClickRow :=
  db.clicks.filter (fun c =>
    Uuid.read linkId == some c.linkId && decide (since ≤ (c.clickedAt : Int)))

/-- The entry the service makes of a bucket. -/
def entryOf (pg : Postgres) (clicks : List ClickRow) (bucket : Int) : LinkClickStats :=
  { day := dayLabel bucket
    clicks := (clicks.map (fun c => pg.dateTrunc c.clickedAt)).count bucket }

def statsOf (pg : Postgres) (clicks : List ClickRow) : List LinkClickStats :=
  ((clicks.map (fun c => pg.dateTrunc c.clickedAt)).dedup.insertionSort (· ≤ ·)).map
    (entryOf pg clicks)

/-- Every click is counted in one entry, the one under its date. -/
structure StatsExact (zone : SessionZone) (clicks : List ClickRow) (stats : List LinkClickStats) :
    Prop where
  increasing : (stats.map (·.day)).Pairwise (· < ·)
  counted : ∀ c ∈ clicks, ∃! e, e ∈ stats ∧ e.day = zone.dateOf c
  counts : ∀ e ∈ stats, e.clicks = clicks.countP (fun c => zone.dateOf c == e.day)
  total : (stats.map (·.clicks)).sum = clicks.length

/-- The click's day begins at or after the midnight of UTC of its date, in a
    year of four digits. -/
def LabelledByDate (zone : SessionZone) (c : ClickRow) : Prop :=
  zone.midnightOffset (zone.localDay c.clickedAt) ≤ 0 ∧ FourDigits (zone.localDay c.clickedAt)

section Labels

variable {pg : Postgres} {zone : SessionZone} {clicks : List ClickRow}

theorem dayLabel_length (b : Int) : (dayLabel b).toList.length ≤ 10 := by
  rw [dayLabel, String.toList_ofList, List.length_take]
  exact Nat.min_le_left _ _

theorem dayLabel_fourDigits {b : Int} (h : FourDigits (b / MS_PER_DAY)) :
    dayLabel b = String.ofList (dateText (civilOfDay (b / MS_PER_DAY))) := by
  rw [dayLabel, toISOString_take h]

/-- Two dates with one text are the same. -/
theorem dateText_inj {d d' : Int} (hd : FourDigits d) (hd' : FourDigits d')
    (h : dateText (civilOfDay d) = dateText (civilOfDay d')) : d = d' := by
  rcases lt_trichotomy d d' with hlt | heq | hgt
  · have hless := dateText_lt hd hd' hlt
    rw [h] at hless
    exact absurd hless (List.lt_irrefl _)
  · exact heq
  · have hless := dateText_lt hd' hd hgt
    rw [h] at hless
    exact absurd hless (List.lt_irrefl _)

/-- The bucket of a click that is labelled by its date begins on that date. -/
theorem bucket_day (hpg : zone.Truncates pg) {c : ClickRow} (h : LabelledByDate zone c) :
    pg.dateTrunc c.clickedAt / MS_PER_DAY = zone.localDay c.clickedAt := by
  rw [hpg, zone.dayStart_div, if_pos h.1]

theorem bucket_label (hpg : zone.Truncates pg) {c : ClickRow} (h : LabelledByDate zone c) :
    dayLabel (pg.dateTrunc c.clickedAt) = zone.dateOf c := by
  have hday := bucket_day hpg h
  rw [dayLabel_fourDigits (by rw [hday]; exact h.2), hday]
  rfl

/-- And two such clicks share a bucket exactly if they share the date. -/
theorem bucket_eq_iff (hpg : zone.Truncates pg) {c c' : ClickRow} (h : LabelledByDate zone c)
    (h' : LabelledByDate zone c') :
    pg.dateTrunc c.clickedAt = pg.dateTrunc c'.clickedAt ↔ zone.dateOf c = zone.dateOf c' := by
  constructor
  · intro heq
    rw [← bucket_label hpg h, heq, bucket_label hpg h']
  · intro heq
    have hday := dateText_inj h.2 h'.2 (String.ofList_injective heq)
    rw [hpg, hpg, hday]

/-- Every entry is that of a click's bucket. -/
theorem mem_statsOf {e : LinkClickStats} : e ∈ statsOf pg clicks ↔
    ∃ c ∈ clicks, e = entryOf pg clicks (pg.dateTrunc c.clickedAt) := by
  unfold statsOf
  simp only [List.mem_map, List.mem_insertionSort, List.mem_dedup]
  constructor
  · rintro ⟨_, ⟨c, hc, rfl⟩, rfl⟩
    exact ⟨c, hc, rfl⟩
  · rintro ⟨c, hc, rfl⟩
    exact ⟨_, ⟨c, hc, rfl⟩, rfl⟩

theorem statsOf_total (pg : Postgres) (clicks : List ClickRow) :
    ((statsOf pg clicks).map (·.clicks)).sum = clicks.length := by
  have hsum := List.sum_map_count_dedup_eq_length (clicks.map (fun c => pg.dateTrunc c.clickedAt))
  rw [List.length_map] at hsum
  rw [← hsum]
  unfold statsOf
  rw [List.map_map]
  exact ((List.perm_insertionSort _ _).map _).sum_eq

/-- The buckets are in the order of their instants, each once. -/
theorem buckets_increasing (days : List Int) :
    (days.dedup.insertionSort (· ≤ ·)).Pairwise (· < ·) := by
  have hsorted := List.pairwise_insertionSort (· ≤ ·) days.dedup
  have hnodup : (days.dedup.insertionSort (· ≤ ·)).Nodup :=
    (List.perm_insertionSort _ _).nodup_iff.mpr (List.nodup_dedup _)
  exact (hsorted.and hnodup).imp (fun h => lt_of_le_of_ne h.1 h.2)

/-- The stats are exact if every click is labelled by its date. -/
theorem statsOf_exact (hpg : zone.Truncates pg) (h : ∀ c ∈ clicks, LabelledByDate zone c) :
    StatsExact zone clicks (statsOf pg clicks) := by
  -- An entry counts the clicks of its date.
  have hcount : ∀ c ∈ clicks, (clicks.map (fun c => pg.dateTrunc c.clickedAt)).count
      (pg.dateTrunc c.clickedAt) = clicks.countP (fun c' => zone.dateOf c' == zone.dateOf c) := by
    intro c hc
    rw [List.count, List.countP_map]
    refine List.countP_congr (fun c' hc' => ?_)
    simp only [Function.comp_apply, beq_iff_eq]
    exact bucket_eq_iff hpg (h c' hc') (h c hc)
  refine
    { increasing := ?_
      counted := fun c hc => ?_
      counts := fun e he => ?_
      total := statsOf_total pg clicks }
  · unfold statsOf
    rw [List.map_map, List.pairwise_map]
    refine List.Pairwise.imp_of_mem (fun hb hb' hlt => ?_) (buckets_increasing _)
    simp only [List.mem_insertionSort, List.mem_dedup, List.mem_map] at hb hb'
    rcases hb with ⟨c, hc, rfl⟩
    rcases hb' with ⟨c', hc', rfl⟩
    have hday := bucket_day hpg (h c hc)
    have hday' := bucket_day hpg (h c' hc')
    have hle : zone.localDay c.clickedAt ≤ zone.localDay c'.clickedAt := by
      rw [← hday, ← hday']
      exact Int.ediv_le_ediv (by decide) hlt.le
    have hne : zone.localDay c.clickedAt ≠ zone.localDay c'.clickedAt := by
      intro heq
      rw [hpg, hpg, heq] at hlt
      exact lt_irrefl _ hlt
    have htext := dateText_lt (h c hc).2 (h c' hc').2 (lt_of_le_of_ne hle hne)
    change dayLabel (pg.dateTrunc c.clickedAt) < dayLabel (pg.dateTrunc c'.clickedAt)
    rw [bucket_label hpg (h c hc), bucket_label hpg (h c' hc')]
    change (zone.dateOf c).toList < (zone.dateOf c').toList
    rw [SessionZone.dateOf, SessionZone.dateOf, String.toList_ofList, String.toList_ofList]
    exact htext
  · refine ⟨_, ⟨mem_statsOf.mpr ⟨c, hc, rfl⟩, bucket_label hpg (h c hc)⟩, ?_⟩
    rintro e ⟨he, hlabel⟩
    rcases mem_statsOf.mp he with ⟨c', hc', rfl⟩
    rw [entryOf, bucket_label hpg (h c' hc')] at hlabel
    rw [(bucket_eq_iff hpg (h c' hc') (h c hc)).mpr hlabel]
  · rcases mem_statsOf.mp he with ⟨c, hc, rfl⟩
    rw [entryOf, hcount c hc, bucket_label hpg (h c hc)]

/-- A day that is labelled a day early needs its own label from the day after. -/
theorem early_next (hpg : zone.Truncates pg) (h : StatsExact zone clicks (statsOf pg clicks))
    (hfour : ∀ c ∈ clicks, FourDigits (zone.localDay c.clickedAt)) {c : ClickRow} (hc : c ∈ clicks)
    (hearly : 0 < zone.midnightOffset (zone.localDay c.clickedAt)) :
    ∃ c' ∈ clicks, zone.localDay c'.clickedAt = zone.localDay c.clickedAt + 1 ∧
      0 < zone.midnightOffset (zone.localDay c'.clickedAt) := by
  rcases (h.counted c hc).exists with ⟨e, he, hlabel⟩
  rcases mem_statsOf.mp he with ⟨c', hc', rfl⟩
  have hstart := zone.dayStart_div (zone.localDay c'.clickedAt)
  have hge := zone.localDay_ge c'.clickedAt
  -- The bucket of `c'` begins on the date of `c`.
  have hday : zone.dayStart (zone.localDay c'.clickedAt) / MS_PER_DAY = zone.localDay c.clickedAt
      := by
    have hdigits : FourDigits (zone.dayStart (zone.localDay c'.clickedAt) / MS_PER_DAY) := by
      have hfour' := hfour c' hc'
      have hlow : (civilOfDay (-2)).year
          ≤ (civilOfDay (zone.dayStart (zone.localDay c'.clickedAt) / MS_PER_DAY)).year :=
        civilOfDay_year_mono (by split_ifs at hstart <;> omega)
      have hhigh : (civilOfDay (zone.dayStart (zone.localDay c'.clickedAt) / MS_PER_DAY)).year
          ≤ (civilOfDay (zone.localDay c'.clickedAt)).year :=
        civilOfDay_year_mono (by split_ifs at hstart <;> omega)
      have hyear : (civilOfDay (-2)).year = 1969 := by decide
      unfold FourDigits at *
      omega
    rw [entryOf, hpg, dayLabel_fourDigits hdigits] at hlabel
    exact dateText_inj hdigits (hfour c hc) (String.ofList_injective hlabel)
  rw [hday] at hstart
  by_cases hback : zone.midnightOffset (zone.localDay c'.clickedAt) ≤ 0
  · rw [if_pos hback] at hstart
    rw [hstart] at hearly
    omega
  · rw [if_neg hback] at hstart
    exact ⟨c', hc', by omega, by omega⟩

/-- The days of finitely many clicks have a last. -/
theorem exists_last_day (zone : SessionZone) (clicks : List ClickRow) :
    ∃ d, ∀ c ∈ clicks, zone.localDay c.clickedAt ≤ d := by
  induction clicks with
  | nil => exact ⟨0, fun c hc => by cases hc⟩
  | cons c clicks ih =>
      rcases ih with ⟨d, hd⟩
      refine ⟨max d (zone.localDay c.clickedAt), fun c' hc' => ?_⟩
      rcases List.mem_cons.mp hc' with rfl | hc'
      · exact le_max_right _ _
      · exact (hd c' hc').trans (le_max_left _ _)

/-- Exact stats label every click by its date. -/
theorem labelled_of_exact (hpg : zone.Truncates pg)
    (h : StatsExact zone clicks (statsOf pg clicks)) : ∀ c ∈ clicks, LabelledByDate zone c := by
  -- A date with more than four digits in its year is no label.
  have hfour : ∀ c ∈ clicks, FourDigits (zone.localDay c.clickedAt) := by
    intro c hc
    by_contra hlong
    rcases (h.counted c hc).exists with ⟨e, he, hlabel⟩
    rcases mem_statsOf.mp he with ⟨c', _, rfl⟩
    have hlen : (zone.dateOf c).toList.length ≤ 10 := by
      rw [← hlabel]
      exact dayLabel_length (pg.dateTrunc c'.clickedAt)
    rw [SessionZone.dateOf, String.toList_ofList, dateText_long hlong] at hlen
    omega
  intro c hc
  refine ⟨?_, hfour c hc⟩
  by_contra hahead
  -- From an early day on, every next day has clicks.
  have hchain : ∀ n : Nat, ∃ c' ∈ clicks,
      zone.localDay c'.clickedAt = zone.localDay c.clickedAt + n ∧
      0 < zone.midnightOffset (zone.localDay c'.clickedAt) := by
    intro n
    induction n with
    | zero => exact ⟨c, hc, by omega, by omega⟩
    | succ n ih =>
        rcases ih with ⟨c', hc', hday, hearly⟩
        rcases early_next hpg h hfour hc' hearly with ⟨c₂, hc₂, hday₂, hearly₂⟩
        exact ⟨c₂, hc₂, by omega, hearly₂⟩
  rcases exists_last_day zone clicks with ⟨last, hlast⟩
  rcases hchain (last - zone.localDay c.clickedAt + 1).toNat with ⟨c', hc', hday, _⟩
  have hle := hlast c' hc'
  have hle' := hlast c hc
  omega

/-- The stats are exact precisely if every click is labelled by its date. -/
theorem statsExact_iff (hpg : zone.Truncates pg) :
    StatsExact zone clicks (statsOf pg clicks) ↔ ∀ c ∈ clicks, LabelledByDate zone c :=
  ⟨labelled_of_exact hpg, statsOf_exact hpg⟩

end Labels

section Runs

variable {P : Platform} {tid : Nat} {userId linkId : String} {since : Int} {db : Db}

/-- Other programs may do anything that leaves the links and the clicks as they
    are. -/
def tablesKept (w w' : World) : Bool :=
  decide (w'.db.links = w.db.links ∧ w'.db.clicks = w.db.clicks)

/-- The tables of a world are those of `db`. -/
def HasTables (db : Db) (w : World) : Prop := w.db.links = db.links ∧ w.db.clicks = db.clicks

theorem tablesKept_keeps (w w' : World) (h : tablesKept w w' = true) (hw : HasTables db w) :
    HasTables db w' := by
  have hkept := of_decide_eq_true h
  exact ⟨hkept.1.trans hw.1, hkept.2.trans hw.2⟩

/-- What the statement counts for an owned link. -/
theorem dailyCounts_entries {pg : Postgres}
    (hown : db.links.any (Db.ownedBy linkId userId) = true) :
    (db.dailyCounts pg linkId userId since).map
      (fun row => ({ day := dayLabel row.1, clicks := row.2 } : LinkClickStats))
      = statsOf pg (counted db linkId since) := by
  have hjoined : (fun c : ClickRow => Uuid.read linkId == some c.linkId &&
      decide (since ≤ (c.clickedAt : Int)) && db.links.any (Db.ownedBy linkId userId))
      = fun c : ClickRow => Uuid.read linkId == some c.linkId &&
        decide (since ≤ (c.clickedAt : Int)) := by
    funext c
    rw [hown, Bool.and_true]
  unfold Db.dailyCounts statsOf counted
  rw [hjoined, List.map_map]
  rfl

/-- The id of an owned link is one. -/
theorem uuidError_owned (hown : db.links.any (Db.ownedBy linkId userId) = true) :
    uuidError linkId = none := by
  rcases List.any_eq_true.mp hown with ⟨row, _, howned⟩
  exact uuidError_eq_none.mpr ((Db.ownedBy_iff.mp howned).1 ▸ rfl)

/-- The stats of an owned link, as a function of its clicks. An instant that the
    server has no timestamp for is refused. -/
theorem getLinkClickStats_run (hown : db.links.any (Db.ownedBy linkId userId) = true) (w : World)
    (hw : HasTables db w) :
    (getLinkClickStats userId linkId since).wp (Prog.among (exec P tid) tablesKept)
      (fun r _ => r = if timestampOk? (some since) = true
        then .ok (some (statsOf P.pg (counted db linkId since)))
        else .error (.db .datetimeFieldOverflow)) w := by
  refine Prog.wp_await_among tablesKept_keeps hw (fun ch v r v' hv hx => ?_)
  have hid : uuidError linkId = none := uuidError_owned hown
  simp only [exec, Db.exec, Db.linkById, hid, Option.some.injEq, Prod.mk.injEq] at hx
  rcases hx with ⟨rfl, rfl⟩
  -- The link is there, so the aggregation is run.
  obtain ⟨row, hrow⟩ : ∃ row, (v.db.links.filter (Db.ownedBy linkId userId)).head? = some row := by
    rcases List.any_eq_true.mp hown with ⟨row, hmem, howned⟩
    rw [← hv.1] at hmem
    have hfound := List.mem_filter.mpr ⟨hmem, howned⟩
    cases hrows : v.db.links.filter (Db.ownedBy linkId userId) with
    | nil =>
        rw [hrows] at hfound
        cases hfound
    | cons first rest => exact ⟨first, rfl⟩
  simp only [Prog.pure_eq, Prog.ret_bind, hrow, Option.map_some]
  refine Prog.wp_await_among tablesKept_keeps hv (fun ch₂ v₂ r₂ v₂' hv₂ hx₂ => ?_)
  simp only [exec, Db.exec, Db.clickStats, hid, Option.some.injEq, Prod.mk.injEq] at hx₂
  by_cases hsince : timestampOk? (some since) = true
  · rw [hsince, if_neg (by decide)] at hx₂
    rcases hx₂ with ⟨rfl, rfl⟩
    have hentries : (v₂.db.dailyCounts P.pg linkId userId since).map
        (fun row => ({ day := dayLabel row.1, clicks := row.2 } : LinkClickStats))
        = statsOf P.pg (counted db linkId since) := by
      have hown₂ : v₂.db.links.any (Db.ownedBy linkId userId) = true := by rw [hv₂.1, hown]
      rw [dailyCounts_entries hown₂]
      unfold counted
      rw [hv₂.2]
    rw [if_pos hsince]
    exact congrArg (fun stats => Except.ok (some stats)) hentries
  · rw [Bool.eq_false_of_not_eq_true hsince, if_pos rfl] at hx₂
    rcases hx₂ with ⟨rfl, rfl⟩
    rw [if_neg hsince]
    rfl

/-- And it always comes to that. -/
theorem exists_stats_run (w : World) : ∃ chs r w',
    (getLinkClickStats userId linkId since).seqRun (exec P tid) chs w = some (r, w') := by
  refine Prog.exists_seqRun (fun op v hop => ?_) _ (getLinkClickStats_only userId linkId since) w
  cases op with
  | db s =>
      cases s with
      | listLinks | countLinks | linkById | clickStats => exact ⟨{}, _, _, rfl⟩
      | _ => exact hop.elim
  | _ => exact hop.elim

/-- The stats of an owned link are exact precisely if the server has a timestamp
    for the instant and every counted click is labelled by its date, whatever
    else goes on meanwhile. -/
theorem daily_stats_iff (P : Platform) (zone : SessionZone) (tid : Nat) (userId linkId : String)
    (since : Int) (w : World) (hpg : zone.Truncates P.pg)
    (hown : w.db.links.any (Db.ownedBy linkId userId) = true) :
    (∃ chs r w', (getLinkClickStats userId linkId since).seqRun (exec P tid) chs w
      = some (r, w')) ∧
    ∀ xs r w', (getLinkClickStats userId linkId since).seqRun (Prog.among (exec P tid) tablesKept)
      xs w = some (r, w') →
      ((∃ stats, r = .ok (some stats) ∧ StatsExact zone (counted w.db linkId since) stats) ↔
        timestampOk? (some since) = true ∧
          ∀ c ∈ counted w.db linkId since, LabelledByDate zone c) := by
  refine ⟨exists_stats_run w, fun xs r w' hrun => ?_⟩
  have hr := (Prog.wp_iff _ _).mp (getLinkClickStats_run hown w ⟨rfl, rfl⟩) xs r w' hrun
  by_cases hsince : timestampOk? (some since) = true
  · rw [if_pos hsince] at hr
    constructor
    · rintro ⟨stats, hstats, hexact⟩
      rw [hr, Except.ok.injEq, Option.some.injEq] at hstats
      exact ⟨hsince, (statsExact_iff hpg).mp (hstats.symm ▸ hexact)⟩
    · rintro ⟨_, hlabelled⟩
      exact ⟨_, hr, (statsExact_iff hpg).mpr hlabelled⟩
  · rw [if_neg hsince] at hr
    constructor
    · rintro ⟨stats, hstats, _⟩
      rw [hr] at hstats
      cases hstats
    · rintro ⟨hin, _⟩
      exact absurd hin hsince

end Runs

/-- A zone with one offset. -/
def fixedZone (offset : Int) (h : -MS_PER_DAY < offset ∧ offset < MS_PER_DAY) : SessionZone :=
  { offset := fun _ => offset, midnightOffset := fun _ => offset
    offset_lt := fun _ => h, midnightOffset_lt := fun _ => h }

def utcZone : SessionZone := fixedZone 0 (by decide)

/-- India, five and a half hours ahead. -/
def indianZone : SessionZone := fixedZone 19800000 (by decide)

/-- The sample platform with sessions in a zone. -/
def platformIn (zone : SessionZone) : Platform :=
  { samplePlatform with
    pg := { lower := id, dateTrunc := fun t => zone.dayStart (zone.localDay t) } }

/-- One click on a link, at 19:30 UTC on the 15th of January 2026. -/
def clickedWorld : World :=
  { ownerWorld with db := { ownerWorld.db with
      links := [{ protectedLink with id := firstId }]
      clicks := [
      { id := "k", linkId := firstId, clickedAt := 1768505400000, referrer := none,
        userAgent := none,
        jobId := "j" }] } }

theorem daily_stats_iff_utc :
    (∃ chs r w', (getLinkClickStats "u" firstId 0).seqRun (exec (platformIn utcZone) 0) chs
      clickedWorld = some (r, w')) ∧
    ∀ xs r w', (getLinkClickStats "u" firstId 0).seqRun
      (Prog.among (exec (platformIn utcZone) 0) tablesKept) xs clickedWorld = some (r, w') →
      ((∃ stats, r = .ok (some stats) ∧
        StatsExact utcZone (counted clickedWorld.db firstId 0) stats) ↔
        timestampOk? (some 0) = true ∧
          ∀ c ∈ counted clickedWorld.db firstId 0, LabelledByDate utcZone c) :=
  daily_stats_iff (platformIn utcZone) utcZone 0 "u" firstId 0 clickedWorld (fun _ => rfl)
    (by decide)

/-- An hour after midnight in India the click is listed under the day before. -/
theorem stats_misdated : ¬ ∀ (P : Platform) (zone : SessionZone) (tid : Nat)
    (userId linkId : String) (since : Int) (w : World), zone.Truncates P.pg →
    w.db.links.any (Db.ownedBy linkId userId) = true →
    ∀ chs r w', (getLinkClickStats userId linkId since).seqRun (exec P tid) chs w = some (r, w') →
      ∃ stats, r = .ok (some stats) ∧ StatsExact zone (counted w.db linkId since) stats := by
  intro hall
  rcases @exists_stats_run (platformIn indianZone) 0 "u" firstId 0 clickedWorld with
    ⟨chs, r, w', hrun⟩
  have hpg : indianZone.Truncates (platformIn indianZone).pg := fun _ => rfl
  rcases hall (platformIn indianZone) indianZone 0 "u" firstId 0 clickedWorld hpg (by decide) chs r
    w' hrun with ⟨stats, hr, hexact⟩
  -- The run ends with the stats of the click.
  have hkept : ∀ v, tablesKept v v = true := fun v => decide_eq_true ⟨rfl, rfl⟩
  rcases Prog.seqRun_among hkept _ _ _ _ hrun with ⟨xs, hamong⟩
  have hown : clickedWorld.db.links.any (Db.ownedBy firstId "u") = true := by decide
  have hstats := (Prog.wp_iff _ _).mp (getLinkClickStats_run hown clickedWorld ⟨rfl, rfl⟩) xs r w'
    hamong
  rw [hr, if_pos (by decide), Except.ok.injEq, Option.some.injEq] at hstats
  rw [hstats] at hexact
  -- Its day begins before the midnight of UTC.
  have hlabelled := (statsExact_iff hpg).mp hexact
    { id := "k", linkId := firstId, clickedAt := 1768505400000, referrer := none,
      userAgent := none, jobId := "j" } (by decide)
  exact absurd hlabelled.1 (by decide)

end ClickScope
