import ClickScope.Async.Among
import ClickScope.Theory.BoundValues
import ClickScope.Theory.Footprint
import ClickScope.Theory.SecondParse
import ClickScope.Theory.Validation
import ClickScope.Theory.VisitOutcomes

/-!
# Pages of a Listing

What a client gets that reads its links page by page.

The client asks for offset zero first. While a page says `hasMore` it goes on,
at the offset that lies the echoed limit further. `Paging` is that loop over
any answers, and knows nothing of the service. The answers come from runs of
the handler, among other programs that may do anything but touch the links
table.

A page of the handler is a slice of one list, `listing`: the owner's rows in
the order of the statement. The offset the client has reached is the number of
rows it has received, and `paging_received` carries that through the loop. The
rest is arithmetic on the last page.

The statement's offset is a `bigint`. A client that follows `hasMore` stays
below the number of rows, so only a table with more rows than that could make
the server refuse an offset.

## Main definitions

* `Paging`: The client's loop.
* `listing`: An owner's rows in their order.
* `Asks`: A query that asks for a page.
* `Answers`: The handler answers a query with a page.
* `PagesPartition`: What the pages of a table amount to.

## Theorems

* `getLinks_page`: The page a request is answered with.
* `paging_received`: What a client has received so far.
* `pages_partition`: The pages partition the listing.
-/

namespace ClickScope

open Async Zod

/-- A client's loop: the pages it has received, and the offset it asks for
    next, if it goes on. -/
inductive Paging (answer : Int → LinkPage → Prop) : List LinkPage → Option Int → Prop
  | start : Paging answer [] (some 0)
  | page {pages : List LinkPage} {offset : Int} {page : LinkPage} :
      Paging answer pages (some offset) → answer offset page →
      Paging answer (pages ++ [page])
        (if page.hasMore then some (offset + page.limit) else none)

/-- The owner's rows, newest first. -/
def listing (links : List LinkRow) (userId : String) : List LinkRow :=
  (links.filter (fun r => r.userId == userId)).insertionSort Db.newerFirst

/-- The slice of a list that a page shows. -/
def pageAt (rows : List LinkRow) (options : ListLinksOptions) : LinkPage :=
  linkPage options
    { links := ((rows.drop options.offset.toNat).take options.limit.toNat).map toLink,
      total := rows.length }

/-- The number a parameter of a query comes to, with its default. -/
def queryNumber (H : Host) (fields : List (String × JsValue)) (key : String) (d : Int) :
    Option JsNumber :=
  if (get fields key).isUndefined then some (.finite d) else toNumber H (get fields key)

/-- The query asks for this limit and this offset. -/
def Asks (H : Host) (rawQuery : JsValue) (limit offset : Int) : Prop :=
  ∃ fields, rawQuery = .object fields ∧
    queryNumber H fields "limit" DEFAULT_PAGE_SIZE = some (.finite limit) ∧
    queryNumber H fields "offset" 0 = some (.finite offset)

/-- Other programs may do anything that leaves the links table as it is. -/
def linksKept (w w' : World) : Bool := decide (w'.db.links = w.db.links)

/-- Some run of the handler answers the query with the page, among others that
    leave this links table as it is. -/
def Answers (P : Platform) (H : Host) (userId : String) (links : List LinkRow)
    (rawQuery : JsValue) (page : LinkPage) : Prop :=
  ∃ (tid : Nat) (countFirst : Bool) (w : World) (xs : List (World × Choice)) (w' : World),
    w.db.links = links ∧
    (getLinks H countFirst userId rawQuery).seqRun (Prog.among (exec P tid) linksKept) xs w
      = some (.ok { status := 200, body := .page page }, w')

theorem linksKept_refl (w : World) : linksKept w w = true := decide_eq_true rfl

/-- The order of the listing is total. -/
theorem newerFirst_total (a b : LinkRow) : Db.newerFirst a b ∨ Db.newerFirst b a := by
  unfold Db.newerFirst
  rcases Nat.lt_trichotomy a.createdAt b.createdAt with h | h | h
  · exact Or.inr (Or.inl h)
  · rcases String.le_total a.id b.id with hid | hid
    · exact Or.inr (Or.inr ⟨h.symm, hid⟩)
    · exact Or.inl (Or.inr ⟨h, hid⟩)
  · exact Or.inl (Or.inl h)

theorem newerFirst_trans {a b c : LinkRow} (hab : Db.newerFirst a b) (hbc : Db.newerFirst b c) :
    Db.newerFirst a c := by
  rcases hab with hab | ⟨hab, hid⟩
  · rcases hbc with hbc | ⟨hbc, _⟩
    · exact Or.inl (by omega)
    · exact Or.inl (by omega)
  · rcases hbc with hbc | ⟨hbc, hid'⟩
    · exact Or.inl (by omega)
    · exact Or.inr ⟨by omega, String.le_trans hid' hid⟩

/-- The listing has exactly the owner's rows. -/
theorem listing_perm (links : List LinkRow) (userId : String) :
    (listing links userId).Perm (links.filter (fun r => r.userId == userId)) :=
  List.perm_insertionSort _ _

/-- And it has them in the order of the statement. -/
theorem listing_sorted (links : List LinkRow) (userId : String) :
    (listing links userId).Pairwise Db.newerFirst := by
  have : Std.Total Db.newerFirst := ⟨newerFirst_total⟩
  have : IsTrans LinkRow Db.newerFirst := ⟨fun _ _ _ => newerFirst_trans⟩
  exact List.pairwise_insertionSort Db.newerFirst _

theorem countLinks_listing (db : Db) (userId : String) :
    db.countLinks userId = (listing db.links userId).length :=
  (listing_perm db.links userId).length_eq.symm

section Server

variable {P : Platform} {H : Host} {tid : Nat} {userId : String} {links : List LinkRow}
  {α : Type} {Post : Except Err α → World → Prop}

/-- What the others leave alone stays as it is. -/
theorem linksKept_keeps (w w' : World) (h : linksKept w w' = true) (hw : w.db.links = links) :
    w'.db.links = links := (of_decide_eq_true h).trans hw

theorem dateNow_among {k : Nat → Api α}
    (h : ∀ t w, w.db.links = links → (k t).wp (Prog.among (exec P tid) linksKept) Post w)
    (w : World) (hw : w.db.links = links) :
    (Prog.await .dateNow k : Api α).wp (Prog.among (exec P tid) linksKept) Post w := by
  refine Prog.wp_await_among linksKept_keeps hw (fun ch v t v' hv hx => ?_)
  simp only [exec, Option.some.injEq, Prod.mk.injEq] at hx
  rw [← hx.2]
  exact h t v hv

/-- A statement whose answer the links table determines. -/
theorem query_among {s : Stmt} {rows : s.Rows} {f : s.Rows → Api α}
    (hs : ∀ ch w, w.db.links = links → exec P tid (.db s) ch w = some (.ok rows, w))
    (hf : ∀ w, w.db.links = links → (f rows).wp (Prog.among (exec P tid) linksKept) Post w)
    (w : World) (hw : w.db.links = links) :
    ((query s).bind f).wp (Prog.among (exec P tid) linksKept) Post w := by
  refine Prog.wp_await_among linksKept_keeps hw (fun ch v r v' hv hx => ?_)
  rw [hs ch v hv, Option.some.injEq, Prod.mk.injEq] at hx
  rw [← hx.1, ← hx.2]
  exact hf v hv

theorem countLinks_exec (ch : Choice) (w : World) (hw : w.db.links = links) :
    exec P tid (.db (.countLinks userId)) ch w = some (.ok (listing links userId).length, w) := by
  rw [← hw, ← countLinks_listing]
  rfl

/-- The slice the statement answers with, for a limit and an offset in range. -/
theorem listLinks_exec {options : ListLinksOptions} (hlimit : rowCountOk options.limit = true)
    (hoffset : rowCountOk options.offset = true) (ch : Choice) (w : World)
    (hw : w.db.links = links) :
    exec P tid (.db (.listLinks userId options.limit options.offset)) ch w
      = some (.ok (((listing links userId).drop options.offset.toNat).take
          options.limit.toNat), w) := by
  rw [rowCountOk, Bool.and_eq_true, decide_eq_true_eq] at hlimit hoffset
  have hlist : w.db.listLinks userId options.limit options.offset
      = .ok (((listing links userId).drop options.offset.toNat).take options.limit.toNat) := by
    unfold Db.listLinks
    rw [hlimit.1, hoffset.1, if_neg Bool.noConfusion, if_neg Bool.noConfusion,
      if_neg (by omega), ← hw]
    rfl
  simp only [exec, Db.exec, hlist]

/-- Both orders of the two queries come to the same result. -/
theorem listLinks_among {countFirst : Bool} {options : ListLinksOptions}
    (hlimit : rowCountOk options.limit = true) (hoffset : rowCountOk options.offset = true)
    {Post : Except Err ListLinksResult → World → Prop}
    (hpost : ∀ w, w.db.links = links → Post (.ok
      { links := (((listing links userId).drop options.offset.toNat).take
          options.limit.toNat).map toLink,
        total := (listing links userId).length }) w)
    (w : World) (hw : w.db.links = links) :
    (listLinks countFirst userId options).wp (Prog.among (exec P tid) linksKept) Post w := by
  cases countFirst with
  | true =>
      refine query_among countLinks_exec (fun w' hw' => ?_) w hw
      exact query_among (listLinks_exec hlimit hoffset) hpost w' hw'
  | false =>
      refine query_among (listLinks_exec hlimit hoffset) (fun w' hw' => ?_) w hw
      exact query_among countLinks_exec hpost w' hw'

/-- An offset beyond the `bigint` range is refused by the server. -/
theorem listLinks_refused {countFirst : Bool} {options : ListLinksOptions}
    (hlimit : rowCountOk options.limit = true) (hoffset : int8Ok options.offset = false)
    {Post : Except Err ListLinksResult → World → Prop}
    (hpost : ∀ w, Post (.error (.db (rangeError options.offset))) w)
    (w : World) (hw : w.db.links = links) :
    (listLinks countFirst userId options).wp (Prog.among (exec P tid) linksKept) Post w := by
  rw [rowCountOk, Bool.and_eq_true] at hlimit
  have hrefused : ∀ ch (v : World),
      exec P tid (.db (.listLinks userId options.limit options.offset)) ch v
        = some (.error (rangeError options.offset), v) := by
    intro ch v
    have hlist : v.db.listLinks userId options.limit options.offset
        = .error (rangeError options.offset) := by
      unfold Db.listLinks
      rw [hlimit.1, hoffset, if_neg Bool.noConfusion, if_pos rfl]
    simp only [exec, Db.exec, hlist]
  -- The statement ends the request, whichever of the two goes first.
  have hthrows : ∀ {α : Type} (f : List LinkRow → Api α) {Post : Except Err α → World → Prop},
      (∀ v, Post (.error (.db (rangeError options.offset))) v) → ∀ v,
      ((query (.listLinks userId options.limit options.offset)).bind f).wp
        (Prog.among (exec P tid) linksKept) Post v := by
    intro α f Post hp v x r v' hx
    have hstep := (Prog.among_inv hx).2
    rw [hrefused, Option.some.injEq, Prod.mk.injEq] at hstep
    rw [← hstep.1]
    exact hp v'
  cases countFirst with
  | true => exact query_among countLinks_exec (fun w' _ => hthrows _ hpost w') w hw
  | false => exact hthrows _ hpost w

/-- Validation of an input that is accepted at any time. -/
theorem makeValidator_among {schema : Schema} {target : ValidationTarget} {raw y : JsValue}
    (hy : ∀ t, Accepts schema t raw y) {Post : Except Err JsValue → World → Prop}
    (hpost : ∀ w, w.db.links = links → Post (.ok y) w) (w : World) (hw : w.db.links = links) :
    (makeValidator schema target raw).wp (Prog.among (exec P tid) linksKept) Post w := by
  refine dateNow_among (fun t w' hw' => ?_) w hw
  simp only [Prog.ret_bind, validated_ok.mpr (hy t)]
  exact hpost w' hw'

theorem parse_among {schema : Schema} {data y : JsValue} (hy : ∀ t, Accepts schema t data y)
    {Post : Except Err JsValue → World → Prop}
    (hpost : ∀ w, w.db.links = links → Post (.ok y) w) (w : World) (hw : w.db.links = links) :
    (parse schema data).wp (Prog.among (exec P tid) linksKept) Post w := by
  refine dateNow_among (fun t w' hw' => ?_) w hw
  simp only [Prog.ret_bind, parsed_ok.mpr (hy t)]
  exact hpost w' hw'

/-- What the schema makes of a query that asks for a page. -/
def pageQuery (limit offset : Int) : JsValue :=
  .object [("limit", .number (.finite limit)), ("offset", .number (.finite offset))]

/-- A parameter of the query is accepted as the number it comes to. -/
theorem accepts_queryNumber {fields : List (String × JsValue)} {key : String} {d n : Int}
    {checks : List (Check JsNumber)} (h : queryNumber H fields key d = some (.finite n))
    (hchecks : runChecks checks (.finite n) = []) (t : Nat) :
    Accepts (Zod.default (Zod.coerceNumber H checks) (.number (.finite d))) t (get fields key)
      (.number (.finite n)) := by
  unfold queryNumber at h
  by_cases hmissing : get fields key = .undefined
  · rw [hmissing, JsValue.isUndefined, if_pos rfl] at h
    refine accepts_default.mpr (Or.inl ⟨hmissing, accepts_coerceNumber.mpr ?_⟩)
    exact ⟨.finite n, h, rfl, by simp, hchecks⟩
  · have hdefined : ¬ (get fields key).isUndefined = true := by
      intro hundefined
      cases hv : get fields key <;> rw [hv] at hundefined hmissing
      · exact hmissing rfl
      all_goals cases hundefined
    rw [if_neg hdefined] at h
    refine accepts_default.mpr (Or.inr ⟨hmissing, accepts_coerceNumber.mpr ?_⟩)
    exact ⟨.finite n, h, rfl, by simp, hchecks⟩

theorem asks_accepted {rawQuery : JsValue} {limit offset : Int} (h : Asks H rawQuery limit offset)
    (hlimit : 1 ≤ limit) (hoffset : 0 ≤ offset) (t : Nat) :
    Accepts (listLinksQuerySchema H) t rawQuery (pageQuery limit offset) := by
  rcases h with ⟨fields, rfl, hl, ho⟩
  have hint : ∀ n : Int, Zod.int.holds (.finite n) = true := fun n => by
    simp only [Zod.int, JsNumber.toInt?, Rat.den_intCast, if_true, Option.isSome_some]
  -- The numbers asked for pass the checks of their fields.
  have hpositive : runChecks [Zod.int, Zod.positive "limit must be a positive integer"]
      (.finite limit) = [] := by
    refine runChecks_nil.mpr (fun c hc => ?_)
    simp only [List.mem_cons, List.not_mem_nil, or_false] at hc
    rcases hc with rfl | rfl
    · exact hint limit
    · exact decide_eq_true (Int.cast_pos.mpr (by omega))
  have hnonneg : runChecks [Zod.int, Zod.nonnegative "offset must be 0 or greater"]
      (.finite offset) = [] := by
    refine runChecks_nil.mpr (fun c hc => ?_)
    simp only [List.mem_cons, List.not_mem_nil, or_false] at hc
    rcases hc with rfl | rfl
    · exact hint offset
    · exact decide_eq_true (Int.cast_nonneg hoffset)
  refine accepts_object.mpr ⟨_, _, rfl, rfl, ?_, rfl⟩
  have hoffset' : Accepts (Zod.default (Zod.coerceNumber H
      [Zod.int, Zod.nonnegative "offset must be 0 or greater"]) (.number (.finite 0))) t
      (get fields "offset") (.number (.finite offset)) := accepts_queryNumber ho hnonneg t
  exact parseShape_cons.mpr ⟨_, _, accepts_queryNumber hl hpositive t,
    parseShape_cons.mpr ⟨_, _, hoffset', rfl, rfl⟩, rfl⟩

theorem listOptions_pageQuery (limit offset : Int) :
    listOptions (pageQuery limit offset)
      = { limit := Min.min limit MAX_PAGE_SIZE, offset := offset } := by
  have hlimit : intOf (fieldOf (pageQuery limit offset) "limit") = some limit := by
    change JsNumber.toInt? (.finite limit) = some limit
    simp only [JsNumber.toInt?, Rat.den_intCast, if_true, Rat.num_intCast]
  have hoffset : intOf (fieldOf (pageQuery limit offset) "offset") = some offset := by
    change JsNumber.toInt? (.finite offset) = some offset
    simp only [JsNumber.toInt?, Rat.den_intCast, if_true, Rat.num_intCast]
  simp only [listOptions, hlimit, hoffset, Option.getD_some]

/-- The options a query comes to, once it is validated and parsed. -/
theorem getLinks_among {rawQuery : JsValue} {limit offset : Int} {countFirst : Bool}
    (h : Asks H rawQuery limit offset) (hlimit : 1 ≤ limit) (hoffset : 0 ≤ offset)
    {Post : Except Err LinkReply → World → Prop}
    (hlist : ∀ w, w.db.links = links → (listLinks countFirst userId
      { limit := Min.min limit MAX_PAGE_SIZE, offset := offset }).wp
        (Prog.among (exec P tid) linksKept) (fun r w' => Post (r.map (fun result =>
          { status := 200, body := .page (linkPage
            { limit := Min.min limit MAX_PAGE_SIZE, offset := offset } result) })) w') w)
    (w : World) (hw : w.db.links = links) :
    (getLinks H countFirst userId rawQuery).wp (Prog.among (exec P tid) linksKept) Post w := by
  have haccepted := asks_accepted h hlimit hoffset
  have hagain : ∀ t, Accepts (listLinksQuerySchema H) t (pageQuery limit offset)
      (pageQuery limit offset) :=
    fun t => idempotent_schema H .listLinksQuery rfl 0 t _ _ (haccepted 0)
  refine Prog.wp_bind _ w (makeValidator_among haccepted (fun w₁ hw₁ => ?_) w hw)
  refine Prog.wp_bind _ w₁ (parse_among hagain (fun w₂ hw₂ => ?_) w₁ hw₁)
  rw [Prog.thenWp_ok, listOptions_pageQuery]
  exact Prog.wp_map (hlist w₂ hw₂)

theorem pageSize_ok {limit : Int} (hlimit : 1 ≤ limit) :
    rowCountOk (Min.min limit MAX_PAGE_SIZE) = true := by
  simp only [rowCountOk, int8Ok, Bool.and_eq_true, decide_eq_true_eq]
  unfold MAX_PAGE_SIZE INT8_MIN INT8_MAX
  omega

/-- A request for a page ends with that page, whatever else goes on, as long
    as its offset is a `bigint`. -/
theorem getLinks_page {rawQuery : JsValue} {limit offset : Int} {countFirst : Bool}
    (h : Asks H rawQuery limit offset) (hlimit : 1 ≤ limit) (hoffset : 0 ≤ offset)
    (hint : offset ≤ INT8_MAX) (w : World) (hw : w.db.links = links) :
    (getLinks H countFirst userId rawQuery).wp (Prog.among (exec P tid) linksKept)
      (fun r _ => r = .ok { status := 200, body := .page (pageAt (listing links userId)
        { limit := Min.min limit MAX_PAGE_SIZE, offset := offset }) }) w := by
  have hok : rowCountOk offset = true := by
    simp only [rowCountOk, int8Ok, Bool.and_eq_true, decide_eq_true_eq]
    unfold INT8_MIN
    omega
  refine getLinks_among h hlimit hoffset (fun w' hw' => ?_) w hw
  exact listLinks_among (pageSize_ok hlimit) hok (fun _ _ => rfl) w' hw'

/-- And with an error, if it is none. -/
theorem getLinks_refused {rawQuery : JsValue} {limit offset : Int} {countFirst : Bool}
    (h : Asks H rawQuery limit offset) (hlimit : 1 ≤ limit) (hoffset : 0 ≤ offset)
    (hint : ¬ offset ≤ INT8_MAX) (w : World) (hw : w.db.links = links) :
    (getLinks H countFirst userId rawQuery).wp (Prog.among (exec P tid) linksKept)
      (fun r _ => r = .error (.db (rangeError offset))) w := by
  have hbad : int8Ok offset = false := by
    rw [int8Ok, decide_eq_false hint, Bool.and_false]
  refine getLinks_among h hlimit hoffset (fun w' hw' => ?_) w hw
  exact listLinks_refused (pageSize_ok hlimit) hbad (fun _ => rfl) w' hw'

/-- The handler's operations on a listing never have to wait. -/
theorem getLinks_runs (tid : Nat) (countFirst : Bool) (rawQuery : JsValue) (w : World) :
    ∃ chs r w', (getLinks H countFirst userId rawQuery).seqRun (exec P tid) chs w = some (r, w')
      := by
  -- What the handler sends: the clock, and the two queries.
  let sends : Op → Prop := fun op => op = .dateNow ∨ (∃ u, op = .db (.countLinks u)) ∨
    ∃ u l o, op = .db (.listLinks u l o)
  refine Prog.exists_seqRun (p := sends) ?_ _ ?_ w
  · rintro op v (rfl | ⟨u, rfl⟩ | ⟨u, l, o, rfl⟩)
    · exact ⟨{}, _, _, rfl⟩
    · exact ⟨{}, _, _, rfl⟩
    · exact ⟨{}, _, _, rfl⟩
  · refine Prog.only_bind (fun validQuery => ?_) _ (makeValidator_only (Or.inl rfl) _)
    refine Prog.only_bind (fun parsedQuery => ?_) _ (parse_only (Or.inl rfl) _)
    refine Prog.only_bind (fun result => by trivial) _ ?_
    have hcount := query_only sends (.countLinks userId) (Or.inr (Or.inl ⟨_, rfl⟩))
    have hrows := query_only sends (.listLinks userId (listOptions parsedQuery).limit
      (listOptions parsedQuery).offset) (Or.inr (Or.inr ⟨_, _, _, rfl⟩))
    cases countFirst with
    | true => exact Prog.only_bind (fun _ => Prog.only_map _ hrows) _ hcount
    | false => exact Prog.only_bind (fun _ => Prog.only_map _ hcount) _ hrows

/-- What a query is answered with: its page, if its offset is a `bigint`. -/
theorem answers_iff {rawQuery : JsValue} {limit offset : Int} {page : LinkPage}
    (h : Asks H rawQuery limit offset) (hlimit : 1 ≤ limit) (hoffset : 0 ≤ offset) :
    Answers P H userId links rawQuery page ↔ offset ≤ INT8_MAX ∧
      page = pageAt (listing links userId)
        { limit := Min.min limit MAX_PAGE_SIZE, offset := offset } := by
  constructor
  · rintro ⟨tid, countFirst, w, xs, w', hw, hrun⟩
    by_cases hint : offset ≤ INT8_MAX
    · have hpage := (Prog.wp_iff _ _).mp
        (getLinks_page h hlimit hoffset hint w hw) xs _ w' hrun
      simp only [Except.ok.injEq, LinkReply.mk.injEq, LinkBody.page.injEq, true_and] at hpage
      exact ⟨hint, hpage⟩
    · -- An offset beyond the type of the database has no page.
      have herror := (Prog.wp_iff _ _).mp
        (getLinks_refused h hlimit hoffset hint w hw) xs _ w' hrun
      cases herror
  · rintro ⟨hint, rfl⟩
    -- A world with these links gives the page itself.
    let w : World := { emptyWorld with db := { emptyWorld.db with links := links } }
    rcases @getLinks_runs P H userId 0 true rawQuery w with
      ⟨chs, r, w', hrun⟩
    rcases Prog.seqRun_among linksKept_refl _ _ _ _ hrun with ⟨xs, hamong⟩
    have hr := (Prog.wp_iff _ _).mp (getLinks_page h hlimit hoffset hint w rfl) xs r w'
      hamong
    rw [hr] at hamong
    exact ⟨0, true, w, xs, w', rfl, hamong⟩

end Server

section Client

variable {rows : List LinkRow} {size : Nat} {answer : Int → LinkPage → Prop}

/-- What lies before a page, the page, and what lies after it. -/
theorem pageAt_slice (rows : List LinkRow) (size k : Nat) :
    rows.map toLink = (rows.take k).map toLink
      ++ (pageAt rows { limit := size, offset := k }).links
      ++ (rows.drop (k + size)).map toLink := by
  have hrows : rows = rows.take k ++ (rows.drop k).take size ++ rows.drop (k + size) := by
    rw [List.append_assoc, ← List.drop_drop, List.take_append_drop, List.take_append_drop]
  calc rows.map toLink
      = (rows.take k ++ (rows.drop k).take size ++ rows.drop (k + size)).map toLink := by
        rw [← hrows]
    _ = _ := by
        rw [List.map_append, List.map_append]
        rfl

/-- A page says that there is more exactly if there is. -/
theorem pageAt_hasMore (rows : List LinkRow) (size k : Nat) :
    (pageAt rows { limit := size, offset := k }).hasMore = true ↔ k + size < rows.length := by
  have hlen : (pageAt rows { limit := size, offset := k }).hasMore = true ↔
      (k : Int) + (((rows.drop k).take size).map toLink).length < (rows.length : Int) :=
    decide_eq_true_iff
  rw [hlen, List.length_map, List.length_take, List.length_drop]
  omega

/-- An offset a client goes on from is no larger than the number of rows. -/
theorem received_le {pages : List LinkPage}
    (h : pages ≠ [] → pages.length * size < rows.length) :
    pages.length * size ≤ rows.length := by
  by_cases hne : pages = []
  · rw [hne, List.length_nil, Nat.zero_mul]
    exact Nat.zero_le _
  · exact (h hne).le

/-- What a client has received, where the answers are pages of one list. It
    goes on only from an offset that is the number of rows it has received, and
    stops only when it has them all. -/
theorem paging_received
    (hanswer : ∀ k : Nat, k ≤ rows.length → ∀ page, answer k page →
      page = pageAt rows { limit := size, offset := k })
    {pages : List LinkPage} {next : Option Int} (h : Paging answer pages next) :
    (∀ offset, next = some offset → offset = (pages.length * size : Nat) ∧
      (pages ≠ [] → pages.length * size < rows.length) ∧
      pages.flatMap (·.links) = (rows.take (pages.length * size)).map toLink) ∧
    (next = none → (pages.length - 1) * size ≤ rows.length ∧
      pages.flatMap (·.links) = rows.map toLink) := by
  induction h with
  | start =>
      refine ⟨fun offset hnext => ?_, fun hnext => by cases hnext⟩
      cases hnext
      refine ⟨?_, fun hne => absurd rfl hne, ?_⟩
      · simp only [List.length_nil, Nat.zero_mul, Nat.cast_zero]
      · simp only [List.flatMap_nil, List.length_nil, Nat.zero_mul, List.take_zero, List.map_nil]
  | @page pages offset page _ hpage ih =>
      rcases ih.1 offset rfl with ⟨rfl, hlt, hreceived⟩
      have hle := received_le hlt
      have heq := hanswer _ hle page hpage
      have hmore := pageAt_hasMore rows size (pages.length * size)
      have hslice := pageAt_slice rows size (pages.length * size)
      rw [← heq] at hmore hslice
      have hlimit : page.limit = size := by rw [heq]; rfl
      -- The rows received so far, and the ones on this page.
      have hall : (pages ++ [page]).flatMap (·.links)
          = (rows.take (pages.length * size)).map toLink ++ page.links := by
        rw [List.flatMap_append, hreceived, List.flatMap_singleton]
      have hcount : (pages ++ [page]).length * size = pages.length * size + size := by
        rw [List.length_append, List.length_singleton, Nat.add_mul, Nat.one_mul]
      by_cases hhas : page.hasMore = true
      · rw [if_pos hhas]
        refine ⟨fun offset' hnext => ?_, fun hnext => by cases hnext⟩
        rw [Option.some.injEq] at hnext
        refine ⟨?_, fun _ => ?_, ?_⟩
        · rw [← hnext, hcount, hlimit]
          push_cast
          rfl
        · rw [hcount]
          exact hmore.mp hhas
        · rw [hall, hcount, heq]
          rw [List.take_add, List.map_append]
          rfl
      · rw [if_neg hhas]
        refine ⟨fun offset' hnext => (by cases hnext), fun _ => ⟨?_, ?_⟩⟩
        · rw [List.length_append, List.length_singleton, Nat.add_sub_cancel]
          exact hle
        · -- Nothing is left behind the last page.
          have hrest : rows.drop (pages.length * size + size) = [] := by
            rw [List.drop_eq_nil_iff]
            have hnot := mt hmore.mpr hhas
            omega
          rw [hall, hslice, hrest, List.map_nil, List.append_nil]

/-- The number of pages is bounded by the number of rows. -/
theorem paging_length (hsize : 0 < size)
    (hanswer : ∀ k : Nat, k ≤ rows.length → ∀ page, answer k page →
      page = pageAt rows { limit := size, offset := k })
    {pages : List LinkPage} {next : Option Int} (h : Paging answer pages next) :
    pages.length ≤ rows.length / size + 1 := by
  have hreceived := paging_received hanswer h
  cases next with
  | none =>
      have hle := (Nat.le_div_iff_mul_le hsize).mpr (hreceived.2 rfl).1
      omega
  | some offset =>
      rcases hreceived.1 offset rfl with ⟨_, hlt, _⟩
      have hle := (Nat.le_div_iff_mul_le hsize).mpr (received_le hlt)
      omega

end Client

/-- How many links a page shows, for a requested limit. -/
def pageSize (limit : Int) : Nat := (Min.min limit MAX_PAGE_SIZE).toNat

/-- What the pages of one owner's links amount to, for a client that sends
    `query offset` for an offset. -/
structure PagesPartition (P : Platform) (H : Host) (userId : String) (links : List LinkRow)
    (limit : Int) (query : Int → JsValue) : Prop where
  /-- The listing is made of the owner's links. -/
  perm : (listing links userId).Perm (links.filter (fun r => r.userId == userId))
  sorted : (listing links userId).Pairwise Db.newerFirst
  /-- While a count and an offset are in range, the client is answered. -/
  answered : ∀ pages offset,
    Paging (fun offset => Answers P H userId links (query offset)) pages (some offset) →
    ((listing links userId).length : Int) ≤ INT4_MAX →
    ∃ page, Answers P H userId links (query offset) page ∧
      ∀ tid countFirst w, w.db.links = links →
        (getLinks H countFirst userId (query offset)).wp (Prog.among (exec P tid) linksKept)
          (fun r _ => r = .ok { status := 200, body := .page page }) w
  /-- The client stops. -/
  stops : ∀ pages next,
    Paging (fun offset => Answers P H userId links (query offset)) pages next →
    pages.length ≤ (listing links userId).length / pageSize limit + 1
  /-- Once it has, it has received the listing. -/
  complete : ∀ pages,
    Paging (fun offset => Answers P H userId links (query offset)) pages none →
    pages.flatMap (·.links) = (listing links userId).map toLink
  /-- Any page is a slice of the listing, and says whether more comes after. -/
  slice : ∀ offset page, 0 ≤ offset → Asks H (query offset) limit offset →
    Answers P H userId links (query offset) page →
    page.limit = pageSize limit ∧ page.offset = offset ∧
    page.total = (listing links userId).length ∧
    ∃ before after, (listing links userId).map toLink = before ++ page.links ++ after ∧
      before.length = Min.min offset.toNat (listing links userId).length ∧
      (page.hasMore = true ↔ after ≠ [])

/-- The pages partition the listing, for every table, owner and limit. The client
    has to be able to write down the offsets it asks for. -/
theorem pages_partition (P : Platform) (H : Host) (userId : String) (links : List LinkRow)
    (limit : Int) (query : Int → JsValue) (hlimit : 1 ≤ limit)
    (hquery : ∀ offset : Int, 0 ≤ offset → offset ≤ (listing links userId).length →
      Asks H (query offset) limit offset) :
    PagesPartition P H userId links limit query := by
  have hsize : ((pageSize limit : Nat) : Int) = Min.min limit MAX_PAGE_SIZE := by
    unfold pageSize MAX_PAGE_SIZE
    omega
  have hpos : 0 < pageSize limit := by
    unfold pageSize MAX_PAGE_SIZE
    omega
  have hpage : ∀ (k : Nat), Asks H (query k) limit k → ∀ page,
      Answers P H userId links (query k) page →
        page = pageAt (listing links userId) { limit := pageSize limit, offset := k } := by
    intro k hasks page h
    rw [hsize]
    exact ((answers_iff hasks hlimit (Int.natCast_nonneg k)).mp h).2
  have hanswer : ∀ (k : Nat), k ≤ (listing links userId).length → ∀ page,
      Answers P H userId links (query k) page →
        page = pageAt (listing links userId) { limit := pageSize limit, offset := k } :=
    fun k hle => hpage k (hquery k (Int.natCast_nonneg k) (Int.ofNat_le.mpr hle))
  refine
    { perm := listing_perm links userId
      sorted := listing_sorted links userId
      answered := ?_
      stops := fun pages next h => paging_length hpos hanswer h
      complete := fun pages h => ((paging_received hanswer h).2 rfl).2
      slice := ?_ }
  · intro pages offset h hcount
    rcases (paging_received hanswer h).1 offset rfl with ⟨hoffset, hlt, _⟩
    -- The client only asks for offsets below the number of rows.
    have hle : offset ≤ (listing links userId).length := by
      rw [hoffset]
      exact Int.ofNat_le.mpr (received_le hlt)
    have hint : offset ≤ INT8_MAX := by
      unfold INT4_MAX at hcount
      unfold INT8_MAX
      omega
    have hzero : 0 ≤ offset := by omega
    have hasks := hquery offset hzero hle
    refine ⟨_, (answers_iff hasks hlimit hzero).mpr ⟨hint, rfl⟩, ?_⟩
    intro tid countFirst w hw
    exact getLinks_page hasks hlimit hzero hint w hw
  · intro offset page hzero hasks h
    rcases Int.eq_ofNat_of_zero_le hzero with ⟨k, rfl⟩
    have heq := hpage k hasks page h
    have hmore := pageAt_hasMore (listing links userId) (pageSize limit) k
    rw [heq]
    refine ⟨rfl, rfl, rfl, _, _, pageAt_slice _ _ k, ?_, ?_⟩
    · rw [List.length_map, List.length_take, Int.toNat_natCast]
    · rw [hmore, ne_eq, List.map_eq_nil_iff, List.drop_eq_nil_iff, Nat.not_le]

/-- A host that reads decimal texts. -/
def decimalHost : Host :=
  { sampleHost with textNumber := fun s =>
      if s.toList.all Char.isDigit then .finite (Nat.ofDigitChars 10 s.toList 0) else .nan }

/-- `?limit=2&offset=...` -/
def pairPages (offset : Int) : JsValue :=
  .object [("limit", .string "2"), ("offset", .string (Nat.repr offset.toNat))]

/-- Five links of the account `u`, two of them created together, and one of another. -/
def severalLinks : List LinkRow :=
  [protectedLink,
    { protectedLink with id := "m", shortCode := "d", createdAt := 3 },
    { protectedLink with id := "n", shortCode := "e", createdAt := 3 },
    { protectedLink with id := "o", shortCode := "f", createdAt := 1, userId := "v" },
    { protectedLink with id := "p", shortCode := "g", createdAt := 2 },
    { protectedLink with id := "q", shortCode := "h", createdAt := 4 }]

theorem decimalHost_repr (n : Nat) : decimalHost.textNumber (Nat.repr n) = .finite n := by
  have hall : (Nat.repr n).toList.all Char.isDigit = true := by
    rw [Nat.toList_repr, List.all_eq_true]
    exact fun c hc => Nat.isDigit_of_mem_toDigits (by decide) (by decide) hc
  change (if (Nat.repr n).toList.all Char.isDigit then
    JsNumber.finite (Nat.ofDigitChars 10 (Nat.repr n).toList 0) else .nan) = _
  rw [if_pos hall, Nat.toList_repr, Nat.ofDigitChars_ten_toDigits]

/-- Two links a page, of five. -/
theorem pages_partition_pairs :
    (listing severalLinks "u").length = 5 ∧
    PagesPartition samplePlatform decimalHost "u" severalLinks 2 pairPages := by
  refine ⟨by decide, pages_partition samplePlatform decimalHost "u" severalLinks 2 pairPages
    (by decide) (fun offset hoffset _ => ?_)⟩
  rcases Int.eq_ofNat_of_zero_le hoffset with ⟨n, rfl⟩
  refine ⟨_, rfl, ?_, ?_⟩
  · exact congrArg some (decimalHost_repr 2)
  · exact congrArg some (decimalHost_repr n)

end ClickScope
