import ClickScope.Core.LinkRoutes
import ClickScope.Theory.BoundValues
import ClickScope.Theory.SecondParse
import ClickScope.Theory.Validation

/-!
# Validated Requests

What the schemas of the link routes accept, against what the database takes.

Three limits of the database are in no schema: the caps of links are 32-bit
integers, an offset is a 64-bit one, and a text has no NUL, which a URL may
have. A request within these limits is taken, whatever runs beside it: each
statement of its handler binds values of their types, and none fails for one. A
request that is validated and beyond one of them fails with the database's
error. Everything else is in the schemas: dates end with the year 275760, long
before the timestamps of the database do, the limit is clamped, and an alias or
a generated code has only letters, digits, `_` and `-`.

## Main definitions

* `LinkRequest.Validated`: The middleware accepts the request.
* `LinkRequest.fits`: The request is within the three limits.
* `LinkRequest.Taken`: The database takes whatever its handler sends.

## Theorems

* `createInput_accepted`, `updateInput_accepted`, `listOptions_accepted`: The
  inputs of accepted requests.
* `handler_fitting`: A request within the limits.
* `handler_fails`: A request beyond them.
* `validated_taken_iff`: The two together.
* `cap_not_taken`: A cap one beyond the largest.
-/

namespace ClickScope

open Async Zod

/-- The cap a body asks for is a 32-bit integer. -/
def clicksFit (body : JsValue) : Bool :=
  (intOf (fieldOf body "maxClicks")).all (fun n => decide (n ≤ INT4_MAX))

/-- The destination a body asks for has no NUL. -/
def urlFits (body : JsValue) : Bool :=
  (textOf (fieldOf body "destinationUrl")).all textOk

/-- The offset a query asks for is a 64-bit integer. -/
def offsetFits (H : Host) (rawQuery : JsValue) : Bool :=
  ((toNumber H (fieldOf rawQuery "offset")).bind JsNumber.toInt?).all
    (fun n => decide (n ≤ INT8_MAX))

section Fields

variable {H : Host} {t : Nat} {v a : JsValue}

theorem positive_toInt {n : JsNumber} {k : Int} (hpos : n.positive = true)
    (hint : n.toInt? = some k) : 0 < k := by
  cases n with
  | nan => cases hint
  | infinite negative => cases hint
  | finite q =>
      simp only [JsNumber.positive, decide_eq_true_eq] at hpos
      simp only [JsNumber.toInt?] at hint
      split_ifs at hint
      rw [← Option.some.inj hint]
      exact Rat.num_pos.mpr hpos

theorem nonnegative_toInt {n : JsNumber} {k : Int} (hnonneg : n.nonnegative = true)
    (hint : n.toInt? = some k) : 0 ≤ k := by
  cases n with
  | nan => cases hint
  | infinite negative => cases hint
  | finite q =>
      simp only [JsNumber.nonnegative, decide_eq_true_eq] at hnonneg
      simp only [JsNumber.toInt?] at hint
      split_ifs at hint
      rw [← Option.some.inj hint]
      exact Rat.num_nonneg.mpr hnonneg

/-- A cap comes back as it is, and is positive. -/
theorem accepts_maxClicks (h : Accepts maxClicksSchema t v a) :
    a = v ∧ ∀ k, intOf v = some k → 0 < k := by
  rcases accepts_number.mp h with ⟨n, rfl, rfl, _, hchecks⟩
  rw [runChecks_nil] at hchecks
  have hpos : n.positive = true :=
    hchecks _ (List.mem_cons_of_mem _ List.mem_cons_self)
  exact ⟨rfl, fun k hk => positive_toInt hpos hk⟩

theorem accepts_nullableClicks (h : Accepts (Zod.optional (Zod.nullable maxClicksSchema)) t v a) :
    a = v ∧ ∀ k, intOf v = some k → 0 < k := by
  rcases accepts_optional.mp h with ⟨rfl, rfl⟩ | ⟨_, hacc⟩
  · exact ⟨rfl, fun k hk => by cases hk⟩
  · rcases accepts_nullable.mp hacc with ⟨rfl, rfl⟩ | ⟨_, hnumber⟩
    · exact ⟨rfl, fun k hk => by cases hk⟩
    · exact accepts_maxClicks hnumber

/-- A positive cap is in its domain exactly if it is not too large. -/
theorem clicks_domain {n : Option Int} (h : ∀ k, n = some k → 0 < k) :
    (int4Ok? n && maxClicksCheck n) = n.all (fun k => decide (k ≤ INT4_MAX)) := by
  cases n with
  | none => rfl
  | some k =>
      have hk : 0 < k := h k rfl
      have hmin : INT4_MIN ≤ k := by
        unfold INT4_MIN
        omega
      simp only [int4Ok?, maxClicksCheck, Option.all_some, hk, hmin, decide_true, Bool.true_and,
        Bool.and_true]

theorem accepts_url (h : Accepts (destinationUrlSchema H) t v a) :
    ∃ s, v = .string s ∧ a = .string s := by
  rcases accepts_string.mp (accepts_refine.mp h).1 with ⟨s, hv, ha, _⟩
  exact ⟨s, hv, ha⟩

/-- The date of a field that JSON can say is a timestamp of the database. -/
theorem accepts_date (hjson : v = .undefined ∨ v.isJson = true)
    (h : Accepts (futureDateSchema H) t v a) : timestampOk? (timeOf a) = true := by
  rcases accepts_futureDate.mp h with ⟨d, hd, hlt, rfl⟩
  -- JSON has no dates, so the value was a text or a number.
  have hraw : ∀ time, v ≠ .date time := by
    rintro time rfl
    rcases hjson with hundef | hjson
    · cases hundef
    · cases hjson
  have hrange := toDate_range hraw hd
  unfold MAX_TIME at hrange
  have hlo : TIMESTAMP_MIN ≤ d := by
    unfold TIMESTAMP_MIN
    omega
  have hhi : d < TIMESTAMP_END := by
    unfold TIMESTAMP_END
    omega
  rw [timeOf, timestampOk?, decide_eq_true hlo, decide_eq_true hhi]
  rfl

/-- A field that may be null has the domains of the field that may not. -/
theorem accepts_nullableDate (hjson : v = .undefined ∨ v.isJson = true)
    (h : Accepts (Zod.optional (Zod.nullable (futureDateSchema H))) t v a) :
    timestampOk? (timeOf a) = true := by
  rcases accepts_optional.mp h with ⟨_, rfl⟩ | ⟨_, hacc⟩
  · rfl
  · rcases accepts_nullable.mp hacc with ⟨_, rfl⟩ | ⟨_, hdate⟩
    · rfl
    · exact accepts_date hjson hdate

end Fields

/-- A cap that may be left out, as the creation has it. -/
theorem accepts_optionalClicks {t : Nat} {v a : JsValue}
    (h : Accepts (Zod.optional maxClicksSchema) t v a) : a = v ∧ ∀ k, intOf v = some k → 0 < k := by
  rcases accepts_optional.mp h with ⟨rfl, rfl⟩ | ⟨_, hnumber⟩
  · exact ⟨rfl, fun k hk => by cases hk⟩
  · exact accepts_maxClicks hnumber

theorem accepts_optionalDate {H : Host} {t : Nat} {v a : JsValue}
    (hjson : v = .undefined ∨ v.isJson = true)
    (h : Accepts (Zod.optional (futureDateSchema H)) t v a) : timestampOk? (timeOf a) = true := by
  rcases accepts_optional.mp h with ⟨_, rfl⟩ | ⟨_, hdate⟩
  · rfl
  · exact accepts_date hjson hdate

/-- An alias is a text of short code characters. -/
theorem accepts_optionalAlias {t : Nat} {v a : JsValue}
    (h : Accepts (Zod.optional customAliasSchema) t v a) {s : String} (hs : textOf a = some s) :
    textOk s = true := by
  rcases accepts_optional.mp h with ⟨_, rfl⟩ | ⟨_, hacc⟩
  · cases hs
  · rcases accepts_customAlias.mp hacc with ⟨x, rfl, rfl, _⟩
    rw [← Option.some.inj hs]
    exact textOk_storable (Or.inl ⟨t, hacc⟩)

/-- A count of a query is an integer: the number the query has, or the default
    if it has none. -/
theorem accepts_count {H : Host} {checks : List (Check JsNumber)} {d : JsNumber} {t : Nat}
    {v a : JsValue} (hint : Zod.int ∈ checks)
    (h : Accepts (Zod.default (Zod.coerceNumber H checks) (.number d)) t v a) :
    ∃ n k, a = .number n ∧ n.toInt? = some k ∧ (∀ c ∈ checks, c.holds n = true) ∧
      ((v = .undefined ∧ n = d) ∨ toNumber H v = some n) := by
  have hnumber : ∃ n, a = .number n ∧ (∀ c ∈ checks, c.holds n = true) ∧
      ((v = .undefined ∧ n = d) ∨ toNumber H v = some n) := by
    rcases accepts_default.mp h with ⟨hv, hacc⟩ | ⟨_, hacc⟩
    · rcases accepts_coerceNumber.mp hacc with ⟨n, hn, ha, _, hchecks⟩
      rw [toNumber_number, Option.some.injEq] at hn
      exact ⟨n, ha, runChecks_nil.mp hchecks, Or.inl ⟨hv, hn.symm⟩⟩
    · rcases accepts_coerceNumber.mp hacc with ⟨n, hn, ha, _, hchecks⟩
      exact ⟨n, ha, runChecks_nil.mp hchecks, Or.inr hn⟩
  rcases hnumber with ⟨n, ha, hchecks, hfrom⟩
  rcases Option.isSome_iff_exists.mp (hchecks _ hint) with ⟨k, hk⟩
  exact ⟨n, k, ha, hk, hchecks, hfrom⟩

section Inputs

variable {H : Host} {t : Nat} {fields out : List (String × JsValue)}

/-- The input of a creation is in its domains exactly if the body is within the
    limits. Its alias is a text of the column in any case. -/
theorem createInput_accepted (hjson : fieldsJson fields = true)
    (h : Accepts (createLinkSchema H) t (.object fields) (.object out)) :
    (createInput (.object out)).fits
        = (urlFits (.object fields) && clicksFit (.object fields)) ∧
      ∀ a, truthy (createInput (.object out)).customAlias = some a → textOk a = true := by
  have hfield : ∀ p ∈ createLinkShape H, Accepts p.2 t (get fields p.1) (get out p.1) :=
    fun p hp => (accepts_field (createLinkShape_nodup H) h hp).1
  have hurl := hfield ("destinationUrl", destinationUrlSchema H) (by simp [createLinkShape])
  have halias := hfield ("customAlias", Zod.optional customAliasSchema) (by simp [createLinkShape])
  have hdate := hfield ("expiresAt", Zod.optional (futureDateSchema H)) (by simp [createLinkShape])
  have hclicks := hfield ("maxClicks", Zod.optional maxClicksSchema) (by simp [createLinkShape])
  refine ⟨?_, fun a ha => accepts_optionalAlias halias (truthy_some ha)⟩
  rcases accepts_url hurl with ⟨s, hraw, hs⟩
  have htime := accepts_optionalDate (get_isJson hjson _) hdate
  have hcap := accepts_optionalClicks hclicks
  simp only [createInput, CreateLinkInput.fits, urlFits, clicksFit, textField, fieldOf, hs, hraw,
    hcap.1, clicks_domain hcap.2, htime, textOf, Option.all_some, Bool.and_true]

/-- The input of an update, the same. A field that is null has no limits. -/
theorem updateInput_accepted (hjson : fieldsJson fields = true)
    (h : Accepts (updateLinkSchema H) t (.object fields) (.object out)) :
    (updateInput (.object out) (.object out)).fits
      = (urlFits (.object fields) && clicksFit (.object fields)) := by
  have hfield : ∀ p ∈ updateLinkShape H, Accepts p.2 t (get fields p.1) (get out p.1) :=
    fun p hp => (accepts_field (updateLinkShape_nodup H) h hp).1
  have hurl := hfield ("destinationUrl", Zod.optional (destinationUrlSchema H))
    (by simp [updateLinkShape])
  have hdate := hfield ("expiresAt", Zod.optional (Zod.nullable (futureDateSchema H)))
    (by simp [updateLinkShape])
  have hclicks := hfield ("maxClicks", Zod.optional (Zod.nullable maxClicksSchema))
    (by simp [updateLinkShape])
  have hsame : textOf (get out "destinationUrl") = textOf (get fields "destinationUrl") := by
    rcases accepts_optional.mp hurl with ⟨hraw, hs⟩ | ⟨_, hacc⟩
    · rw [hraw, hs]
    · rcases accepts_url hacc with ⟨s, hraw, hs⟩
      rw [hraw, hs]
  have htime := accepts_nullableDate (get_isJson hjson _) hdate
  have hcap := accepts_nullableClicks hclicks
  -- A field that is absent has no value either, so its presence does not matter.
  have hpresent : (presentIn (.object out) "expiresAt" (timeOf (get out "expiresAt"))).all
      timestampOk? = true := by
    unfold presentIn
    split_ifs
    · exact htime
    · rfl
  have hcapped : (presentIn (.object out) "maxClicks" (intOf (get out "maxClicks"))).all
      (fun n => int4Ok? n && maxClicksCheck n)
        = (intOf (get fields "maxClicks")).all (fun k => decide (k ≤ INT4_MAX)) := by
    unfold presentIn hasField
    by_cases hhas : has out "maxClicks" = true
    · rw [if_pos hhas, Option.all_some, hcap.1]
      exact clicks_domain hcap.2
    · rw [if_neg hhas, Option.all_none, ← hcap.1,
        get_of_not_has (Bool.eq_false_of_not_eq_true hhas)]
      rfl
  simp only [updateInput, UpdateLinkInput.fits, urlFits, clicksFit, fieldOf, hsame, hpresent,
    hcapped, Bool.and_true]

/-- The limit of a listing is in its domain, and its offset exactly if the
    query is within the limits. -/
theorem listOptions_accepted
    (h : Accepts (listLinksQuerySchema H) t (.object fields) (.object out)) :
    rowCountOk (listOptions (.object out)).limit = true ∧
      rowCountOk (listOptions (.object out)).offset = offsetFits H (.object fields) := by
  have hfield : ∀ p ∈ listLinksQueryShape H, Accepts p.2 t (get fields p.1) (get out p.1) :=
    fun p hp => (accepts_field (listLinksQueryShape_nodup H) h hp).1
  have hlimit := hfield ("limit", Zod.default (Zod.coerceNumber H
      [Zod.int, Zod.positive "limit must be a positive integer"])
      (.number (.finite DEFAULT_PAGE_SIZE))) (by simp [listLinksQueryShape])
  have hoffset := hfield ("offset", Zod.default (Zod.coerceNumber H
      [Zod.int, Zod.nonnegative "offset must be 0 or greater"]) (.number (.finite 0)))
      (by simp [listLinksQueryShape])
  rcases accepts_count List.mem_cons_self hlimit with ⟨n, k, hn, hk, hchecks, _⟩
  rcases accepts_count List.mem_cons_self hoffset with ⟨n', k', hn', hk', hchecks', hfrom⟩
  have hpos : 0 < k := positive_toInt (hchecks _ (List.mem_cons_of_mem _ List.mem_cons_self)) hk
  have hnonneg : 0 ≤ k' :=
    nonnegative_toInt (hchecks' _ (List.mem_cons_of_mem _ List.mem_cons_self)) hk'
  constructor
  · simp only [listOptions, fieldOf, hn, intOf, hk, Option.getD_some, rowCountOk, int8Ok,
      MAX_PAGE_SIZE, INT8_MIN, INT8_MAX, Bool.and_eq_true, decide_eq_true_eq]
    omega
  · have hmin : INT8_MIN ≤ k' := by
      unfold INT8_MIN
      omega
    simp only [listOptions, fieldOf, hn', intOf, hk', Option.getD_some, rowCountOk, int8Ok, hmin,
      hnonneg, decide_true, Bool.true_and, Bool.and_true, offsetFits]
    rcases hfrom with ⟨hraw, rfl⟩ | hraw
    · -- the default, for a query without an offset
      have hzero : k' = 0 := (Option.some.inj hk').symm
      rw [hraw, hzero]
      rfl
    · rw [hraw, Option.bind_some, hk', Option.all_some]

end Inputs

/-- The middleware of the route accepts the request, at this time. Its body is
    JSON. -/
def LinkRequest.Validated (H : Host) (now : Nat) : LinkRequest → Prop
  | .create _ body => body.isJson = true ∧ ∃ y, Accepts (createLinkSchema H) now body y
  | .list _ _ rawQuery => ∃ y, Accepts (listLinksQuerySchema H) now rawQuery y
  | .update _ id body =>
      body.isJson = true ∧ H.isUuid id = true ∧ ∃ y, Accepts (updateLinkSchema H) now body y

/-- The request is within the limits of the database. -/
def LinkRequest.fits (H : Host) : LinkRequest → Bool
  | .create _ body => urlFits body && clicksFit body
  | .list _ _ rawQuery => offsetFits H rawQuery
  | .update _ _ body => urlFits body && clicksFit body

/-- Whatever other programs do between the operations of the handler, every
    value it binds is one of its type, and it fails with no error about one. -/
def LinkRequest.Taken (P : Platform) (H : Host) (q : LinkRequest) : Prop :=
  ∀ tid w, checksOk w.db = true →
    (q.handler H).Sends (Prog.among (generating P tid) moves) (fun op => op.fits = true) w ∧
    (q.handler H).wp (Prog.among (generating P tid) moves)
      (fun r _ => ∀ e, r = .error e → e.isDataError = false) w

section Within

variable {P : Platform} {H : Host} {tid : Nat} {α : Type} {schema : Schema}

/-- The middleware goes on with an output of its schema, or fails for a reason
    of its own. -/
theorem makeValidator_fitting {target : ValidationTarget} {raw : JsValue} {f : JsValue → Api α}
    (hf : ∀ t y, Accepts schema t raw y → Fitting P tid (f y)) :
    Fitting P tid ((makeValidator schema target raw).bind f) := by
  refine fitting_await rfl (fun ch w now w' _ _ => ?_)
  rcases hv : validated schema target now raw with e | y
  · have hbenign : e.isDataError = false :=
      validated_error (·.isDataError = false) (fun _ => rfl) rfl hv
    simp only [Prog.ret_bind, hv]
    exact hbenign
  · simp only [Prog.ret_bind, hv]
    exact hf now y (validated_ok.mp hv)

theorem parse_fitting {data : JsValue} {f : JsValue → Api α}
    (hf : ∀ t y, Accepts schema t data y → Fitting P tid (f y)) :
    Fitting P tid ((parse schema data).bind f) := by
  refine fitting_await rfl (fun ch w now w' _ _ => ?_)
  rcases hp : parsed schema now data with e | y
  · have hbenign : e.isDataError = false :=
      parsed_error (·.isDataError = false) (fun _ => rfl) rfl hp
    simp only [Prog.ret_bind, hp]
    exact hbenign
  · simp only [Prog.ret_bind, hp]
    exact hf now y (parsed_ok.mp hp)

/-- Both parses at once: the handler goes on with an output of its schema. -/
theorem parses_fitting {s : RouteSchema} {target : ValidationTarget} {raw : JsValue}
    {f : JsValue → JsValue → Api α}
    (hf : ∀ t fields out, raw = .object fields →
      Accepts (s.schema H) t (.object fields) (.object out) →
      Fitting P tid (f (.object out) (.object out))) :
    Fitting P tid ((makeValidator (s.schema H) target raw).bind
      (fun valid => (parse (s.schema H) valid).bind (fun parsed => f valid parsed))) := by
  refine makeValidator_fitting (fun t y hfirst => parse_fitting (fun t' z hsecond => ?_))
  rw [second_same hfirst hsecond]
  rcases schema_object hfirst with ⟨fields, out, rfl, rfl⟩
  exact hf t fields out rfl hfirst

/-- A JSON request within the limits is handled without an error about a
    value. -/
theorem handler_fitting {q : LinkRequest} {t : Nat} (h : q.Validated H t)
    (hfits : q.fits H = true) : Fitting P tid (q.handler H) := by
  cases q with
  | create userId body =>
      rcases h with ⟨hjson, _⟩
      refine parses_fitting (fun t fields out hbody hacc => ?_) (s := .createLink)
      rw [hbody] at hjson hfits
      have hinput := createInput_accepted hjson hacc
      refine fitting_bind (createLink_fitting hinput.2 ?_) (fun link => by trivial)
      exact hinput.1.trans hfits
  | list countFirst userId rawQuery =>
      refine parses_fitting (fun t fields out hquery hacc => ?_) (s := .listLinksQuery)
      rw [hquery] at hfits
      have hoptions := listOptions_accepted hacc
      refine fitting_bind (listLinks_fitting hoptions.1 ?_) (fun result => by trivial)
      exact hoptions.2.trans hfits
  | update userId id body =>
      rcases h with ⟨hjson, _⟩
      refine makeValidator_fitting (fun t params _ => ?_)
      refine makeValidator_fitting (fun t₁ validBody hfirst => ?_)
      refine parse_fitting (fun t' parsedParams hparams => ?_)
      refine parse_fitting (fun t₂ parsedBody hsecond => ?_)
      -- The second parse of an accepted body has the same output as the first.
      rw [second_same (s := .updateLink) hfirst hsecond]
      rcases schema_object (s := .updateLink) hfirst with ⟨fields, out, rfl, rfl⟩
      refine fitting_bind (updateLink_fitting (idParam_read hparams) ?_) (fun link => ?_)
      · exact (updateInput_accepted hjson hfirst).trans hfits
      · cases link with
        | none => exact rfl
        | some link => trivial

end Within

/-- The run ends with an error about a value. -/
def FailsByValue {α : Type} (r : Except Err α) (_w : World) : Prop :=
  ∃ e, r = .error (.db e) ∧ e.isDataError = true

section Beyond

variable {P : Platform} {H : Host} {tid : Nat} {α : Type} {w : World}

theorem failsByValue_bind {β : Type} {x : Api α} {f : α → Api β}
    (h : x.may (generating P tid) FailsByValue w) :
    (x.bind f).may (generating P tid) FailsByValue w := by
  refine Prog.may_bind x w (Prog.may_mono (fun r w' hr => ?_) x w h)
  rcases hr with ⟨e, rfl, he⟩
  exact ⟨e, rfl, he⟩

theorem generating_other {op : Op} {ch : Choice} {out : op.Res × World} (hop : op ≠ .generateId)
    (h : exec P tid op ch w = some out) : generating P tid op ch w = some out := by
  unfold generating
  rw [if_pos (Or.inl hop)]
  exact h

/-- A statement that can answer with an error about a value can end the run. -/
theorem query_fails {s : Stmt} {ch : Choice} {e : DbError} {w' : World}
    (h : exec P tid (.db s) ch w = some (.error e, w')) (he : e.isDataError = true) :
    (query s).may (generating P tid) FailsByValue w :=
  ⟨ch, .error e, w', generating_other (by simp) h, e, rfl, he⟩

/-- A statement that can answer with rows, and what follows from them. -/
theorem query_may {s : Stmt} {ch : Choice} {rows : s.Rows} {w' : World} {f : s.Rows → Api α}
    {Post : Except Err α → World → Prop} (h : exec P tid (.db s) ch w = some (.ok rows, w'))
    (hf : (f rows).may (generating P tid) Post w') :
    ((query s).bind f).may (generating P tid) Post w :=
  ⟨ch, .ok rows, w', generating_other (by simp) h, hf⟩

/-- An insert whose values do not fit is refused before it looks at a row. -/
theorem insertLink_refused {l : NewLink}
    (hbad : (textOk l.destinationUrl && timestampOk? l.expiresAt &&
      (int4Ok? l.maxClicks && maxClicksCheck l.maxClicks)) = false) (now : Nat) (id : String)
    (db : Db) : ∃ e, (db.insertLink now id l).1 = .error e ∧ e.isDataError = true := by
  unfold Db.insertLink
  split_ifs with htext hint htime hcheck
  · exact ⟨_, rfl, rfl⟩
  · exact ⟨_, rfl, rangeError_data _⟩
  · exact ⟨_, rfl, rfl⟩
  · exact ⟨_, rfl, rfl⟩
  all_goals
    -- The values fit after all.
    simp only [Bool.not_eq_false, Bool.and_eq_true] at htext hint htime hcheck
    rw [htext.1.2, htime, hint, hcheck] at hbad
    exact absurd hbad (by decide)

theorem insertLink_fails {userId shortCode : String} {input : CreateLinkInput}
    {passwordHash : Option String} (hinput : input.fits = false) (w : World) :
    (insertLink userId shortCode input passwordHash).may (generating P tid) FailsByValue w := by
  -- The row that would be inserted.
  let l : NewLink :=
    { userId := userId, shortCode := shortCode, destinationUrl := input.destinationUrl,
      passwordHash := passwordHash, expiresAt := input.expiresAt, maxClicks := input.maxClicks }
  rcases exists_fresh w.db.ids with ⟨id, hid⟩
  rcases @insertLink_refused l hinput w.now id w.db with ⟨e, he, hdata⟩
  have hx : exec P tid (.db (.insertLink l)) { draw := id } w
      = some (.error e, { w with db := (w.db.insertLink w.now id l).2 }) := by
    simp only [exec, Db.exec, if_neg hid, he]
  refine Prog.may_tryCatch _ w (Prog.may_mono (fun r w' hr => ?_) _ w
    (failsByValue_bind (query_fails hx hdata)))
  rcases hr with ⟨e, rfl, he⟩
  have hnot : (Err.db e).isUniqueViolation = false := by
    cases e <;> first | rfl | cases he
  simp only [Prog.CatchMay, hnot]
  exact ⟨e, rfl, he⟩

theorem hashGiven_may {password : Option String} {f : Option String → Api α}
    {Post : Except Err α → World → Prop} (hf : ∀ h, (f h).may (generating P tid) Post w) :
    ((hashGiven password).bind f).may (generating P tid) Post w := by
  cases password with
  | none => exact hf none
  | some plain => exact ⟨{}, _, w, generating_other (by simp) rfl, hf _⟩

theorem hashField_may {password : Option (Option String)}
    {f : Option (Option String) → Api α} {Post : Except Err α → World → Prop}
    (hf : ∀ h, (f h).may (generating P tid) Post w) :
    ((hashField password).bind f).may (generating P tid) Post w := by
  rcases password with _ | _ | plain
  · exact hf none
  · exact hf (some none)
  · exact ⟨{}, _, w, generating_other (by simp) rfl, hf _⟩

/-- In an empty table no alias is taken, so the insert is reached. -/
theorem createLink_fails {userId : String} {input : CreateLinkInput} (hinput : input.fits = false)
    (hempty : w.db.links = []) :
    (createLink userId input).may (generating P tid) FailsByValue w := by
  refine hashGiven_may (fun hash => ?_)
  rcases truthy input.customAlias with _ | customAlias
  · -- No link is there, so any code may be drawn and is free.
    have hdraw : generating P tid .generateId { draw := "0000000" } w = some ("0000000", w) := by
      unfold generating
      rw [if_pos (Or.inr (by decide))]
      rfl
    refine ⟨_, _, w, hdraw, ?_⟩
    simp only [Prog.ret_bind]
    exact failsByValue_bind (insertLink_fails hinput w)
  · by_cases htext : textOk customAlias = true
    · -- An alias is looked up before anything is inserted.
      have hx : exec P tid (.db (.linkIdByCode customAlias)) {} w = some (.ok [], w) := by
        simp only [exec, Db.exec, if_pos htext, hempty, List.filter_nil, List.map_nil]
      exact query_may hx (failsByValue_bind (insertLink_fails hinput w))
    · have hx : exec P tid (.db (.linkIdByCode customAlias)) {} w
          = some (.error .invalidByteSequence, w) := by
        simp only [exec, Db.exec, if_neg htext]
      exact failsByValue_bind (query_fails hx rfl)

theorem listLinks_fails {countFirst : Bool} {userId : String} {options : ListLinksOptions}
    (hlimit : rowCountOk options.limit = true) (hoffset : rowCountOk options.offset = false) :
    (listLinks countFirst userId options).may (generating P tid) FailsByValue w := by
  -- An offset that is no row count is out of its type or negative.
  have hrefused : ∃ e, w.db.listLinks userId options.limit options.offset = .error e ∧
      e.isDataError = true := by
    rw [rowCountOk, Bool.and_eq_true, decide_eq_true_eq] at hlimit
    have hint : ¬ int8Ok options.limit = false := by
      rw [hlimit.1]
      exact Bool.noConfusion
    unfold Db.listLinks
    rw [if_neg hint]
    split_ifs with hbig hneg
    · exact ⟨_, rfl, rangeError_data _⟩
    · exact ⟨_, rfl, rfl⟩
    · have hok : rowCountOk options.offset = true := by
        rw [rowCountOk, Bool.and_eq_true, decide_eq_true_eq]
        exact ⟨Bool.eq_true_of_not_eq_false hbig, by omega⟩
      rw [hok] at hoffset
      cases hoffset
  rcases hrefused with ⟨e, he, hdata⟩
  have hrows : exec P tid (.db (.listLinks userId options.limit options.offset)) {} w
      = some (.error e, w) := by
    simp only [exec, Db.exec, he]
  cases countFirst with
  | true =>
      -- Counting the links first does not help: the other statement fails after it.
      have hcount : exec P tid (.db (.countLinks userId)) {} w
          = some (.ok (w.db.countLinks userId), w) := rfl
      exact query_may hcount (failsByValue_bind (query_fails hrows hdata))
  | false => exact failsByValue_bind (query_fails hrows hdata)

theorem bindable {c : Bool} {e : DbError} (h : (if c then none else some e).isNone = true) :
    c = true := by
  cases c with
  | true => rfl
  | false => cases h

/-- The set list of an input that does not fit has a value that cannot be
    bound. -/
theorem setListOf_bad {input : UpdateLinkInput} {passwordHash : Option (Option String)}
    (hinput : input.fits = false) (hpos : ∀ n, input.maxClicks = some n → maxClicksCheck n = true) :
    ∃ e, (setListOf input passwordHash).values.findSome? SqlValue.bindError = some e := by
  rcases hfind : (setListOf input passwordHash).values.findSome? SqlValue.bindError with _ | e
  · have hnone : (setListOf input passwordHash).values.all
        (fun v => v.bindError.isNone) = true := by
      rw [List.findSome?_eq_none_iff] at hfind
      exact List.all_eq_true.mpr (fun v hv => by rw [hfind v hv]; rfl)
    rw [setListOf_all] at hnone
    simp only [Bool.and_eq_true, Option.all_eq_true] at hnone
    -- What can be bound is in its type.
    have hurl : input.destinationUrl.all textOk = true :=
      (Option.all_eq_true _ _).mpr (fun u hu => bindable (c := textOk? (some u))
        (hnone.1.1.1.1 u hu))
    have htime : input.expiresAt.all timestampOk? = true :=
      (Option.all_eq_true _ _).mpr (fun t ht => bindable (hnone.1.1.1.2 t ht))
    have hclicks : input.maxClicks.all (fun n => int4Ok? n && maxClicksCheck n) = true := by
      refine (Option.all_eq_true _ _).mpr (fun n hn => ?_)
      rw [bindable (c := int4Ok? n) (hnone.1.1.2 n hn), hpos n hn]
      rfl
    rw [UpdateLinkInput.fits, hurl, htime, hclicks] at hinput
    cases hinput
  · exact ⟨e, rfl⟩

/-- And so it has a clause, and the statement is refused before it looks for
    the row. -/
theorem updateLink_fails {userId linkId : String} {input : UpdateLinkInput}
    (hinput : input.fits = false) (hpos : ∀ n, input.maxClicks = some n → maxClicksCheck n = true) :
    (updateLink userId linkId input).may (generating P tid) FailsByValue w := by
  refine hashField_may (fun hash => ?_)
  rcases @setListOf_bad input hash hinput hpos with ⟨e, he⟩
  rcases List.exists_of_findSome?_eq_some he with ⟨v, _, hv⟩
  -- The value that does not fit is in the set list, so the statement is sent.
  have hne : ¬ (setListOf input hash).setClauses.length = 0 := by
    intro hzero
    rw [setListOf_length, List.length_eq_zero_iff] at hzero
    rw [hzero] at he
    cases he
  have hfind : ((setListOf input hash).values ++ [SqlValue.uuid linkId, .account userId]).findSome?
      SqlValue.bindError = some e := by
    rw [List.findSome?_append, he]
    rfl
  have hx : ∀ set linkParam userParam, exec P tid (.db (.updateLink set linkParam userParam
      ((setListOf input hash).values ++ [SqlValue.uuid linkId, .account userId]))) {} w
      = some (.error e, w) := by
    intro set linkParam userParam
    simp only [exec, Db.exec, Db.updateLink, hfind]
  unfold sendUpdate
  rw [if_neg hne]
  exact failsByValue_bind (query_fails (hx _ _ _) (bindError_data hv))

theorem makeValidator_may {schema : Schema} {target : ValidationTarget} {raw y : JsValue}
    {f : JsValue → Api α} {Post : Except Err α → World → Prop}
    (h : Accepts schema w.now raw y) (hf : (f y).may (generating P tid) Post w) :
    ((makeValidator schema target raw).bind f).may (generating P tid) Post w := by
  refine ⟨{}, w.now, w, generating_other (by simp) rfl, ?_⟩
  simp only [Prog.ret_bind, validated_ok.mpr h]
  exact hf

theorem parse_may {schema : Schema} {data y : JsValue} {f : JsValue → Api α}
    {Post : Except Err α → World → Prop} (h : Accepts schema w.now data y)
    (hf : (f y).may (generating P tid) Post w) :
    ((parse schema data).bind f).may (generating P tid) Post w := by
  refine ⟨{}, w.now, w, generating_other (by simp) rfl, ?_⟩
  simp only [Prog.ret_bind, parsed_ok.mpr h]
  exact hf

/-- A validated request beyond the limits can fail: on empty tables, at the
    time of its validation. -/
theorem handler_fails {q : LinkRequest} (h : q.Validated H w.now) (hfits : q.fits H = false)
    (hempty : w.db.links = []) : (q.handler H).may (generating P tid) FailsByValue w := by
  cases q with
  | create userId body =>
      rcases h with ⟨hjson, y, hacc⟩
      rcases schema_object (s := .createLink) hacc with ⟨fields, out, rfl, rfl⟩
      refine makeValidator_may hacc (parse_may (second_now (s := .createLink) hacc) ?_)
      refine failsByValue_bind (createLink_fails ?_ hempty)
      exact (createInput_accepted hjson hacc).1.trans hfits
  | list countFirst userId rawQuery =>
      rcases h with ⟨y, hacc⟩
      rcases schema_object (s := .listLinksQuery) hacc with ⟨fields, out, rfl, rfl⟩
      refine makeValidator_may hacc (parse_may (second_now (s := .listLinksQuery) hacc) ?_)
      have hoptions := listOptions_accepted hacc
      exact failsByValue_bind (listLinks_fails hoptions.1 (hoptions.2.trans hfits))
  | update userId id body =>
      rcases h with ⟨hjson, hid, y, hacc⟩
      rcases schema_object (s := .updateLink) hacc with ⟨fields, out, rfl, rfl⟩
      have hclicks := accepts_nullableClicks (accepts_field (updateLinkShape_nodup H) hacc
        (by simp [updateLinkShape] : ("maxClicks", Zod.optional (Zod.nullable maxClicksSchema))
          ∈ updateLinkShape H)).1
      -- A cap that is set is positive, so only its range can refuse it.
      have hpos : ∀ n, (updateInput (.object out) (.object out)).maxClicks = some n →
          maxClicksCheck n = true := by
        intro n hn
        simp only [updateInput, presentIn, fieldOf] at hn
        split_ifs at hn with hhas
        rcases hcap : intOf (get out "maxClicks") with _ | k
        · rw [← Option.some.inj hn, hcap]
          rfl
        · rw [← Option.some.inj hn, hcap]
          exact decide_eq_true (hclicks.2 k (by rw [← hclicks.1]; exact hcap))
      refine makeValidator_may (accepts_id hid w.now) (makeValidator_may hacc ?_)
      refine parse_may (accepts_id hid w.now) (parse_may (second_now (s := .updateLink) hacc) ?_)
      refine failsByValue_bind (updateLink_fails ?_ hpos)
      exact (updateInput_accepted hjson hacc).trans hfits

end Beyond

/-- What the database takes is within its limits. -/
theorem fits_of_taken {P : Platform} {H : Host} {q : LinkRequest} {t : Nat}
    (h : q.Validated H t) (htaken : q.Taken P H) : q.fits H = true := by
  by_contra hbeyond
  have hfits : q.fits H = false := Bool.eq_false_of_not_eq_true hbeyond
  have hfails : (q.handler H).may (generating P 0) FailsByValue { emptyWorld with now := t } :=
    handler_fails h hfits rfl
  rcases (Prog.may_iff _ _).mp hfails with ⟨chs, r, w', hrun, e, hr, hdata⟩
  -- The failing run, among others that do nothing.
  rcases Prog.seqRun_among moves_refl _ _ _ _ hrun with ⟨xs, hamong⟩
  have hbenign := (Prog.wp_iff _ _).mp (htaken 0 { emptyWorld with now := t } rfl).2 xs r w' hamong
    (.db e) hr
  rw [Err.isDataError, hdata] at hbenign
  cases hbenign

/-- A validated request is taken exactly if its cap is at most 2147483647, its
    offset at most 9223372036854775807, and its destination without NUL. -/
theorem validated_taken_iff (P : Platform) (H : Host) (q : LinkRequest) (t : Nat)
    (h : q.Validated H t) : q.Taken P H ↔ q.fits H = true := by
  constructor
  · exact fits_of_taken h
  · intro hfits tid w hok
    have hmoves : ∀ v v', moves v v' = true → checksOk v.db = true → checksOk v'.db = true :=
      fun v v' hmove => (moves_iff.mp hmove).2
    have hfitting : Fitting P tid (q.handler H) := handler_fitting h hfits
    exact ⟨Prog.safe_sends hmoves _ hfitting w hok, Prog.safe_wp hmoves _ hfitting w hok⟩

/-- A request for a link with a cap. -/
def cappedRequest (cap : Int) : LinkRequest :=
  .create "u" (.object [("destinationUrl", .string "https://a.example/"),
    ("maxClicks", .number (.finite cap))])

theorem cappedRequest_validated (cap : Int) (hpos : 0 < cap) :
    (cappedRequest cap).Validated sampleHost 0 := by
  have hurl : Accepts (destinationUrlSchema sampleHost) 0 (.string "https://a.example/")
      (.string "https://a.example/") := rfl
  have hclicks : Accepts maxClicksSchema 0 (.number (.finite cap)) (.number (.finite cap)) := by
    refine accepts_number.mpr ⟨.finite cap, rfl, rfl, by simp, runChecks_nil.mpr (fun c hc => ?_)⟩
    simp only [List.mem_cons, List.not_mem_nil, or_false] at hc
    rcases hc with rfl | rfl
    · simp only [Zod.int, JsNumber.toInt?, Rat.den_intCast, if_true, Option.isSome_some]
    · exact decide_eq_true (Int.cast_pos.mpr hpos)
  refine ⟨rfl, .object [("destinationUrl", .string "https://a.example/"),
    ("maxClicks", .number (.finite cap))], accepts_object.mpr ⟨_, _, rfl, rfl, ?_, rfl⟩⟩
  exact parseShape_cons.mpr ⟨_, _, hurl, parseShape_cons.mpr ⟨.undefined, _, rfl,
    parseShape_cons.mpr ⟨.undefined, _, rfl, parseShape_cons.mpr ⟨_, _, hclicks,
      parseShape_cons.mpr ⟨.undefined, _, rfl, rfl, rfl⟩, rfl⟩, rfl⟩, rfl⟩, rfl⟩

theorem validated_taken_iff_capped :
    (cappedRequest 5).Taken samplePlatform sampleHost ↔ (cappedRequest 5).fits sampleHost = true :=
  validated_taken_iff samplePlatform sampleHost (cappedRequest 5) 0
    (cappedRequest_validated 5 (by decide))

/-- A cap one beyond the largest: validated, and not taken. -/
theorem cap_not_taken : ¬ ∀ (P : Platform) (H : Host) (q : LinkRequest) (t : Nat),
    q.Validated H t → q.Taken P H := by
  intro hall
  have hvalidated := cappedRequest_validated 2147483648 (by decide)
  have hfits := fits_of_taken hvalidated (hall samplePlatform sampleHost _ 0 hvalidated)
  have hcap : clicksFit (.object [("destinationUrl", .string "https://a.example/"),
      ("maxClicks", .number (.finite ((2147483648 : Int) : ℚ)))]) = false := rfl
  rw [cappedRequest, LinkRequest.fits, hcap, Bool.and_false] at hfits
  cases hfits

end ClickScope
