import ClickScope.Json.Conveyed
import ClickScope.Theory.ApiDocument
import ClickScope.Theory.Ownership

/-!
# The Bodies of the Answers

What the server sends, against the schemas of its description.

No schema of an answer is used at run time, so that its checks hold only if they
hold of all that is stored. They do: ids, emails and destinations have been
checked when they were written, and come from nowhere else. So every body is
conveyed by the schema its status has, with one exception. A link may expire
after the year 9999, and the text of such a date is no date and time to the
schema: it has six digits of a year and a sign.

There is no body at all in an answer to a `HEAD`, and in one with 304.

## Main definitions

* `Declared.fits`: A body is as it is declared.
* `LateExpiry`: The exception.

## Theorems

* `conveys_authUser`, `conveys_link`, `conveys_error`, ...: The bodies.
* `bodies_described`: Every body the server sends.
-/

namespace ClickScope

open Async Zod Json

/-- A body is as it is declared: HTML, none, or JSON that the schema takes from
    the text. -/
def Declared.fits : Declared → Content → Prop
  | .json schema, .json v => Conveys schema v
  | .html, .html _ => True
  | .nothing, .other => True
  | .nothing, .empty => True
  | _, _ => False

/-- The link expires after the year 9999. -/
def LateExpiry (l : Link) : Prop :=
  ∃ t, l.expiresAt = some t ∧ Iso.LAST_INSTANT < t ∧ t ≤ MAX_TIME

instance (l : Link) : Decidable (LateExpiry l) :=
  match h : l.expiresAt with
  | none => isFalse fun ⟨_, ht, _⟩ => by rw [h] at ht; cases ht
  | some t =>
      decidable_of_iff (Iso.LAST_INSTANT < t ∧ t ≤ MAX_TIME)
        (by unfold LateExpiry; rw [h]; simp only [Option.some.injEq, exists_eq_left'])

section Bodies

variable {H : Host}

theorem conveys_instant {t : Nat} (h : (checkedStandard H).instant t) :
    Conveys (Zod.string [Zod.datetime "Invalid datetime"]) (dateJson t) := by
  have hlast : (t : Int) ≤ Iso.LAST_INSTANT := h
  refine (conveys_date (Int.natCast_nonneg t) ?_).mpr hlast
  unfold Iso.LAST_INSTANT at hlast
  unfold MAX_TIME
  omega

theorem conveys_uuid {id : String} (h : (checkedStandard H).uuid id) :
    Conveys (Zod.string [Zod.uuid H "Invalid uuid"]) (.string id) :=
  conveys_string fun _ hc => List.mem_singleton.mp hc ▸ h

theorem conveys_authUser {u : AuthUser} (h : ShownUser (checkedStandard H) u) :
    Conveys (AuthUserSchema H) (authUserJson u) := by
  refine conveys_object (by simp) (by simp [dateJson]) ?_
  exact .cons (conveys_uuid h.id)
    (.cons (conveys_string fun _ hc => List.mem_singleton.mp hc ▸ h.email)
    (.cons (conveys_boolean _)
    (.cons (conveys_instant h.createdAt)
    (.cons (conveys_instant h.updatedAt) .nil))))

theorem linkFields_defined (l : Link) : ∀ f ∈ linkFields l, f.2 ≠ .undefined := by
  unfold linkFields
  rcases l.expiresAt with _ | t <;> rcases l.maxClicks with _ | n <;>
    simp [nullable, dateJson, intJson]

theorem conveys_expiresAt {l : Link} (h : ShownLink (checkedStandard H) l) :
    Conveys (Zod.nullable (Zod.string [Zod.datetime "Invalid datetime"]))
      (nullable dateJson l.expiresAt) ↔ ¬ LateExpiry l := by
  unfold LateExpiry
  rcases hexp : l.expiresAt with _ | t
  · refine ⟨fun _ hlate => ?_, fun _ => conveys_null⟩
    rcases hlate with ⟨t, ht, _⟩
    cases ht
  · rw [nullable, dateJson, conveys_expiry (h.expiresAt t hexp)]
    simp only [Option.some.injEq, exists_eq_left']

/-- A link is conveyed unless it expires too late. -/
theorem conveys_link {l : Link} (h : ShownLink (checkedStandard H) l) :
    Conveys (LinkSchema H) (linkJson l) ↔ ¬ LateExpiry l := by
  have hnd : ((linkShape H).map (·.1)).Nodup := by simp [linkShape]
  have hmem : ("expiresAt", Zod.nullable (Zod.string [Zod.datetime "Invalid datetime"])) ∈
      linkShape H := by simp [linkShape]
  rw [← conveys_expiresAt h]
  constructor
  · exact fun hlink => conveys_field hnd (linkFields_defined l) hlink hmem
  · intro hfield
    have hclicks :
        Conveys (Zod.nullable (Zod.number [Zod.int])) (nullable intJson l.maxClicks) := by
      cases l.maxClicks with
      | none => exact conveys_null
      | some n => exact (conveys_nullable JsValue.noConfusion).mpr (conveys_int n)
    refine conveys_object hnd (linkFields_defined l) ?_
    exact .cons (conveys_uuid h.id) (.cons (conveys_uuid h.userId) (.cons (conveys_text _)
      (.cons (conveys_string fun _ hc => List.mem_singleton.mp hc ▸ h.destinationUrl)
      (.cons hfield (.cons hclicks (.cons (conveys_int _) (.cons (conveys_boolean _)
      (.cons (conveys_boolean _) (.cons (conveys_instant h.createdAt)
      (.cons (conveys_instant h.updatedAt) .nil))))))))))

/-- An object with one field that is always there. -/
theorem conveys_single {key : String} {s : Schema} {v : JsValue} (hv : v ≠ .undefined) :
    Conveys (Zod.object .strip [(key, s)]) (.object [(key, v)]) ↔ Conveys s v := by
  have hdefined : ∀ f ∈ [(key, v)], f.2 ≠ .undefined := by
    intro f hf
    rw [List.mem_singleton.mp hf]
    exact hv
  have hnd : (([(key, s)] : List (String × Schema)).map (·.1)).Nodup := by simp
  constructor
  · intro h
    have hfield := conveys_field hnd hdefined h List.mem_cons_self
    rwa [get_cons, if_pos rfl] at hfield
  · exact fun h => conveys_object hnd hdefined (.cons h .nil)

theorem conveys_session {s : Session} (h : ShownUser (checkedStandard H) s.user) :
    Conveys (sessionSchema H) (sessionJson s) :=
  conveys_object (by simp) (by simp [authUserJson])
    (.cons (conveys_authUser h) (.cons (conveys_text _) .nil))

theorem conveys_pagination (page : LinkPage) : Conveys PaginationSchema (paginationJson page) :=
  conveys_object (by simp) (by simp [intJson])
    (.cons (conveys_int _) (.cons (conveys_int _) (.cons (conveys_int _)
      (.cons (conveys_boolean _) .nil))))

/-- A page is conveyed unless one of its links is not. -/
theorem conveys_page {page : LinkPage} (h : ∀ l ∈ page.links, ShownLink (checkedStandard H) l) :
    Conveys (Zod.object .strip [("links", Zod.array (LinkSchema H)),
      ("pagination", PaginationSchema)]) (linkBodyJson (.page page)) ↔
      ∀ l ∈ page.links, ¬ LateExpiry l := by
  have hlinks : Conveys (Zod.array (LinkSchema H)) (.array (page.links.map linkJson)) ↔
      ∀ l ∈ page.links, ¬ LateExpiry l := by
    rw [conveys_array (by simp [linkJson]), List.forall_mem_map]
    exact forall₂_congr fun l hl => conveys_link (h l hl)
  have hdefined : ∀ f ∈ [("links", JsValue.array (page.links.map linkJson)),
      ("pagination", paginationJson page)], f.2 ≠ .undefined := by simp [paginationJson]
  rw [← hlinks]
  constructor
  · exact fun hpage => conveys_field (by simp) hdefined hpage List.mem_cons_self
  · exact fun hl => conveys_object (by simp) hdefined
      (.cons hl (.cons (conveys_pagination page) .nil))

theorem conveys_stats {linkId : String} (h : (checkedStandard H).uuid linkId) (days : Int)
    (stats : List LinkClickStats) :
    Conveys (LinkClickStatsSchema H) (statsJson linkId days stats) := by
  refine conveys_object (by simp) (by simp [intJson]) ?_
  refine .cons (conveys_uuid h) (.cons (conveys_int _) (.cons ?_ .nil))
  rw [conveys_array (by simp [dayJson]), List.forall_mem_map]
  exact fun s _ => conveys_object (by simp) (by simp [intJson])
    (.cons (conveys_text _) (.cons (conveys_int _) .nil))

theorem conveys_dependency (ok : Bool) (latencyMs : Nat) :
    Conveys dependencyStatusSchema (dependencyJson (timed ok) latencyMs) := by
  refine conveys_object (by simp) (by simp [intJson]) ?_
  refine .cons (conveys_enumeration ?_) (.cons (conveys_number _) .nil)
  cases ok <;> decide

theorem conveys_health (latencies : Latencies) (database redis : Bool)
    (waiting : Except Unit Nat) :
    Conveys HealthReportSchema (healthJson latencies (healthReport database redis waiting)) := by
  have hstatus : (healthReport database redis waiting).status.name ∈ ["ok", "degraded"] := by
    unfold healthReport
    simp only
    split_ifs <;> decide
  have hqueue : (healthReport database redis waiting).queue.name ∈ ["ok", "degraded", "error"] := by
    cases (healthReport database redis waiting).queue <;> decide
  have hchecks : Conveys (Zod.object .strip [
      ("status", Zod.enumeration ["ok", "degraded", "error"]), ("latencyMs", Zod.number []),
      ("waiting", Zod.number [Zod.int])]) (.object [
      ("status", .string (healthReport database redis waiting).queue.name),
      ("latencyMs", intJson latencies.queue),
      ("waiting", intJson (healthReport database redis waiting).waiting)]) :=
    conveys_object (by simp) (by simp [intJson])
      (.cons (conveys_enumeration hqueue) (.cons (conveys_number _) (.cons (conveys_int _) .nil)))
  refine conveys_object (by simp) (by simp) (.cons (conveys_enumeration hstatus) (.cons ?_ .nil))
  exact conveys_object (by simp) (by simp [dependencyJson])
    (.cons (conveys_dependency database _) (.cons (conveys_dependency redis _)
      (.cons hchecks .nil)))

theorem conveys_root :
    Conveys (Zod.object .strip [("name", Zod.string []), ("version", Zod.string [])]) rootJson :=
  conveys_object (by simp) (by simp) (.cons (conveys_text _) (.cons (conveys_text _) .nil))

/-- The details of an error can be anything, or missing. -/
theorem conveys_error (e : ErrorEnvelope) : Conveys ErrorEnvelopeSchema (errorJson e) := by
  refine (conveys_single JsValue.noConfusion).mpr ?_
  have hdetails : FieldsConveyed [("details", Zod.optional Zod.unknown)]
      (e.details.map (fun d => ("details", detailsJson d))).toList := by
    cases e.details with
    | none => exact .absent (fun _ => accepts_optional.mpr (Or.inl ⟨rfl, rfl⟩)) .nil
    | some d =>
        refine .cons (fun t => accepts_optional.mpr (Or.inr ⟨?_, takes_unknown⟩)) .nil
        exact written_undefined (by cases d <;> exact JsValue.noConfusion)
  refine conveys_object (by simp) ?_
    (.cons (conveys_text _) (.cons (conveys_text _) (.cons (conveys_text _) hdetails)))
  rcases e.details with _ | d
  · simp
  · cases d <;> simp [detailsJson]

end Bodies

section Answered

variable {D : Deployment}

def LinkBody.links : LinkBody → List Link
  | .link l => [l]
  | .page p => p.links

/-- The links that are shown. -/
def shownLinks : Except Thrown Sending → List Link
  | .ok (.link r) => r.body.links
  | _ => []

/-- What an endpoint sends is as it is declared for the status, unless it shows a
    link that expires too late. -/
theorem shown_fits {e : Endpoint} {sending : Sending}
    (h : Shown (checkedStandard D.H) e sending) {item : PathItem}
    (hitem : pathItem D.H e = some item) (latencies : Latencies) :
    ∃ declared, (sending.status, declared) ∈ item.responses ∧
      (declared.fits (sending.content latencies) ↔
        ∀ l ∈ shownLinks (.ok sending), ¬ LateExpiry l) := by
  -- Where no link is shown, there is nothing to except.
  have hnone : ∀ {p : Prop}, p → (p ↔ ∀ l ∈ ([] : List Link), ¬ LateExpiry l) := fun hp =>
    ⟨fun _ l hl => by (cases hl), fun _ => hp⟩
  cases h with
  | root =>
      cases hitem
      exact ⟨_, List.mem_cons_self, hnone conveys_root⟩
  | health database redis waiting =>
      cases hitem
      refine ⟨jsonContent HealthReportSchema, ?_, hnone (conveys_health latencies _ _ _)⟩
      simp only [Sending.status]
      split_ifs <;> simp
  | docs | openapi => cases hitem
  | signup s h | login s h =>
      cases hitem
      exact ⟨_, List.mem_cons_self, hnone (conveys_session h)⟩
  | googleStart r | googleCallback r =>
      cases hitem
      exact ⟨_, List.mem_cons_self, hnone trivial⟩
  | me user h =>
      cases hitem
      exact ⟨_, List.mem_cons_self, hnone ((conveys_single JsValue.noConfusion).mpr
        (conveys_authUser h))⟩
  | createLink link h | getLink id link h | updateLink id link h =>
      cases hitem
      refine ⟨_, List.mem_cons_self, ?_⟩
      rw [shownLinks, LinkBody.links, List.forall_mem_singleton, ← conveys_link h]
      exact conveys_single JsValue.noConfusion
  | listLinks page h =>
      cases hitem
      exact ⟨_, List.mem_cons_self, conveys_page h⟩
  | linkStats id linkId days stats h =>
      cases hitem
      exact ⟨_, List.mem_cons_self, hnone (conveys_stats h days stats)⟩
  | deleteLink id =>
      cases hitem
      exact ⟨_, List.mem_cons_self, hnone trivial⟩
  | visit shortCode r h | unlock shortCode r h =>
      cases hitem
      cases h with
      | redirect location cookie =>
          exact ⟨.nothing, by simp [Sending.status, Response.statusCode], hnone trivial⟩
      | html body =>
          exact ⟨.html, by simp [Sending.status, Response.statusCode], hnone trivial⟩

/-- An answer with a status an entry lists, or with one of an error it does not
    list, has the body it should, unless it shows a link that expires too late. -/
def FitsEntry (item : PathItem) (endpoint : Endpoint) (status : Nat) (content : Content)
    (links : List Link) : Prop :=
  ∃ declared,
    ((status, declared) ∈ item.responses ∨
      status ∈ undocumented endpoint ∧ declared = errorResponse) ∧
    (declared.fits content ↔ ∀ l ∈ links, ¬ LateExpiry l)

/-- Every answer to a request for a described route has the body its status is
    listed with, or that of an error if it is not listed, unless it shows a link
    that expires too late. An answer to a `HEAD` has none, and neither has one to
    a client that has the body. -/
theorem bodies_described (D : Deployment) (A : Answering) (w₀ : ServerWorld)
    (h₀ : DbShown (checkedStandard D.H) w₀.app.db) (c : ServerSite)
    (hc : Run (server D) (credible (checkedStandard D.H)) w₀ c) (i : Nat) (t : ServerTask)
    (req : Request) (item : PathItem) (r : Except Thrown Sending) (ht : c.threads[i]? = some t)
    (hcall : t.call = .request req) (hcors : corsMiddleware req.incoming = none)
    (hitem : pathItem D.H req.endpoint = some item) (hr : t.result = some r) :
    if methodOf req.incoming.method = .head then answerContent A req r = .empty
    else Unmodified req item (answerStatus A req r) ∧ answerContent A req r = .empty ∨
      FitsEntry item req.endpoint (answerStatus A req r) (answerContent A req r)
        (shownLinks r) := by
  unfold answerContent
  split_ifs
  · rfl
  have hends := run_ends (server_honours D (checkedStandard D.H))
    (work_meets (checkedStandard D.H)) h₀ hc ht hr
  rw [hcall] at hends
  rcases hends with ⟨sending, rfl, hsent⟩ | ⟨err, rfl, hthrown⟩
  · unfold answerStatus fullContent
    -- A success the client has already goes out without its body.
    by_cases hfresh : notModified A req sending = true
    · simp only [if_pos hfresh]
      exact Or.inl
        ⟨notModified_unmodified hfresh (shown_status (hsent hcors).1 hitem), trivial⟩
    · simp only [if_neg hfresh]
      rcases shown_fits (hsent hcors).1 hitem A.latencies with ⟨declared, hlisted, hfits⟩
      exact Or.inr ⟨declared, Or.inl hlisted, hfits⟩
  · -- An error shows no link, and has the envelope whatever its status is.
    refine Or.inr ⟨errorResponse, ?_, fun _ l hl => by (cases hl), fun _ => conveys_error _⟩
    rw [thrown_answerStatus]
    exact (errorStatuses_listed hitem (hthrown hcors)).symm.imp_right fun hs => ⟨hs, rfl⟩

/-- An answer to a `POST` always has a body as it is described. -/
theorem fitsEntry_post {item : PathItem} {req : Request} {status : Nat} {content : Content}
    {links : List Link} (hpost : item.method = .post)
    (hfor : item.isFor (methodOf req.incoming.method) req.incoming.path)
    (h : if methodOf req.incoming.method = .head then content = .empty
      else Unmodified req item status ∧ content = .empty ∨
        FitsEntry item req.endpoint status content links) :
    FitsEntry item req.endpoint status content links := by
  have hmethod : methodOf req.incoming.method = .post := by
    have hhandles := hfor.1
    rw [hpost] at hhandles
    generalize methodOf req.incoming.method = method at hhandles ⊢
    cases method with
    | post => rfl
    | _ => cases hhandles
  rw [hmethod, if_neg Method.noConfusion] at h
  -- Only a `GET` or a `HEAD` is answered with 304.
  refine h.resolve_left fun hunmodified => ?_
  have hget := hunmodified.1.method
  rw [hmethod] at hget
  exact hget.elim Method.noConfusion Method.noConfusion

/-- A deployment that has a short text for the session token of the first id. -/
def shownDeployment : Deployment :=
  { signInDeployment with
    P := { samplePlatform with
           jwt := shortJwt (stamped (sessionClaims firstId) 0 samplePlatform.jwtExpiresIn) } }

/-- A request for a link that expires with the beginning of the year 10000. -/
def lateRequest : Incoming :=
  { createRequest with
    body := some (("\x7b\"destinationUrl\":\"https://a.example/\",\"customAlias\":\"abc\"," ++
      "\"expiresAt\":253402300800000\x7d").toList.map (fun c => UInt8.ofNat c.toNat)) }

/-- The clock has not passed the year 9999, and an id is drawn. -/
def drawsId (c : ServerSite) : Action Work ServerEnv Choice → Bool
  | .run _ ch =>
      decide ((c.state.world.app.now : Int) ≤ Iso.LAST_INSTANT) &&
        (shownDeployment.H.isUuid ch.draw && ch.payload.isNone)
  | _ => true

theorem drawsId_permits (c : ServerSite) (a : Action Work ServerEnv Choice)
    (h : drawsId c a = true) : (credible (checkedStandard shownDeployment.H)).permits c a := by
  cases a with
  | run i ch =>
      intro t op k _ _
      simp only [drawsId, Bool.and_eq_true, decide_eq_true_eq, Option.isNone_iff_eq_none] at h
      rcases h with ⟨hnow, hdraw, hpayload⟩
      have happ : ∀ op, credibleChoice (checkedStandard shownDeployment.H) op ch := by
        intro op
        cases op with
        | db s =>
            cases s with
            | insertUser | insertLink => exact hdraw
            | _ => trivial
        | verifyIdToken idToken =>
            intro p e hp
            rw [hpayload] at hp
            cases hp
        | _ => trivial
      refine ⟨hnow, ?_⟩
      cases op with
      | api op => exact happ op
      | nobody op => exact happ op
      | _ => trivial
  | _ => trivial

/-- Somebody signs up and creates a link that expires too late: the account is
    shown as it is declared, the link is not. -/
theorem bodies_described_late : ∃ c : ServerSite,
    Run (server shownDeployment) (credible (checkedStandard shownDeployment.H))
      sampleServerWorld c ∧
    ∃ req₀ req₁ r₀ r₁ d₀ d₁, req₀.endpoint = .signup ∧ req₁.endpoint = .createLink ∧
      c.resultOf 0 = some r₀ ∧ c.resultOf 1 = some r₁ ∧
      Declared.fits d₀ (answerContent sampleAnswering req₀ r₀) ∧
      ¬ Declared.fits d₁ (answerContent sampleAnswering req₁ r₁) := by
  have hrun := exists_run_of (server shownDeployment)
    (credible (checkedStandard shownDeployment.H)) sampleServerWorld drawsId drawsId_permits
    [.spawn (.request (bareRequest signupRequest)), .run 0 { draw := firstId },
      .run 0 { draw := firstId }, .run 0 { draw := firstId }, .run 0 { draw := firstId },
      .run 0 { draw := firstId }, .run 0 { draw := firstId }, .run 0 { draw := firstId },
      .spawn (.request { bareRequest lateRequest with authorization := some "Bearer t" }),
      .run 1 { draw := secondId }, .run 1 { draw := secondId }, .run 1 { draw := secondId },
      .run 1 { draw := secondId }, .run 1 { draw := secondId }, .run 1 { draw := secondId },
      .run 1 { draw := secondId }]
    (fun c => decide (answeredStatus c 0 = some (.signup, 201)) &&
      decide (answeredStatus c 1 = some (.createLink, 201)) &&
      (c.resultOf 0).all (fun r => (shownLinks r).isEmpty) &&
      (c.resultOf 1).all (fun r => (shownLinks r).any (fun l => decide (LateExpiry l))))
    (by decide +kernel)
  rcases hrun with ⟨c, hc, hp⟩
  simp only [Bool.and_eq_true, decide_eq_true_eq] at hp
  rcases hp with ⟨⟨⟨hfirst, hsecond⟩, hnone⟩, hlate⟩
  have h₀ : DbShown (checkedStandard shownDeployment.H) sampleServerWorld.app.db :=
    dbShown_empty _ rfl
  rcases answeredStatus_inv hfirst with ⟨t₀, req₀, r₀, ht₀, hcall₀, hcors₀, hr₀, he₀, _⟩
  rcases answeredStatus_inv hsecond with ⟨t₁, req₁, r₁, ht₁, hcall₁, hcors₁, hr₁, he₁, _⟩
  have hres₀ : c.resultOf 0 = some r₀ := by rw [Config.resultOf, ht₀, Option.bind_some, hr₀]
  have hres₁ : c.resultOf 1 = some r₁ := by rw [Config.resultOf, ht₁, Option.bind_some, hr₁]
  have hitem₀ : pathItem shownDeployment.H req₀.endpoint = pathItem shownDeployment.H .signup := by
    rw [he₀]
  have hitem₁ : pathItem shownDeployment.H req₁.endpoint
      = pathItem shownDeployment.H .createLink := by rw [he₁]
  rcases fitsEntry_post rfl (described_route hitem₀) (bodies_described shownDeployment
    sampleAnswering sampleServerWorld h₀ c hc 0 t₀ req₀ _ r₀ ht₀ hcall₀ hcors₀ hitem₀ hr₀) with
    ⟨d₀, _, hfits₀⟩
  rcases fitsEntry_post rfl (described_route hitem₁) (bodies_described shownDeployment
    sampleAnswering sampleServerWorld h₀ c hc 1 t₁ req₁ _ r₁ ht₁ hcall₁ hcors₁ hitem₁ hr₁) with
    ⟨d₁, _, hfits₁⟩
  refine ⟨c, hc, req₀, req₁, r₀, r₁, d₀, d₁, he₀, he₁, hres₀, hres₁, hfits₀.mpr ?_,
    fun hfits => ?_⟩
  · rw [hres₀, Option.all_some, List.isEmpty_iff] at hnone
    rw [hnone]
    exact fun l hl => by cases hl
  · rw [hres₁, Option.all_some, List.any_eq_true] at hlate
    rcases hlate with ⟨l, hl, hexp⟩
    exact hfits₁.mp hfits l hl (of_decide_eq_true hexp)

end Answered

end ClickScope
