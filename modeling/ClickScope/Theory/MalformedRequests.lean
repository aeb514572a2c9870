import ClickScope.Core.ErrorHandler
import ClickScope.Theory.Handlers
import ClickScope.Theory.Validation

/-!
# Malformed Requests Are Captured as Incidents

An error that is no `AppError` is answered with 500 and captured, whatever
status it carries. The errors of the framework are none, so that a body that
is not accepted and a parameter that does not decode are answered as failures
of the server: no malformed request is answered with a client error. A preflight
request is no exception, since it is not answered with an error at all.

The error handler tells the two kinds of answers apart by the class of the error
and its status, and by nothing else. So an `AppError` below 500 keeps its status
and is not captured, and these are the only client errors there are.

## Main definitions

* `Malformed`: The requests the framework passes an error for.
* `ClientError`: How a malformed request should be answered.
* `thrownBy`: What a request throws at the error handler.

## Theorems

* `errorHandler_client`, `errorHandler_captured`: The errors, by what becomes of
  them.
* `visitRoute_throws`, `unlockRoute_throws`: Where a `URIError` comes from.
* `malformed_of_body`: The bodies that are not accepted.
* `malformed_never`: No malformed request is answered with a client error, and
  which requests are.
-/

namespace ClickScope

open Async Zod

section Handler

variable {nodeEnv : NodeEnv} {describe : Err → String} {err : Thrown} {requestId : String}

/-- An `AppError` keeps its status, and every other error has 500. -/
theorem errorHandler_status : (createErrorHandler nodeEnv describe err requestId).statusCode
    = (err.appError.map (·.statusCode)).getD 500 := rfl

/-- The status an error carries makes no difference if it is no `AppError`. -/
theorem errorHandler_other (h : err.appError = none) :
    (createErrorHandler nodeEnv describe err requestId).statusCode = 500 := by
  rw [errorHandler_status, h]
  rfl

/-- An error is captured exactly if it is answered as a failure of the server. -/
theorem errorHandler_incident :
    (createErrorHandler nodeEnv describe err requestId).captured ≠ none ↔
      500 ≤ (createErrorHandler nodeEnv describe err requestId).statusCode := by
  rw [errorHandler_status]
  change (if 500 ≤ (err.appError.map (·.statusCode)).getD 500 then some _ else none) ≠ none ↔ _
  by_cases hstatus : 500 ≤ (err.appError.map (·.statusCode)).getD 500
  · rw [if_pos hstatus]
    exact ⟨fun _ => hstatus, fun _ => Option.some_ne_none _⟩
  · rw [if_neg hstatus]
    exact ⟨fun h => absurd rfl h, fun h => absurd h hstatus⟩

/-- What is captured is the error itself. -/
theorem errorHandler_captures {capture : Capture}
    (h : (createErrorHandler nodeEnv describe err requestId).captured = some capture) :
    capture.err = err := by
  change (if 500 ≤ (err.appError.map (·.statusCode)).getD 500 then some _ else none)
    = some capture at h
  by_cases hstatus : 500 ≤ (err.appError.map (·.statusCode)).getD 500
  · rw [if_pos hstatus, Option.some.injEq] at h
    rw [← h]
  · rw [if_neg hstatus] at h
    cases h

/-- So all errors are captured but the `AppError`s below 500. -/
theorem errorHandler_captured :
    (createErrorHandler nodeEnv describe err requestId).captured ≠ none ↔
      ∀ e, err.appError = some e → 500 ≤ e.statusCode := by
  rw [errorHandler_incident, errorHandler_status]
  -- Without an `AppError` the status is 500, and with one it is its own.
  rcases err.appError with _ | e
  · simp only [Option.map_none, Option.getD_none, le_refl, reduceCtorEq, false_implies,
      implies_true]
  · simp only [Option.map_some, Option.getD_some, Option.some.injEq, forall_eq']

/-- An `AppError` below 500 keeps its status, and is not captured. -/
theorem errorHandler_expected {e : Operational} (h : err.appError = some e)
    (hlow : e.statusCode < 500) :
    (createErrorHandler nodeEnv describe err requestId).statusCode = e.statusCode ∧
      (createErrorHandler nodeEnv describe err requestId).captured = none := by
  refine ⟨by rw [errorHandler_status, h]; rfl, ?_⟩
  by_contra hcaptured
  exact absurd (errorHandler_captured.mp hcaptured e h) (Nat.not_le_of_lt hlow)

/-- The status of a client error, the envelope, and no capture. -/
structure ClientError (a : HttpAnswer) : Prop where
  status : 400 ≤ a.statusCode ∧ a.statusCode < 500
  envelope : ∃ e, a.body = .error e
  uncaptured : a.captured = none

/-- An error is answered as one of the client exactly if it is an `AppError` with
    the status of one. -/
theorem errorHandler_client :
    ClientError (createErrorHandler nodeEnv describe err requestId) ↔
      ∃ e, err.appError = some e ∧ 400 ≤ e.statusCode ∧ e.statusCode < 500 := by
  constructor
  · intro h
    rcases happ : err.appError with _ | e
    · have hstatus := h.status.2
      rw [errorHandler_other happ] at hstatus
      exact absurd hstatus (Nat.lt_irrefl 500)
    · have hstatus := h.status
      rw [errorHandler_status, happ] at hstatus
      exact ⟨e, rfl, hstatus⟩
  · rintro ⟨e, happ, hclient, hlow⟩
    have hexpected : (createErrorHandler nodeEnv describe err requestId).statusCode = e.statusCode ∧
        (createErrorHandler nodeEnv describe err requestId).captured = none :=
      errorHandler_expected happ hlow
    exact ⟨hexpected.1 ▸ ⟨hclient, hlow⟩, ⟨_, rfl⟩, hexpected.2⟩

end Handler

section Cookies

/-- A visit fails with a `URIError` only if the value of a cookie does not
    decode. -/
theorem visitRoute_throws (P : Platform) (shortCode : String)
    (cookie referrer userAgent : Option String) :
    (visitRoute P shortCode cookie referrer userAgent).Throws (fun e => e = .uriError →
      ∃ name, readCookie cookie name = .error .uriError) := by
  refine Prog.throws_bind (fun params => ?_) _
    (makeValidator_throws (fun _ => Err.noConfusion) Err.noConfusion _)
  refine Prog.throws_bind (fun parsedParams => ?_) _
    (parse_throws (fun _ => Err.noConfusion) Err.noConfusion _)
  exact visit_throws (fun _ => Err.noConfusion) (fun _ _ => Err.noConfusion) P _
    (fun e hread he => ⟨_, he ▸ hread⟩)

/-- Unlocking a link never does. -/
theorem unlockRoute_throws (shortCode : String) (body : JsValue) :
    (unlockRoute shortCode body).Throws (fun e => e ≠ .uriError) := by
  refine Prog.throws_bind (fun params => ?_) _
    (makeValidator_throws (fun _ => Err.noConfusion) Err.noConfusion _)
  refine Prog.throws_bind (fun validBody => ?_) _
    (makeValidator_throws (fun _ => Err.noConfusion) Err.noConfusion _)
  refine Prog.throws_bind (fun parsedParams => ?_) _
    (parse_throws (fun _ => Err.noConfusion) Err.noConfusion _)
  refine Prog.throws_bind (fun parsedBody => ?_) _
    (parse_throws (fun _ => Err.noConfusion) Err.noConfusion _)
  exact unlock_throws (fun _ => Err.noConfusion) (fun _ _ => Err.noConfusion) _

end Cookies

section Requests

variable (F : Framework) (nodeEnv : NodeEnv) (describe : Err → String) (handlers : RouteHandlers)
  (req : Incoming) (fresh : String)

/-- A request whose body is not accepted, or with a parameter in its matched
    path that does not decode. -/
def Malformed : Prop :=
  (∃ e, F.json req.contentType req.body = .error e) ∨
    dispatch (methodOf req.method) req.path = .undecodable

/-- What a request throws at the error handler, if it throws anything. A preflight
    request is answered before that. -/
def thrownBy : Option Thrown :=
  match corsMiddleware req, handleRequest F handlers req with
  | none, .error err => some err
  | _, _ => none

end Requests

section Results

variable {F : Framework} {nodeEnv : NodeEnv} {describe : Err → String} {handlers : RouteHandlers}
  {req : Incoming} {fresh : String}

/-- A body that is too long, in an unsupported charset, or no JSON object or
    array makes a request malformed. -/
theorem malformed_of_body {type : MediaType} {bytes : List UInt8}
    (htype : req.contentType = some type) (hbody : req.body = some bytes)
    (h : acceptableBody F.decode type bytes = false) : Malformed F req := by
  refine Or.inl ?_
  rw [htype, hbody]
  exact F.rejects type bytes h

/-- The framework passes an error for every malformed request. -/
theorem handleRequest_malformed (h : Malformed F req) :
    ∃ e, handleRequest F handlers req = .error (.framework e) := by
  rcases h with ⟨e, hbody⟩ | hpath
  · exact ⟨e, by simp only [handleRequest, hbody]⟩
  · rcases hbody : F.json req.contentType req.body with e | body
    · exact ⟨e, by simp only [handleRequest, hbody]⟩
    · exact ⟨F.decodeError req.path, by simp only [handleRequest, hbody, hpath]⟩

/-- What is thrown is answered by the error handler. -/
theorem app_thrown {err : Thrown} (h : thrownBy F handlers req = some err) :
    app F nodeEnv describe handlers req fresh
      = createErrorHandler nodeEnv describe err (requestContext req.requestId fresh) := by
  unfold thrownBy at h
  split at h
  · rename_i hcors herr
    rw [Option.some.injEq] at h
    simp only [app, hcors, herr, h]
  · exact absurd h (by simp only [reduceCtorEq, not_false_eq_true])

/-- What is not thrown is no error, and is not captured. -/
theorem app_sent (h : thrownBy F handlers req = none) :
    (app F nodeEnv describe handlers req fresh).captured = none ∧
      ∀ e, (app F nodeEnv describe handlers req fresh).body ≠ .error e := by
  unfold thrownBy at h
  unfold app
  rcases hcors : corsMiddleware req with _ | sent
  · rcases herr : handleRequest F handlers req with err | sent
    · rw [hcors, herr] at h
      exact absurd h (Option.some_ne_none err)
    · exact ⟨rfl, fun _ => AnswerBody.noConfusion⟩
  · exact ⟨rfl, fun _ => AnswerBody.noConfusion⟩

/-- The client errors of the application. -/
theorem app_client : ClientError (app F nodeEnv describe handlers req fresh) ↔
    ∃ err e, thrownBy F handlers req = some err ∧ err.appError = some e ∧
      400 ≤ e.statusCode ∧ e.statusCode < 500 := by
  rcases hthrown : thrownBy F handlers req with _ | err
  · simp only [reduceCtorEq, false_and, exists_false, iff_false]
    rintro ⟨_, ⟨e, he⟩, _⟩
    exact (app_sent hthrown).2 e he
  · rw [app_thrown hthrown, errorHandler_client]
    simp only [Option.some.injEq]
    exact ⟨fun ⟨e, he⟩ => ⟨err, e, rfl, he⟩, fun ⟨_, e, heq, he⟩ => ⟨e, heq ▸ he⟩⟩

/-- The incidents of the application. -/
theorem app_captured : (app F nodeEnv describe handlers req fresh).captured ≠ none ↔
    ∃ err, thrownBy F handlers req = some err ∧
      ∀ e, err.appError = some e → 500 ≤ e.statusCode := by
  rcases hthrown : thrownBy F handlers req with _ | err
  · simp only [reduceCtorEq, false_and, exists_false, iff_false, not_not]
    exact (app_sent hthrown).1
  · rw [app_thrown hthrown, errorHandler_captured]
    simp only [Option.some.injEq, exists_eq_left']

/-- A malformed request throws an error of the framework, if it is not answered
    before. -/
theorem thrownBy_malformed (h : Malformed F req) :
    thrownBy F handlers req = none ∨
      ∃ e, thrownBy F handlers req = some (.framework e) := by
  have herror : ∃ e, handleRequest F handlers req = .error (.framework e) :=
    handleRequest_malformed h
  rcases herror with ⟨e, he⟩
  unfold thrownBy
  rw [he]
  rcases corsMiddleware req with _ | sent
  · exact Or.inr ⟨e, rfl⟩
  · exact Or.inl rfl

/-- The error of the framework is no `AppError`. -/
theorem malformed_not_client (h : Malformed F req) :
    ¬ ClientError (app F nodeEnv describe handlers req fresh) := by
  intro hclient
  rcases app_client.mp hclient with ⟨err, e, hthrown, happ, _⟩
  have hframework : thrownBy F handlers req = none ∨
      ∃ e, thrownBy F handlers req = some (.framework e) := thrownBy_malformed h
  rcases hframework with hnone | ⟨e', he'⟩
  · -- A preflight request throws nothing at all.
    rw [hnone] at hthrown
    cases hthrown
  · rw [he', Option.some.injEq] at hthrown
    rw [← hthrown] at happ
    cases happ

/-- No malformed request is answered with a client error: all but preflight
    requests are answered with 500, and the error of the framework is captured. A
    client error is the answer exactly to what throws an `AppError` with its
    status, and everything else that is thrown is captured, but for an `AppError`
    below 500. -/
theorem malformed_never (F : Framework) (nodeEnv : NodeEnv) (describe : Err → String)
    (handlers : RouteHandlers) (req : Incoming) (fresh : String) :
    (Malformed F req →
      ¬ ClientError (app F nodeEnv describe handlers req fresh) ∧
      (corsMiddleware req = none →
        (app F nodeEnv describe handlers req fresh).statusCode = 500 ∧
        ∃ capture e, (app F nodeEnv describe handlers req fresh).captured = some capture ∧
          capture.err = .framework e)) ∧
    (ClientError (app F nodeEnv describe handlers req fresh) ↔
      ∃ err e, thrownBy F handlers req = some err ∧ err.appError = some e ∧
        400 ≤ e.statusCode ∧ e.statusCode < 500) ∧
    ((app F nodeEnv describe handlers req fresh).captured ≠ none ↔
      ∃ err, thrownBy F handlers req = some err ∧
        ∀ e, err.appError = some e → 500 ≤ e.statusCode) := by
  refine ⟨fun hmalformed => ⟨malformed_not_client hmalformed, fun hcors => ?_⟩, app_client,
    app_captured⟩
  have herror : ∃ e, handleRequest F handlers req = .error (.framework e) :=
    handleRequest_malformed hmalformed
  rcases herror with ⟨e, he⟩
  have hthrown : thrownBy F handlers req = some (.framework e) := by
    unfold thrownBy
    rw [hcors, he]
  -- Its error is no `AppError`, so the status it carries is not looked at.
  have hcaptured : (app F nodeEnv describe handlers req fresh).captured ≠ none :=
    app_captured.mpr ⟨_, hthrown, fun e' he' => by cases he'⟩
  rcases Option.ne_none_iff_exists'.mp hcaptured with ⟨capture, hcapture⟩
  rw [app_thrown hthrown] at hcapture ⊢
  exact ⟨errorHandler_other rfl, capture, e, hcapture, errorHandler_captures hcapture⟩

def sampleDecode (charset : String) (bytes : List UInt8) : Option (List Char) :=
  if charset = "utf-8" then some (decodeLossy Utf8State.start (bytes.map (·.toNat))) else none

/-- The framework for bodies that are cut off. -/
def sampleFramework : Framework where
  decode := sampleDecode
  json type bytes :=
    match type, bytes with
    | some type, some bytes =>
        if acceptableBody sampleDecode type bytes then
          .ok (((sampleDecode "utf-8" bytes).bind Json.parse).getD .undefined)
        else .error ⟨400, "Unexpected end of JSON input", by decide⟩
    | _, _ => .ok .undefined
  decodeError path := ⟨400, "Failed to decode param '" ++ path ++ "'", by decide⟩
  rejects := by
    intro type bytes h
    exact ⟨⟨400, "Unexpected end of JSON input", by decide⟩, if_neg (by rw [h]; decide)⟩

/-- A login whose body ends after the first name. -/
def brokenLogin : Incoming :=
  { method := "POST", path := "/api/auth/login", originalUrl := "/api/auth/login",
    requestId := none, contentType := some { essence := "application/json", charset := none },
    body := some ("\x7b\"email\":".toList.map (fun c => UInt8.ofNat c.toNat)) }

/-- The body of this login is not accepted. -/
theorem brokenLogin_malformed : Malformed sampleFramework brokenLogin :=
  malformed_of_body rfl rfl (by decide +kernel)

/-- The login is not answered with a client error, but with 500. -/
theorem malformed_never_login :
    ¬ ClientError (app sampleFramework .production (fun _ => "")
      (fun _ _ => .ok { statusCode := 200, body := "" }) brokenLogin "r") ∧
    (app sampleFramework .production (fun _ => "")
      (fun _ _ => .ok { statusCode := 200, body := "" }) brokenLogin "r").statusCode = 500 := by
  rcases (malformed_never sampleFramework .production (fun _ => "")
    (fun _ _ => .ok { statusCode := 200, body := "" }) brokenLogin "r").1
    brokenLogin_malformed with ⟨hclient, hanswer⟩
  exact ⟨hclient, (hanswer rfl).1⟩

/-- A login with a body that is cut off is captured. -/
theorem malformed_captured : ¬ ∀ (F : Framework) (nodeEnv : NodeEnv) (describe : Err → String)
    (handlers : RouteHandlers) (req : Incoming) (fresh : String),
    Malformed F req → ClientError (app F nodeEnv describe handlers req fresh) := by
  intro hall
  exact malformed_not_client brokenLogin_malformed (hall sampleFramework .production
    (fun _ => "") (fun _ _ => .ok { statusCode := 200, body := "" }) brokenLogin "r"
    brokenLogin_malformed)

end Results

end ClickScope
