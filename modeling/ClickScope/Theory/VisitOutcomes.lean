import ClickScope.Core.ErrorHandler
import ClickScope.Theory.Handlers
import ClickScope.Theory.Validation

/-!
# The Documented Outcomes of a Visit

Which of the four documented answers `GET /:shortCode` gives, and when it gives
another.

`documented` states them on the row: 404, 410, the password form of the code, or
the redirect to the row's destination. It speaks of what the request carries, so
of any cookie of the link's name. The handler reads the first one only, decodes
it before it looks at it, and asks the database about any code at all. Express
encodes the address of a redirect, and sends no page to a client that has it.
Each of these steps has inputs on which it parts from the documented answer, and
`Answerable` names exactly those it does not: the code is text the database can
hold, the first cookie of the name decodes, and is the one that holds the grant
if any does, and then the destination is an address Express leaves as it is, or
the form is one the client does not have.

## Main definitions

* `Answer`, `answerOf`: What the client sees, and what it sees of a handler's end.
* `cookieValues`: All values a request carries under a name.
* `documented`: The documented answer.
* `Answerable`: When it is given.

## Theorems

* `answerOf_error`: The errors, as the error handler answers them.
* `unlocked_first`: The grant check looks at the first value.
* `visitRoute_answers`: The route, validation included.
* `visit_answers_iff`: The documented answer is given exactly if `Answerable`.
* `visit_uriError`: A request that is answered by an uncaught exception.
-/

namespace ClickScope

open Async Zod

/-- What a client sees of an answer: its status, its Location header, and the page
    that is its body, if one is. -/
structure Answer where
  statusCode : Nat
  location : Option String
  page : Option String
deriving DecidableEq, Repr

section Answers

/-- An answer without an address and without a page. -/
def Answer.bare (statusCode : Nat) : Answer :=
  { statusCode := statusCode, location := none, page := none }

def Answer.notFound : Answer := .bare 404

def Answer.gone : Answer := .bare 410

/-- The password form of a code. -/
def Answer.interstitial (shortCode : String) : Answer :=
  { statusCode := 200, location := none, page := some (renderInterstitial shortCode none) }

def Answer.redirect (url : String) : Answer :=
  { statusCode := 302, location := some url, page := none }

/-- The answer the error handler and Express make of a handler's end. `hasPage`
    says which pages the client has already. -/
def answerOf (P : Platform) (hasPage : String → Bool) : Except Err Response → Answer
  | .ok r =>
      if isFresh .get r.statusCode (r.page.any hasPage) then .bare 304
      else { statusCode := r.statusCode, location := r.location P, page := r.page }
  | .error e =>
      .bare (((Thrown.service (.err e)).appError.map (·.statusCode)).getD 500)

/-- An error is answered with the status the error handler gives it. -/
theorem answerOf_error (P : Platform) (hasPage : String → Bool) (nodeEnv : NodeEnv)
    (describe : Err → String) (requestId : String) (e : Err) :
    (answerOf P hasPage (.error e)).statusCode
      = (createErrorHandler nodeEnv describe (.service (.err e)) requestId).statusCode := rfl

/-- The address of a redirect is what Express makes of it. -/
theorem answerOf_redirect (P : Platform) (hasPage : String → Bool) (url : String)
    (cookie : Option UnlockCookie) :
    answerOf P hasPage (.ok (.redirect url cookie)) = .redirect (P.encodeUrl url) := rfl

/-- The password form is sent to a client that does not have it. -/
theorem answerOf_interstitial (P : Platform) (hasPage : String → Bool) (shortCode : String) :
    answerOf P hasPage (.ok (.html 200 (renderInterstitial shortCode none)))
      = if hasPage (renderInterstitial shortCode none) = true then .bare 304
        else .interstitial shortCode := by
  have hfresh : isFresh .get 200 ((some (renderInterstitial shortCode none)).any hasPage)
      = hasPage (renderInterstitial shortCode none) := Bool.true_and _
  simp only [answerOf, Response.statusCode, Response.page, Response.location, hfresh]
  rfl

theorem Answer.redirect_inj {url url' : String} :
    Answer.redirect url = .redirect url' ↔ url = url' := by
  simp only [Answer.redirect, Answer.mk.injEq, Option.some.injEq, true_and, and_true]

/-- Answers with different statuses are different. -/
theorem Answer.ne_of_status {a b : Answer} (h : a.statusCode ≠ b.statusCode) : a ≠ b :=
  fun heq => h (congrArg Answer.statusCode heq)

theorem redirect_ne_interstitial (url shortCode : String) :
    Answer.redirect url ≠ .interstitial shortCode :=
  Answer.ne_of_status (Nat.ne_of_beq_eq_false rfl)

end Answers

/-- Every value the request carries under a cookie name, undecoded. -/
def cookieValues (cookie : Option String) (name : String) : List (List Char) :=
  match cookie with
  | none => []
  | some header => (header.toList.splitOn ';').filterMap (cookiePart name.toList)

/-- The value is a valid grant for the link, once decoded. -/
def holdsGrant (P : Platform) (now : Nat) (linkId : String) (raw : List Char) : Bool :=
  match decodeURIComponent raw with
  | none => false
  | some value => decide (value ≠ []) &&
      decide (verifyUnlockToken P (seconds now) (String.ofList value) = some linkId)

/-- The request carries a valid grant for the link. -/
def carriesGrant (P : Platform) (now : Nat) (req : VisitRequest) (linkId : String) : Bool :=
  (cookieValues req.cookie (cookieNameFor req.shortCode)).any (holdsGrant P now linkId)

/-- The link is inactive, expired or at its click limit. -/
def deadRow (now : Nat) (row : LinkRow) : Bool :=
  !row.isActive || row.expiresAt.any (fun t => decide (t ≤ (now : Int))) ||
    row.maxClicks.any (fun n => decide (n ≤ (row.clickCount : Int)))

/-- The row of a short code. -/
def rowOf (db : Db) (code : String) : Option LinkRow :=
  db.links.find? (fun r => r.shortCode == code)

/-- The documented answer. -/
def documented (P : Platform) (now : Nat) (req : VisitRequest) (db : Db) : Answer :=
  match rowOf db req.shortCode with
  | none => .notFound
  | some row =>
      if deadRow now row then .gone
      else if row.passwordHash.isSome && !carriesGrant P now req row.id then
        .interstitial req.shortCode
      else .redirect row.destinationUrl

/-- The first cookie of the link's name, if the request has one, decodes, and
    holds a grant if any of them does. -/
def FirstDecides (P : Platform) (now : Nat) (req : VisitRequest) (row : LinkRow) : Prop :=
  ∀ raw, (cookieValues req.cookie (cookieNameFor req.shortCode)).head? = some raw →
    (∃ value, decodeURIComponent raw = some value) ∧
    (carriesGrant P now req row.id = true → holdsGrant P now row.id raw = true)

/-- When the documented answer is given: the code can be stored, and if its
    link is live and has a password, the first cookie of the link's name
    decides. A stored hash that is the empty text is no password to the handler,
    so there a grant is needed. Where the answer is the redirect, Express leaves
    the destination as it is, and where it is the form, the client does not have
    it yet. -/
def Answerable (P : Platform) (hasPage : String → Bool) (now : Nat) (req : VisitRequest)
    (db : Db) : Prop :=
  textOk req.shortCode = true ∧
  ∀ row, rowOf db req.shortCode = some row → deadRow now row = false →
    (row.passwordHash = some "" → carriesGrant P now req row.id = true) ∧
    (∀ hash, row.passwordHash = some hash → hash ≠ "" → FirstDecides P now req row) ∧
    ((row.passwordHash = none ∨ carriesGrant P now req row.id = true) →
      P.encodeUrl row.destinationUrl = row.destinationUrl) ∧
    (row.passwordHash ≠ none → carriesGrant P now req row.id = false →
      hasPage (renderInterstitial req.shortCode none) = false)

section Parts

variable {P : Platform} {hasPage : String → Bool} {now : Nat} {req : VisitRequest} {db : Db}
  {row : LinkRow}

/-- The dead states of the handler are the documented ones. -/
theorem deadStateError_row :
    (deadStateError now (toRedirectLink row)).isSome = deadRow now row := by
  unfold deadStateError deadRow
  -- The handler asks for the three states in this order.
  by_cases ha : row.isActive = true
  · have hlive : ¬ (toRedirectLink row).isActive = false := by
      rw [Bool.not_eq_false]
      exact ha
    rw [if_neg hlive, ha]
    by_cases he : row.expiresAt.any (fun t => decide (t ≤ (now : Int))) = true
    · have he' : (toRedirectLink row).expiresAt.any (fun t => decide (t ≤ (now : Int))) = true := he
      rw [if_pos he', he]
      rfl
    · have he' : ¬ (toRedirectLink row).expiresAt.any (fun t => decide (t ≤ (now : Int))) = true :=
        he
      rw [if_neg he', Bool.eq_false_of_not_eq_true he]
      by_cases hm : row.maxClicks.any (fun n => decide (n ≤ (row.clickCount : Int))) = true
      · have hm' : (toRedirectLink row).maxClicks.any
            (fun n => decide (n ≤ ((toRedirectLink row).clickCount : Int))) = true := hm
        rw [if_pos hm', hm]
        rfl
      · have hm' : ¬ (toRedirectLink row).maxClicks.any
            (fun n => decide (n ≤ ((toRedirectLink row).clickCount : Int))) = true := hm
        rw [if_neg hm', Bool.eq_false_of_not_eq_true hm]
        rfl
  · have hoff : (toRedirectLink row).isActive = false := Bool.eq_false_of_not_eq_true ha
    rw [if_pos hoff, Bool.eq_false_of_not_eq_true ha]
    rfl

/-- The reader of one cookie finds the first value of its name. -/
theorem readCookie_first (cookie : Option String) (name : String) :
    readCookie cookie name = match (cookieValues cookie name).head? with
      | none => .ok none
      | some raw =>
          match decodeURIComponent raw with
          | none => .error .uriError
          | some value => .ok (some (String.ofList value)) := by
  cases cookie with
  | none => rfl
  | some header =>
      have hfirst : (header.toList.splitOn ';').findSome? (cookiePart name.toList)
          = (cookieValues (some header) name).head? := List.head?_filterMap.symm
      exact hfirst ▸ rfl

/-- The grant check looks at the first value of the name. -/
theorem unlocked_first (linkId : String) (link : RedirectLink) (hid : link.id = linkId) :
    unlocked P now req link =
      match (cookieValues req.cookie (cookieNameFor req.shortCode)).head? with
      | none => .ok false
      | some raw =>
          match decodeURIComponent raw with
          | none => .error .uriError
          | some _ => .ok (holdsGrant P now linkId raw) := by
  unfold unlocked
  rw [readCookie_first]
  rcases (cookieValues req.cookie (cookieNameFor req.shortCode)).head? with _ | raw
  · rfl
  · simp only
    rcases hdec : decodeURIComponent raw with _ | value
    · rfl
    · -- A value that decodes to the empty text is no cookie, and no grant either.
      have hempty : String.ofList value = "" ↔ value = [] := by
        rw [← String.toList_inj, String.toList_ofList]
        rfl
      simp only [truthy, holdsGrant, hdec, ← hid]
      by_cases hv : value = []
      · rw [if_pos (hempty.mpr hv)]
        simp only [hv, ne_eq, not_true_eq_false, decide_false, Bool.false_and]
      · rw [if_neg (fun h => hv (hempty.mp h))]
        simp only [ne_eq, hv, not_false_eq_true, decide_true, Bool.true_and]

/-- A first value that holds a grant is one the request carries. -/
theorem carriesGrant_first {linkId : String} {raw : List Char}
    (hraw : (cookieValues req.cookie (cookieNameFor req.shortCode)).head? = some raw)
    (h : holdsGrant P now linkId raw = true) : carriesGrant P now req linkId = true := by
  unfold carriesGrant
  rw [List.any_eq_true]
  exact ⟨raw, List.mem_of_head? hraw, h⟩

/-- The row a lookup returns is the one of the code, if the code is text. -/
theorem head?_redirectLookup (db : Db) (h : textOk req.shortCode = true) :
    db.redirectLookup req.shortCode
      = .ok (db.links.filter (fun r => r.shortCode == req.shortCode)) ∧
    (db.links.filter (fun r => r.shortCode == req.shortCode)).head? = rowOf db req.shortCode := by
  refine ⟨?_, List.head?_filter⟩
  unfold Db.redirectLookup
  rw [if_pos h]

/-- A code that is no text of the database is an error of the query. -/
theorem visitResult_notText (h : ¬ textOk req.shortCode = true) :
    answerOf P hasPage (visitResult P now req db) = .bare 500 := by
  have hlook : db.redirectLookup req.shortCode = .error .invalidByteSequence := by
    unfold Db.redirectLookup
    rw [if_neg h]
  unfold visitResult rowResult
  rw [hlook]
  rfl

theorem visitResult_noRow (h : textOk req.shortCode = true) (hrow : rowOf db req.shortCode = none) :
    answerOf P hasPage (visitResult P now req db) = .notFound := by
  rcases head?_redirectLookup db h with ⟨hlook, hhead⟩
  unfold visitResult rowResult
  rw [hlook]
  simp only [hhead, hrow, Option.map_none]
  rfl

/-- A dead link is gone, in whichever of the three ways. -/
theorem visitResult_dead (h : textOk req.shortCode = true)
    (hrow : rowOf db req.shortCode = some row) (hdead : deadRow now row = true) :
    answerOf P hasPage (visitResult P now req db) = .gone := by
  rcases head?_redirectLookup db h with ⟨hlook, hhead⟩
  -- Whatever the reason, the status is 410.
  have hsome : (deadStateError now (toRedirectLink row)).isSome = true := by
    rw [deadStateError_row, hdead]
  rcases Option.isSome_iff_exists.mp hsome with ⟨e, he⟩
  have hstatus : e.statusCode = 410 := deadStateError_status he
  unfold visitResult rowResult
  rw [hlook]
  simp only [hhead, hrow, Option.map_some, he, answerOf, Thrown.appError, hstatus]
  rfl

/-- What the handler makes of a live link. -/
theorem visitResult_live (h : textOk req.shortCode = true)
    (hrow : rowOf db req.shortCode = some row) (hdead : deadRow now row = false) :
    visitResult P now req db =
      match truthy row.passwordHash with
      | none => .ok (.redirect row.destinationUrl none)
      | some _ =>
          match unlocked P now req (toRedirectLink row) with
          | .error e => .error e
          | .ok false => .ok (.html 200 (renderInterstitial req.shortCode none))
          | .ok true => .ok (.redirect row.destinationUrl none) := by
  rcases head?_redirectLookup db h with ⟨hlook, hhead⟩
  have hnone : deadStateError now (toRedirectLink row) = none := by
    rw [← Option.not_isSome_iff_eq_none, deadStateError_row, hdead]
    exact Bool.false_ne_true
  unfold visitResult rowResult
  rw [hlook]
  simp only [hhead, hrow, Option.map_some, hnone]
  rfl

/-- What a client sees that is sent the password form of the code. -/
def formAnswer (hasPage : String → Bool) (shortCode : String) : Answer :=
  if hasPage (renderInterstitial shortCode none) = true then .bare 304 else .interstitial shortCode

/-- On a live link without a password, the answer is the redirect. So it is with
    the empty hash, where the handler sees no password. -/
theorem visitResult_open (h : textOk req.shortCode = true)
    (hrow : rowOf db req.shortCode = some row) (hdead : deadRow now row = false)
    (hopen : truthy row.passwordHash = none) :
    answerOf P hasPage (visitResult P now req db) = .redirect (P.encodeUrl row.destinationUrl) := by
  rw [visitResult_live h hrow hdead, hopen]
  exact answerOf_redirect P hasPage _ none

/-- On a live link with a password, the first cookie of the link's name decides
    the answer. -/
theorem visitResult_protected (h : textOk req.shortCode = true)
    (hrow : rowOf db req.shortCode = some row) (hdead : deadRow now row = false) {hash : String}
    (hhash : row.passwordHash = some hash) (hne : hash ≠ "") :
    answerOf P hasPage (visitResult P now req db) =
      match (cookieValues req.cookie (cookieNameFor req.shortCode)).head? with
      | none => formAnswer hasPage req.shortCode
      | some raw =>
          match decodeURIComponent raw with
          | none => .bare 500
          | some _ =>
              if holdsGrant P now row.id raw = true then .redirect (P.encodeUrl row.destinationUrl)
              else formAnswer hasPage req.shortCode := by
  have htruthy : truthy row.passwordHash = some hash := by
    rw [hhash]
    exact if_neg hne
  -- The row is live and has a password, so that the cookie decides.
  rw [visitResult_live h hrow hdead, htruthy, unlocked_first row.id (toRedirectLink row) rfl]
  rcases (cookieValues req.cookie (cookieNameFor req.shortCode)).head? with _ | raw
  · exact answerOf_interstitial P hasPage req.shortCode
  · simp only
    rcases decodeURIComponent raw with _ | value
    · rfl
    · simp only
      rcases holdsGrant P now row.id raw with _ | _
      · exact answerOf_interstitial P hasPage req.shortCode
      · exact answerOf_redirect P hasPage _ none

/-- A request without any cookie of the name carries no grant. -/
theorem carriesGrant_none {linkId : String}
    (hraw : (cookieValues req.cookie (cookieNameFor req.shortCode)).head? = none) :
    carriesGrant P now req linkId = false := by
  unfold carriesGrant
  rw [List.head?_eq_none_iff.mp hraw]
  rfl

/-- The documented answer on a live link with a password depends on whether the
    request carries a grant at all. -/
theorem documented_protected (hrow : rowOf db req.shortCode = some row)
    (hdead : deadRow now row = false) {hash : String} (hhash : row.passwordHash = some hash) :
    documented P now req db =
      if carriesGrant P now req row.id = true then .redirect row.destinationUrl
      else .interstitial req.shortCode := by
  unfold documented
  simp only [hrow, hdead, hhash, Option.isSome_some, Bool.true_and, Bool.false_eq_true, if_false]
  rcases carriesGrant P now req row.id with _ | _ <;> rfl

/-- The form is seen exactly by a client that does not have it. -/
theorem formAnswer_iff (shortCode : String) :
    formAnswer hasPage shortCode = .interstitial shortCode ↔
      hasPage (renderInterstitial shortCode none) = false := by
  unfold formAnswer
  rcases hasPage (renderInterstitial shortCode none) with _ | _
  · simp only [Bool.false_eq_true, if_false]
  · simp only [if_true, Bool.true_eq_false, iff_false]
    exact Answer.ne_of_status (Nat.ne_of_beq_eq_false rfl)

theorem formAnswer_ne_redirect (url shortCode : String) :
    formAnswer hasPage shortCode ≠ .redirect url := by
  unfold formAnswer
  split_ifs
  · exact Answer.ne_of_status (Nat.ne_of_beq_eq_false rfl)
  · exact (redirect_ne_interstitial url shortCode).symm

/-- None of the documented answers is an error of the server. -/
theorem documented_ne_error : documented P now req db ≠ .bare 500 := by
  unfold documented
  split
  · exact Answer.ne_of_status (Nat.ne_of_beq_eq_false rfl)
  · split_ifs <;> exact Answer.ne_of_status (Nat.ne_of_beq_eq_false rfl)

/-- On a live link with a password, the answer is the documented one exactly if
    the first cookie of the name is good for the question, and the redirect or the
    form reaches the client as it is. -/
theorem protected_iff (h : textOk req.shortCode = true)
    (hrow : rowOf db req.shortCode = some row) (hdead : deadRow now row = false) {hash : String}
    (hhash : row.passwordHash = some hash) (hne : hash ≠ "") :
    answerOf P hasPage (visitResult P now req db) = documented P now req db ↔
      FirstDecides P now req row ∧
      (carriesGrant P now req row.id = true →
        P.encodeUrl row.destinationUrl = row.destinationUrl) ∧
      (carriesGrant P now req row.id = false →
        hasPage (renderInterstitial req.shortCode none) = false) := by
  rw [documented_protected hrow hdead hhash, visitResult_protected h hrow hdead hhash hne]
  unfold FirstDecides
  rcases hfirst : (cookieValues req.cookie (cookieNameFor req.shortCode)).head? with _ | raw
  · -- no cookie of the name, hence no grant either
    rw [carriesGrant_none hfirst]
    simp only [Bool.false_eq_true, if_false, reduceCtorEq, false_implies, implies_true, true_and,
      true_implies, formAnswer_iff]
  · rcases hdec : decodeURIComponent raw with _ | value
    · simp only [hdec, Option.some.injEq, forall_eq', reduceCtorEq, exists_false, false_and,
        iff_false]
      split_ifs <;> exact Answer.ne_of_status (Nat.ne_of_beq_eq_false rfl)
    · simp only [hdec, Option.some.injEq, forall_eq', exists_eq', true_and]
      -- The value decodes, so the two differ only where a later cookie has the grant.
      by_cases hgrant : holdsGrant P now row.id raw = true
      · have hcarries := carriesGrant_first hfirst hgrant
        rw [if_pos hgrant, if_pos hcarries, Answer.redirect_inj]
        simp only [hgrant, hcarries, implies_true, true_implies, true_and, Bool.true_eq_false,
          false_implies, and_true]
      · rw [if_neg hgrant]
        by_cases hcarries : carriesGrant P now req row.id = true
        · rw [if_pos hcarries]
          simp only [hcarries, hgrant, true_implies, false_and, iff_false, Bool.false_eq_true]
          exact formAnswer_ne_redirect row.destinationUrl req.shortCode
        · rw [if_neg hcarries, formAnswer_iff]
          simp only [Bool.eq_false_of_not_eq_true hcarries, Bool.false_eq_true, false_implies,
            true_implies, true_and]

/-- On a live link with the empty hash, the handler redirects anybody. -/
theorem emptyHash_iff (h : textOk req.shortCode = true)
    (hrow : rowOf db req.shortCode = some row) (hdead : deadRow now row = false)
    (hhash : row.passwordHash = some "") :
    answerOf P hasPage (visitResult P now req db) = documented P now req db ↔
      carriesGrant P now req row.id = true ∧
        P.encodeUrl row.destinationUrl = row.destinationUrl := by
  have htruthy : truthy row.passwordHash = none := by
    rw [hhash]
    rfl
  rw [visitResult_open h hrow hdead htruthy, documented_protected hrow hdead hhash]
  rcases carriesGrant P now req row.id with _ | _
  · simp only [Bool.false_eq_true, if_false, false_and, iff_false]
    exact redirect_ne_interstitial _ _
  · simp only [if_true, true_and, Answer.redirect_inj]

theorem noHash_iff (h : textOk req.shortCode = true) (hrow : rowOf db req.shortCode = some row)
    (hdead : deadRow now row = false) (hhash : row.passwordHash = none) :
    answerOf P hasPage (visitResult P now req db) = documented P now req db ↔
      P.encodeUrl row.destinationUrl = row.destinationUrl := by
  have hdoc : documented P now req db = .redirect row.destinationUrl := by
    unfold documented
    simp only [hrow, hdead, hhash, Option.isSome_none, Bool.false_and, Bool.false_eq_true, if_false]
  have htruthy : truthy row.passwordHash = none := by
    rw [hhash]
    rfl
  rw [visitResult_open h hrow hdead htruthy, hdoc, Answer.redirect_inj]

/-- The answer of the handler is the documented one exactly if the request is
    answerable. -/
theorem visitResult_iff :
    answerOf P hasPage (visitResult P now req db) = documented P now req db ↔
      Answerable P hasPage now req db := by
  unfold Answerable
  by_cases htext : textOk req.shortCode = true
  · simp only [htext, true_and]
    rcases hrow : rowOf db req.shortCode with _ | row
    · have hdoc : documented P now req db = .notFound := by
        unfold documented
        rw [hrow]
      simp only [visitResult_noRow htext hrow, hdoc, reduceCtorEq, false_implies, implies_true]
    · simp only [Option.some.injEq, forall_eq']
      rcases hdead : deadRow now row with _ | _
      · simp only [true_implies]
        rcases hhash : row.passwordHash with _ | hash
        · rw [noHash_iff htext hrow hdead hhash]
          simp only [reduceCtorEq, false_implies, implies_true, true_or, true_implies, ne_eq,
            not_true_eq_false, and_true, true_and]
        · by_cases hempty : hash = ""
          · rw [hempty] at hhash ⊢
            rw [emptyHash_iff htext hrow hdead hhash]
            rcases carriesGrant P now req row.id with _ | _ <;> simp
          · rw [protected_iff htext hrow hdead hhash hempty]
            simp only [Option.some.injEq, hempty, false_implies, forall_eq', ne_eq,
              not_false_eq_true, true_implies, reduceCtorEq, false_or, true_and]
      · have hdoc : documented P now req db = .gone := by
          unfold documented
          simp only [hrow, hdead, if_true]
        simp only [visitResult_dead htext hrow hdead, hdoc, Bool.true_eq_false, false_implies]
  · rw [visitResult_notText htext]
    simp only [htext, Bool.false_eq_true, false_and, iff_false]
    exact fun heq => documented_ne_error heq.symm

end Parts

/-- For a code of the right length the route is the handler. -/
theorem visitRoute_wp {P : Platform} {tid : Nat} {w : World} {req : VisitRequest}
    {Post : Except Err Response → World → Prop} (hmin : 1 ≤ jsLength req.shortCode)
    (hmax : jsLength req.shortCode ≤ MAX_ALIAS_LENGTH)
    (hpost : (visit P req).wp (exec P tid) Post w) :
    (visitRoute P req.shortCode req.cookie req.referrer req.userAgent).wp (exec P tid) Post w := by
  refine Prog.wp_bind _ w (makeValidator_wp ?_)
  rw [validated_ok.mpr (accepts_shortCode hmin hmax w.now)]
  refine Prog.wp_bind _ w (parse_wp ?_)
  rw [parsed_ok.mpr (accepts_shortCode hmin hmax w.now)]
  exact hpost

/-- So what is said of the handler is said of the route. -/
theorem visitRoute_answers {P : Platform} {hasPage : String → Bool} {tid : Nat} {w : World}
    {req : VisitRequest} (hmin : 1 ≤ jsLength req.shortCode)
    (hmax : jsLength req.shortCode ≤ MAX_ALIAS_LENGTH)
    (hmiss : w.redis.get w.now (linkCacheKey req.shortCode) = none) {chs : List Choice}
    {r : Except Err Response} {v : World}
    (hrun : (visitRoute P req.shortCode req.cookie req.referrer req.userAgent).seqRun
      (exec P tid) chs w = some (r, v)) :
    answerOf P hasPage r = documented P w.now req w.db ↔ Answerable P hasPage w.now req w.db := by
  have hvisit : (visit P req).wp (exec P tid) (fun r _ => r = visitResult P w.now req w.db) w :=
    (Prog.wp_iff _ _).mpr (fun chs r v h => visit_run hmiss h)
  rw [(Prog.wp_iff _ _).mp (visitRoute_wp hmin hmax hvisit) chs r v hrun]
  exact visitResult_iff

/-- Every visit the cache does not answer ends, and ends with the documented
    answer exactly if the request is answerable, whatever Redis and the queue
    do meanwhile. -/
theorem visit_answers_iff (P : Platform) (hasPage : String → Bool) (tid : Nat) (w : World)
    (req : VisitRequest) (hmiss : w.redis.get w.now (linkCacheKey req.shortCode) = none) :
    (∃ chs r v, (visit P req).seqRun (exec P tid) chs w = some (r, v)) ∧
    ∀ chs r v, (visit P req).seqRun (exec P tid) chs w = some (r, v) →
      (answerOf P hasPage r = documented P w.now req w.db ↔
        Answerable P hasPage w.now req w.db) := by
  refine ⟨exists_visit_run P tid req w, fun chs r v hrun => ?_⟩
  rw [visit_run hmiss hrun]
  exact visitResult_iff

/-- A live link with a password, on the account `u`. -/
def protectedLink : LinkRow :=
  { id := "l", userId := "u", shortCode := "c", destinationUrl := "https://a.example/",
    passwordHash := some (sampleHash "p"), expiresAt := none, maxClicks := none, clickCount := 0,
    isActive := true, createdAt := 0, updatedAt := 0 }

def protectedWorld : World :=
  { ownerWorld with db := { ownerWorld.db with ids := ["l"], links := [protectedLink] } }

/-- A visit of the protected link with the given Cookie header. -/
def visitWith (cookie : Option String) : VisitRequest :=
  { shortCode := "c", cookie := cookie, referrer := none, userAgent := none }

theorem visit_answers_iff_cookieless :
    (∃ chs r v, (visit samplePlatform (visitWith none)).seqRun (exec samplePlatform 0) chs
      protectedWorld = some (r, v)) ∧
    ∀ chs r v, (visit samplePlatform (visitWith none)).seqRun (exec samplePlatform 0) chs
        protectedWorld = some (r, v) →
      (answerOf samplePlatform (fun _ => false) r
          = documented samplePlatform 0 (visitWith none) protectedWorld.db ↔
        Answerable samplePlatform (fun _ => false) 0 (visitWith none) protectedWorld.db) :=
  visit_answers_iff samplePlatform (fun _ => false) 0 protectedWorld (visitWith none) rfl

/-- A cookie of the link's name whose value is a lone percent sign: the reader
    throws, and a visitor who has no page gets neither the password form nor the
    redirect. -/
theorem visit_uriError : ¬ ∀ (P : Platform) (tid : Nat) (w : World) (req : VisitRequest),
    w.redis.get w.now (linkCacheKey req.shortCode) = none →
    ∀ chs r v, (visit P req).seqRun (exec P tid) chs w = some (r, v) →
      answerOf P (fun _ => false) r = documented P w.now req w.db := by
  intro hall
  rcases exists_visit_run samplePlatform 0 (visitWith (some "link_unlock_c=%"))
    protectedWorld with ⟨chs, r, v, hrun⟩
  have hanswer := hall samplePlatform 0 protectedWorld _ rfl chs r v hrun
  rw [visit_run rfl hrun] at hanswer
  exact absurd hanswer (by decide)

end ClickScope
