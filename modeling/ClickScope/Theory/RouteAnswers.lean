import ClickScope.Core.OpenApi
import ClickScope.Theory.Answers
import ClickScope.Theory.ValidatedRequests

/-!
# What the Routes Answer

The statuses each endpoint can end with, and what it sends otherwise.

The validation of a route hands on what the statements of its handler have to be
given. Behind the middleware every endpoint then sends a value of its own kind,
up to the standard, or throws an error with a status of its own list. The
database can fail in any handler that asks it for something, so 500 is in all
of these lists.

## Main definitions

* `Shown`: What an endpoint sends.
* `errorStatuses`: What it can fail with.

## Theorems

* `createInput_shown`, `updateInput_shown`: What the validation ensures.
* `postSignup_ends`, `postLink_ends`, ...: The handlers.
* `endpoint_meets`, `work_meets`: The endpoints, and all that the server does.
-/

namespace ClickScope

open Async Zod

section Inputs

variable {H : Host} {S : Standard H} {v out : JsValue}

theorem signupEmail_shown (h : ∃ t, Accepts (signupSchema H) t v out) :
    S.email (textField out "email") := by
  rcases h with ⟨t, h⟩
  exact S.email_checked _ (textField_checked (by simp) h List.mem_cons_self _
    List.mem_cons_self)

theorem idParam_shown (h : ∃ t, Accepts (idParamSchema H) t v out) :
    S.uuid (textField out "id") := by
  rcases h with ⟨t, h⟩
  exact S.uuid_checked _ (textField_checked (by simp) h List.mem_cons_self _ List.mem_cons_self)

theorem url_shown {t : Nat} (h : Accepts (destinationUrlSchema H) t v out) {s : String}
    (hs : textOf out = some s) : S.url s := by
  rcases accepts_string.mp (accepts_refine.mp h).1 with ⟨x, _, rfl, hchecks⟩
  rw [← Option.some.inj hs]
  exact S.url_checked x (runChecks_nil.mp hchecks _ List.mem_cons_self)

/-- A date was still to come when it was accepted. -/
theorem expiry_shown {t : Nat} (h : Accepts (futureDateSchema H) t v out) {d : Int}
    (hd : timeOf out = some d) : S.expiry d := by
  rcases accepts_futureDate.mp h with ⟨d', _, hlt, rfl⟩
  have heq : d' = d := Option.some.inj hd
  exact S.expiry_future d (by omega)

theorem createInput_shown (h : ∃ t, Accepts (createLinkSchema H) t v out) :
    (createInput out).Shown S := by
  rcases h with ⟨t, h⟩
  rcases accepts_object.mp h with ⟨fields, fields', rfl, rfl, _⟩
  have hfield : ∀ p ∈ createLinkShape H, Accepts p.2 t (get fields p.1) (get fields' p.1) :=
    fun p hp => (accepts_field (createLinkShape_nodup H) h hp).1
  have hurl := hfield ("destinationUrl", destinationUrlSchema H) (by simp [createLinkShape])
  have hdate := hfield ("expiresAt", Zod.optional (futureDateSchema H)) (by simp [createLinkShape])
  constructor
  · rcases accepts_url hurl with ⟨s, _, hs⟩
    simp only [createInput, textField, hs]
    exact url_shown hurl (by rw [hs]; rfl)
  · intro d hd
    rcases accepts_optional.mp hdate with ⟨_, hundef⟩ | ⟨_, hdate⟩
    · simp only [createInput, fieldOf, hundef, timeOf, reduceCtorEq] at hd
    · exact expiry_shown hdate hd

theorem updateInput_shown {body : JsValue} (h : ∃ t, Accepts (updateLinkSchema H) t v out) :
    (updateInput body out).Shown S := by
  rcases h with ⟨t, h⟩
  rcases accepts_object.mp h with ⟨fields, fields', rfl, rfl, _⟩
  have hfield : ∀ p ∈ updateLinkShape H, Accepts p.2 t (get fields p.1) (get fields' p.1) :=
    fun p hp => (accepts_field (updateLinkShape_nodup H) h hp).1
  have hurl := hfield ("destinationUrl", Zod.optional (destinationUrlSchema H))
    (by simp [updateLinkShape])
  have hdate := hfield ("expiresAt", Zod.optional (Zod.nullable (futureDateSchema H)))
    (by simp [updateLinkShape])
  constructor
  · intro url hsome
    rcases accepts_optional.mp hurl with ⟨_, hundef⟩ | ⟨_, hurl⟩
    · simp only [updateInput, fieldOf, hundef, textOf, reduceCtorEq] at hsome
    · exact url_shown hurl hsome
  · intro d hsome
    -- The value of a field that is present is the one that was parsed.
    have hd : timeOf (get fields' "expiresAt") = some d := by
      simp only [updateInput, presentIn, fieldOf] at hsome
      split_ifs at hsome
      exact Option.some.inj hsome
    rcases accepts_optional.mp hdate with ⟨_, hundef⟩ | ⟨_, hdate⟩
    · rw [hundef] at hd
      cases hd
    · rcases accepts_nullable.mp hdate with ⟨_, hnull⟩ | ⟨_, hdate⟩
      · rw [hnull] at hd
        cases hd
      · exact expiry_shown hdate hd

end Inputs

section Handlers

variable {H : Host}

/-- What the handler of an endpoint answers with, if it throws nothing. -/
inductive Shown (S : Standard H) : Endpoint → Sending → Prop
  | root : Shown S .root (.static .root)
  | health (database redis : Bool) (waiting : Except Unit Nat) :
      Shown S .health (.health (healthReport database redis waiting))
  | docs : Shown S .docs (.static .docs)
  | openapi : Shown S .openapi (.static .openapi)
  | signup (s : Session) (h : ShownUser S s.user) : Shown S .signup (.session 201 s)
  | login (s : Session) (h : ShownUser S s.user) : Shown S .login (.session 200 s)
  | googleStart (r : GoogleReply) : Shown S .googleStart (.google r)
  | googleCallback (r : GoogleReply) : Shown S .googleCallback (.google r)
  | me (user : AuthUser) (h : ShownUser S user) : Shown S .me (.account user)
  | createLink (link : Link) (h : ShownLink S link) :
      Shown S .createLink (.link { status := 201, body := .link link })
  | listLinks (page : LinkPage) (h : ∀ l ∈ page.links, ShownLink S l) :
      Shown S .listLinks (.link { status := 200, body := .page page })
  | getLink (id : String) (link : Link) (h : ShownLink S link) :
      Shown S (.getLink id) (.link { status := 200, body := .link link })
  | linkStats (id linkId : String) (days : Int) (stats : List LinkClickStats)
      (h : S.uuid linkId) : Shown S (.linkStats id) (.stats linkId days stats)
  | updateLink (id : String) (link : Link) (h : ShownLink S link) :
      Shown S (.updateLink id) (.link { status := 200, body := .link link })
  | deleteLink (id : String) : Shown S (.deleteLink id) .noContent
  | visit (shortCode : String) (r : Response) (h : VisitShown r) :
      Shown S (.visit shortCode) (.redirect r)
  | unlock (shortCode : String) (r : Response) (h : UnlockShown r) :
      Shown S (.unlock shortCode) (.redirect r)

variable {S : Standard H} {statuses : List Nat} {P : Platform}

theorem postSignup_ends (hsub : [400, 409, 500] ⊆ statuses) (body : JsValue) :
    Ends S statuses (Shown S .signup) (postSignup P H body) := by
  have h500 : 500 ∈ statuses := hsub (by decide)
  refine ends_bind (makeValidator_ends (hsub (by decide)) h500 body) fun validBody _ => ?_
  refine ends_bind (parse_ends h500 validBody) fun parsed hparsed => ?_
  have hrest : [409, 500] ⊆ statuses := fun s hs => hsub (List.mem_cons_of_mem _ hs)
  exact ends_bind (signup_ends hrest (signupEmail_shown hparsed) _) fun s hs =>
    Shown.signup s hs

theorem postLogin_ends (hsub : [400, 401, 500] ⊆ statuses) (body : JsValue) :
    Ends S statuses (Shown S .login) (postLogin P H body) := by
  have h500 : 500 ∈ statuses := hsub (by decide)
  refine ends_bind (makeValidator_ends (hsub (by decide)) h500 body) fun validBody _ => ?_
  refine ends_bind (parse_ends h500 validBody) fun parsed _ => ?_
  have hrest : [401, 500] ⊆ statuses := fun s hs => hsub (List.mem_cons_of_mem _ hs)
  exact ends_bind (login_ends hrest _ _) fun s hs => Shown.login s hs

theorem getGoogleCallback_ends (hsub : [400, 409, 500] ⊆ statuses) (browser : Nat)
    (query : JsValue) :
    Ends S statuses (Shown S .googleCallback) (getGoogleCallback P browser query) := by
  have h500 : 500 ∈ statuses := hsub (by decide)
  refine ends_bind (makeValidator_ends (hsub (by decide)) h500 query) fun validQuery _ => ?_
  refine ends_bind (parse_ends h500 validQuery) fun parsed _ => ?_
  exact ends_bind (googleCallback_ends hsub _) fun r _ => Shown.googleCallback r

theorem getMe_ends (hsub : [401, 500] ⊆ statuses) (userId : String) :
    Ends S statuses (Shown S .me) (getMe userId) := by
  refine ends_bind (getUserById_ends (hsub (by decide)) userId) fun user huser => ?_
  cases user with
  | none => exact hsub (by decide : 401 ∈ [401, 500])
  | some user => exact Shown.me user (huser user rfl)

theorem postLink_ends (hsub : [400, 409, 500] ⊆ statuses) (userId : String) (body : JsValue) :
    Ends S statuses (Shown S .createLink) (asLink (postLink H userId body)) := by
  have h500 : 500 ∈ statuses := hsub (by decide)
  have hrest : [409, 500] ⊆ statuses := fun s hs => hsub (List.mem_cons_of_mem _ hs)
  refine ends_bind (Q := fun r => Shown S .createLink (.link r)) ?_ fun r hr => hr
  refine ends_bind (makeValidator_ends (hsub (by decide)) h500 body) fun validBody _ => ?_
  refine ends_bind (parse_ends h500 validBody) fun parsed hparsed => ?_
  exact ends_bind (createLink_ends hrest (createInput_shown hparsed) userId) fun link hlink =>
    Shown.createLink link hlink

theorem getLinks_ends (hsub : [400, 500] ⊆ statuses) (countFirst : Bool) (userId : String)
    (rawQuery : JsValue) :
    Ends S statuses (Shown S .listLinks) (asLink (getLinks H countFirst userId rawQuery)) := by
  have h500 : 500 ∈ statuses := hsub (by decide)
  refine ends_bind (Q := fun r => Shown S .listLinks (.link r)) ?_ fun r hr => hr
  refine ends_bind (makeValidator_ends (hsub (by decide)) h500 rawQuery) fun validQuery _ => ?_
  refine ends_bind (parse_ends h500 validQuery) fun parsed _ => ?_
  exact ends_bind (listLinks_ends h500 countFirst userId _) fun result hresult =>
    Shown.listLinks (linkPage _ result) hresult

theorem getOneLink_ends (hsub : [400, 404, 500] ⊆ statuses) (userId id : String) :
    Ends S statuses (Shown S (.getLink id)) (getOneLink H userId id) := by
  have h500 : 500 ∈ statuses := hsub (by decide)
  refine ends_bind (makeValidator_ends (hsub (by decide)) h500 (idParams id)) fun params _ => ?_
  refine ends_bind (parse_ends h500 params) fun parsedParams _ => ?_
  refine ends_bind (getLink_ends h500 userId _) fun link hlink => ?_
  cases link with
  | none => exact hsub (by decide : 404 ∈ [400, 404, 500])
  | some link => exact Shown.getLink id link (hlink link rfl)

theorem getLinkStats_ends (hsub : [400, 404, 500] ⊆ statuses) (userId id : String)
    (query : JsValue) :
    Ends S statuses (Shown S (.linkStats id)) (getLinkStats H userId id query) := by
  have h400 : 400 ∈ statuses := hsub (by decide)
  have h500 : 500 ∈ statuses := hsub (by decide)
  refine ends_bind (makeValidator_ends h400 h500 (idParams id)) fun params _ => ?_
  refine ends_bind (makeValidator_ends h400 h500 query) fun validQuery _ => ?_
  refine ends_bind (parse_ends h500 params) fun parsedParams hparams => ?_
  refine ends_bind (parse_ends h500 validQuery) fun parsedQuery _ => ?_
  refine ends_bind (Q := fun _ => True) ⟨trivial, fun _ _ => trivial⟩ fun now _ => ?_
  refine ends_bind (getLinkClickStats_ends h500 userId _ _) fun stats _ => ?_
  cases stats with
  | none => exact hsub (by decide : 404 ∈ [400, 404, 500])
  | some stats => exact Shown.linkStats id _ _ stats (idParam_shown hparams)

theorem patchRoute_ends (hsub : [400, 404, 500] ⊆ statuses) (userId id : String) (body : JsValue) :
    Ends S statuses (Shown S (.updateLink id)) (asLink (patchLink H userId id body)) := by
  have h400 : 400 ∈ statuses := hsub (by decide)
  have h500 : 500 ∈ statuses := hsub (by decide)
  refine ends_bind (Q := fun r => Shown S (.updateLink id) (.link r)) ?_ fun r hr => hr
  refine ends_bind (makeValidator_ends h400 h500 (idParams id)) fun params _ => ?_
  refine ends_bind (makeValidator_ends h400 h500 body) fun validBody _ => ?_
  refine ends_bind (parse_ends h500 params) fun parsedParams _ => ?_
  refine ends_bind (parse_ends h500 validBody) fun parsed hparsed => ?_
  refine ends_bind (updateLink_ends h500 (updateInput_shown hparsed) userId _) fun link hlink => ?_
  cases link with
  | none => exact hsub (by decide : 404 ∈ [400, 404, 500])
  | some link => exact Shown.updateLink id link (hlink link rfl)

theorem deleteOneLink_ends (hsub : [400, 404, 500] ⊆ statuses) (userId id : String) :
    Ends S statuses (Shown S (.deleteLink id)) (deleteOneLink H userId id) := by
  have h500 : 500 ∈ statuses := hsub (by decide)
  refine ends_bind (makeValidator_ends (hsub (by decide)) h500 (idParams id)) fun params _ => ?_
  refine ends_bind (parse_ends h500 params) fun parsedParams _ => ?_
  refine ends_bind (deleteLink_ends h500 userId _) fun deleted _ => ?_
  cases deleted with
  | true => exact Shown.deleteLink id
  | false => exact hsub (by decide : 404 ∈ [400, 404, 500])

theorem visitRoute_ends (hsub : [400, 404, 410, 500] ⊆ statuses) (shortCode : String)
    (cookie referrer userAgent : Option String) :
    Ends S statuses (Shown S (.visit shortCode))
      (asRedirect (visitRoute P shortCode cookie referrer userAgent)) := by
  have h500 : 500 ∈ statuses := hsub (by decide)
  have hrest : [404, 410, 500] ⊆ statuses := fun s hs => hsub (List.mem_cons_of_mem _ hs)
  refine ends_bind (Q := fun r => Shown S (.visit shortCode) (.redirect r)) ?_ fun r hr => hr
  refine ends_bind (makeValidator_ends (hsub (by decide)) h500 _) fun params _ => ?_
  refine ends_bind (parse_ends h500 params) fun parsedParams _ => ?_
  exact ends_mono (fun s hs => hs) (fun r hr => Shown.visit shortCode r hr) (visit_ends hrest _)

theorem unlockRoute_ends (hsub : [400, 404, 410, 500] ⊆ statuses) (shortCode : String)
    (body : JsValue) :
    Ends S statuses (Shown S (.unlock shortCode)) (asRedirect (unlockRoute shortCode body)) := by
  have h400 : 400 ∈ statuses := hsub (by decide)
  have h500 : 500 ∈ statuses := hsub (by decide)
  have hrest : [404, 410, 500] ⊆ statuses := fun s hs => hsub (List.mem_cons_of_mem _ hs)
  refine ends_bind (Q := fun r => Shown S (.unlock shortCode) (.redirect r)) ?_ fun r hr => hr
  refine ends_bind (makeValidator_ends h400 h500 _) fun params _ => ?_
  refine ends_bind (makeValidator_ends h400 h500 body) fun validBody _ => ?_
  refine ends_bind (parse_ends h500 params) fun parsedParams _ => ?_
  refine ends_bind (parse_ends h500 validBody) fun parsedBody _ => ?_
  exact ends_mono (fun s hs => hs) (fun r hr => Shown.unlock shortCode r hr) (unlock_ends hrest _)

end Handlers

section Endpoints

variable {D : Deployment} {S : Standard D.H}

/-- The status of what is thrown. -/
def Thrown.status (err : Thrown) : Nat := (err.appError.map (·.statusCode)).getD 500

/-- The statuses the errors of an endpoint can have. -/
def errorStatuses : Endpoint → List Nat
  | .root | .health | .docs | .openapi | .googleStart | .undecodable => [500]
  | .signup => [400, 409, 429, 500]
  | .login => [400, 401, 429, 500]
  | .googleCallback => [400, 409, 500]
  | .me => [401, 500]
  | .createLink => [400, 401, 409, 429, 500]
  | .listLinks => [400, 401, 500]
  | .getLink _ | .linkStats _ | .updateLink _ | .deleteLink _ => [400, 401, 404, 500]
  | .visit _ => [400, 404, 410, 500]
  | .unlock _ => [400, 404, 410, 429, 500]
  | .notFound => [404, 500]

/-- Programs of the server, the same way. -/
def HttpEnds {α : Type} (S : Standard D.H) (statuses : List Nat) (Q : α → Prop) (x : Http α) :
    Prop :=
  x.Meets (agreedHttp S) (fun e => e.status ∈ statuses) Q

variable {α β : Type} {statuses : List Nat} {Q : α → Prop}

theorem answers_bind {Q' : β → Prop} {x : Http α} {f : α → Http β} (hx : HttpEnds S statuses Q x)
    (hf : ∀ a, Q a → HttpEnds S statuses Q' (f a)) : HttpEnds S statuses Q' (x.bind f) :=
  Prog.meets_bind hf x hx

theorem ofService_status (e : Err) : (ofService e).status = e.status := by
  cases e <;> rfl

theorem api_answers {x : Api α} (h : Ends S statuses Q x) : HttpEnds S statuses Q (api x) := by
  refine Prog.meets_embed ?_ ?_ ?_ x h
  · exact fun _ ha => ha
  · exact fun _ _ hr => hr
  · intro e he
    rw [ofService_status]
    exact he

theorem nobody_answers {x : Api α} (h : Ends S statuses Q x) :
    HttpEnds S statuses Q (nobody x) := by
  refine Prog.meets_embed ?_ ?_ ?_ x h
  · exact fun _ ha => ha
  · exact fun _ _ hr => hr
  · intro e he
    rw [ofService_status]
    exact he

theorem asOwner_answers {owner : Option String} {handler : String → Api α}
    (h : ∀ userId, Ends S statuses Q (handler userId)) :
    HttpEnds S statuses Q (asOwner owner handler) := by
  cases owner with
  | some userId => exact api_answers (h userId)
  | none => exact nobody_answers (h "")

theorem limiter_answers (h429 : 429 ∈ statuses) (l : Limiter) (key : String) :
    HttpEnds S statuses (fun _ => True) (limiter l key) := by
  refine ⟨trivial, fun r _ => ?_⟩
  cases r with
  | error e => trivial
  | ok w =>
      by_cases hover : l.max < w.count
      · simp only [if_pos hover]
        exact ⟨trivial, fun _ _ => h429⟩
      · simp only [if_neg hover]
        trivial

/-- The request brings a token that is accepted at some time. -/
def Bearing (D : Deployment) (req : Request) : Prop :=
  ∃ (now : Int) (token : String) (payload : JwtPayload),
    bearerToken req.authorization = some token ∧ verifyToken D.P now token = .ok payload

/-- The bearer check fails with 401 only. -/
theorem authenticated_answers (h401 : 401 ∈ statuses) {req : Request}
    {next : Option String → Http Sending} {Q : Sending → Prop}
    (h : ∀ owner, HttpEnds S statuses Q (next owner)) :
    HttpEnds S statuses (fun sending => Q sending ∧ Bearing D req) (authenticated D req next) := by
  refine answers_bind (Q := fun _ => Bearing D req) ?_ fun sub hbears => ?_
  · refine answers_bind (Q := fun _ => True) ⟨trivial, fun _ _ => trivial⟩ fun now _ => ?_
    unfold requireAuth
    rcases hbearer : bearerToken req.authorization with _ | token
    · exact h401
    · rcases hv : verifyToken D.P (seconds now) token with e | payload
      · simp only [hv]
        exact h401
      · simp only [hv]
        exact ⟨seconds now, token, payload, hbearer, hv⟩
  · exact Prog.meets_mono (fun _ he => he) (fun _ hs => ⟨hs, hbears⟩) _ (h (ownerOf D sub))

/-- What an endpoint sends, and to whom. -/
def Served (S : Standard D.H) (req : Request) (e : Endpoint) (sending : Sending) : Prop :=
  Shown S e sending ∧ (needsToken e = true → Bearing D req)

/-- An endpoint that anybody may ask. -/
theorem open_answers {req : Request} {e : Endpoint} (hopen : needsToken e = false)
    {x : Http Sending} (h : HttpEnds S statuses (Shown S e) x) :
    HttpEnds S statuses (Served S req e) x := by
  refine Prog.meets_mono (fun _ he => he) (fun sending hs => ⟨hs, fun hneeds => ?_⟩) x h
  rw [hopen] at hneeds
  cases hneeds

theorem closed_answers (h401 : 401 ∈ statuses) {req : Request} {e : Endpoint}
    {next : Option String → Http Sending}
    (h : ∀ owner, HttpEnds S statuses (Shown S e) (next owner)) :
    HttpEnds S statuses (Served S req e) (authenticated D req next) :=
  Prog.meets_mono (fun _ he => he) (fun _ hs => ⟨hs.1, fun _ => hs.2⟩) _
    (authenticated_answers h401 h)

/-- Each endpoint throws an error with one of its statuses, or sends what it
    should. -/
theorem endpoint_meets (S : Standard D.H) (req : Request) (body : JsValue) (e : Endpoint) :
    HttpEnds S (errorStatuses e) (Served S req e) (endpointProgram D req body e) := by
  cases e with
  | root => exact open_answers rfl Shown.root
  | health =>
      refine open_answers rfl ⟨trivial, fun database _ => ⟨trivial, fun redis _ =>
        ⟨trivial, fun waiting _ => ?_⟩⟩⟩
      exact Shown.health database redis waiting
  | docs => exact open_answers rfl Shown.docs
  | openapi => exact open_answers rfl Shown.openapi
  | signup =>
      exact open_answers rfl (answers_bind (limiter_answers (by decide) _ _) fun _ _ =>
        api_answers (postSignup_ends (by decide) body))
  | login =>
      exact open_answers rfl (answers_bind (limiter_answers (by decide) _ _) fun _ _ =>
        api_answers (postLogin_ends (by decide) body))
  | googleStart =>
      exact open_answers rfl (api_answers (ends_bind (googleStart_ends (by decide)) fun r _ =>
        Shown.googleStart r))
  | googleCallback =>
      exact open_answers rfl (api_answers (getGoogleCallback_ends (by decide) _ _))
  | me =>
      unfold endpointProgram
      exact closed_answers (by decide) fun owner =>
        asOwner_answers fun userId => getMe_ends (by decide) userId
  | createLink =>
      unfold endpointProgram
      refine closed_answers (by decide) fun owner => ?_
      exact answers_bind (limiter_answers (by decide) _ _) fun _ _ =>
        asOwner_answers fun userId => postLink_ends (by decide) userId body
  | listLinks =>
      unfold endpointProgram
      exact closed_answers (by decide) fun owner =>
        asOwner_answers fun userId => getLinks_ends (by decide) _ userId _
  | getLink id =>
      change HttpEnds S [400, 401, 404, 500] _ (endpointProgram D req body (.getLink id))
      unfold endpointProgram
      exact closed_answers (by decide) fun owner =>
        asOwner_answers fun userId => getOneLink_ends (by decide) userId id
  | linkStats id =>
      change HttpEnds S [400, 401, 404, 500] _ (endpointProgram D req body (.linkStats id))
      unfold endpointProgram
      exact closed_answers (by decide) fun owner =>
        asOwner_answers fun userId => getLinkStats_ends (by decide) userId id _
  | updateLink id =>
      change HttpEnds S [400, 401, 404, 500] _ (endpointProgram D req body (.updateLink id))
      unfold endpointProgram
      exact closed_answers (by decide) fun owner =>
        asOwner_answers fun userId => patchRoute_ends (by decide) userId id body
  | deleteLink id =>
      change HttpEnds S [400, 401, 404, 500] _ (endpointProgram D req body (.deleteLink id))
      unfold endpointProgram
      exact closed_answers (by decide) fun owner =>
        asOwner_answers fun userId => deleteOneLink_ends (by decide) userId id
  | visit shortCode =>
      change HttpEnds S [400, 404, 410, 500] _ _
      exact open_answers rfl (api_answers (visitRoute_ends (by decide) shortCode _ _ _))
  | unlock shortCode =>
      change HttpEnds S [400, 404, 410, 429, 500] _ _
      exact open_answers rfl (answers_bind (limiter_answers (by decide) _ _) fun _ _ =>
        api_answers (unlockRoute_ends (by decide) shortCode body))
  | undecodable => exact List.mem_cons_self
  | notFound => exact List.mem_cons_self

end Endpoints

section Work

variable {D : Deployment} {α : Type}

/-- The endpoint of a request. -/
def Request.endpoint (req : Request) : Endpoint :=
  dispatch (methodOf req.incoming.method) req.incoming.path

theorem errorStatuses_500 (e : Endpoint) : 500 ∈ errorStatuses e := by
  cases e <;> simp [errorStatuses]

/-- What a piece of work throws, and what it ends with. Of the jobs and of
    preflight requests nothing is said. -/
def WorkThrows : Work → Thrown → Prop
  | .request req, err =>
      corsMiddleware req.incoming = none → err.status ∈ errorStatuses req.endpoint
  | _, _ => True

def WorkSends (S : Standard D.H) : Work → Sending → Prop
  | .request req, sending =>
      corsMiddleware req.incoming = none → Served S req req.endpoint sending
  | _, _ => True

/-- The worker asks for nothing that has to be up to the standard. -/
theorem workerOp_asked (S : Standard D.H) {data : ClickJobData} {op : Op}
    (h : workerOp data op) : asksOp S op := by
  cases op with
  | db s => cases s <;> trivial
  | _ => trivial

/-- A job ends somehow. -/
theorem job_answers (S : Standard D.H) {x : Api α} {p : Op → Prop} (hx : x.Only p)
    (hp : ∀ op, p op → asksOp S op) :
    ((api x).bind (fun _ => .ret .noContent) : Http Sending).Meets (agreedHttp S)
      (fun _ => True) (fun _ => True) := by
  refine Prog.meets_bind (P := fun _ => True) (fun _ _ => by trivial) _ ?_
  refine Prog.meets_embed (A := agreed S) (E := fun _ => True) ?_ ?_ ?_ x
    (Prog.meets_only hp (fun _ => trivial) (fun _ => trivial) x hx)
  · exact fun _ ha => ha
  · exact fun _ _ hr => hr
  · exact fun _ _ => trivial

theorem work_meets (S : Standard D.H) (call : Work) :
    (work D call).Meets (agreedHttp S) (WorkThrows call) (WorkSends S call) := by
  cases call with
  | request req =>
      show (handle D req).Meets _ _ _
      unfold handle
      rcases hcors : corsMiddleware req.incoming with _ | sent
      · rcases hjson : D.F.json req.incoming.contentType req.incoming.body with e | body
        · exact fun _ => errorStatuses_500 _
        · exact Prog.meets_mono (fun _ he _ => he) (fun _ ha _ => ha) _
            (endpoint_meets S req body _)
      · simp only
        intro hnone
        rw [hcors] at hnone
        cases hnone
  | clickJob data =>
      exact job_answers S (processClickJob_only data) fun _ => workerOp_asked S
  | cleanupJob =>
      exact job_answers S (query_only (asksOp S) .sweepExpired trivial)
        fun _ h => h

end Work

end ClickScope
