import ClickScope.Theory.Handlers
import ClickScope.Theory.Standards
import ClickScope.Theory.Validation

/-!
# What the Service Ends With

The status and the data each function of the service ends with.

A function is judged by the agreement on operations alone: whatever the
statements answer, what it throws has one of a few statuses, and what it returns
is up to the standard. Only an insert and an update have to be given what is up
to it, and there it is the validation that says so. An error that is no
`AppError` has the status 500, so that every function that asks the database
for anything may end with it.

## Main definitions

* `Err.status`: The status of an error.
* `Ends`: What a program of the service ends with.

## Theorems

* `makeValidator_ends`, `parse_ends`: Validation.
* `signup_ends`, `login_ends`, `createLink_ends`, ...: The service.
-/

namespace ClickScope

open Async Zod

/-- What the error handler makes of an error: the status of an `AppError`, or
    500. -/
def Err.status : Err → Nat
  | .app e => e.statusCode
  | _ => 500

section Programs

variable {H : Host} {α β : Type}

/-- As long as operations are answered as agreed, the program asks for what is
    agreed, and throws an error with one of the statuses or returns what
    satisfies `Q`. -/
def Ends (S : Standard H) (statuses : List Nat) (Q : α → Prop) (x : Api α) : Prop :=
  x.Meets (agreed S) (fun e => e.status ∈ statuses) Q

variable {S : Standard H} {statuses more : List Nat} {Q R : α → Prop}

theorem ends_mono (hsub : statuses ⊆ more) (hQ : ∀ a, Q a → R a) {x : Api α}
    (h : Ends S statuses Q x) : Ends S more R x :=
  Prog.meets_mono (fun _ he => hsub he) hQ x h

theorem ends_bind {Q' : β → Prop} {x : Api α} {f : α → Api β} (hx : Ends S statuses Q x)
    (hf : ∀ a, Q a → Ends S statuses Q' (f a)) : Ends S statuses Q' (x.bind f) :=
  Prog.meets_bind hf x hx

theorem query_ends (h500 : 500 ∈ statuses) {s : Stmt} (hasks : asksStmt S s) :
    Ends S statuses (rowsShown S s) (query s) := by
  refine ⟨hasks, fun r hr => ?_⟩
  cases r with
  | ok rows => exact hr rows rfl
  | error e => exact h500

theorem redis_ends (h500 : 500 ∈ statuses) (c : RedisCmd) :
    Ends S statuses (fun _ => True) (redis c) := by
  refine ⟨trivial, fun r _ => ?_⟩
  cases r with
  | ok reply => trivial
  | error e => exact h500

theorem makeValidator_ends (h400 : 400 ∈ statuses) (h500 : 500 ∈ statuses) {schema : Schema}
    {target : ValidationTarget} (raw : JsValue) :
    Ends S statuses (fun data => ∃ t, Accepts schema t raw data)
      (makeValidator schema target raw) := by
  refine ⟨trivial, fun now _ => ?_⟩
  rcases hv : validated schema target now raw with e | data
  · simp only [Prog.ret_bind, hv]
    exact validated_error (·.status ∈ statuses) (fun _ => h400) h500 hv
  · simp only [Prog.ret_bind, hv]
    exact ⟨now, validated_ok.mp hv⟩

theorem parse_ends (h500 : 500 ∈ statuses) {schema : Schema} (data : JsValue) :
    Ends S statuses (fun out => ∃ t, Accepts schema t data out) (parse schema data) := by
  refine ⟨trivial, fun now _ => ?_⟩
  rcases hp : parsed schema now data with e | out
  · simp only [Prog.ret_bind, hp]
    exact parsed_error (·.status ∈ statuses) (fun _ => h500) h500 hp
  · simp only [Prog.ret_bind, hp]
    exact ⟨now, parsed_ok.mp hp⟩

end Programs

section Accounts

variable {H : Host} {S : Standard H} {statuses : List Nat} {P : Platform}

theorem sessionFor_ends {row : UserRow} (h : ShownUser S (toAuthUser row)) :
    Ends S statuses (fun s => ShownUser S s.user) (sessionFor P row) :=
  ⟨trivial, fun _ _ => h⟩

theorem head_of {α : Type} {p : α → Prop} {rows : List α} (h : ∀ a ∈ rows, p a) {a : α}
    (ha : rows.head? = some a) : p a :=
  h a (List.mem_of_mem_head? ha)

theorem insertAccount_ends (h500 : 500 ∈ statuses) {u : NewUser} (hemail : S.email u.email) :
    Ends S statuses (fun row => ShownUser S (toAuthUser row)) (insertAccount u) := by
  refine ends_bind (query_ends h500 hemail) fun rows hrows => ?_
  rcases hrow : rows.head? with _ | row
  · exact h500
  · exact head_of hrows hrow

/-- An insert whose unique violation is answered by a handler of its own. -/
theorem inserted_ends (h500 : 500 ∈ statuses) {u : NewUser} (hemail : S.email u.email)
    {handler : Err → Api UserRow}
    (hcaught : ∀ err, err.status ∈ statuses →
      Ends S statuses (fun row => ShownUser S (toAuthUser row)) (handler err)) :
    Ends S statuses (fun s => ShownUser S s.user)
      (((insertAccount u).tryCatch handler).bind (sessionFor P)) :=
  ends_bind (Prog.meets_tryCatch hcaught _ (insertAccount_ends h500 hemail))
    fun _ hrow => sessionFor_ends hrow

theorem signup_ends (hsub : [409, 500] ⊆ statuses) {email : String} (hemail : S.email email)
    (password : String) :
    Ends S statuses (fun s => ShownUser S s.user) (signup P email password) := by
  have h500 : 500 ∈ statuses := hsub (by decide)
  refine ends_bind (query_ends h500 trivial) fun existing _ => ?_
  rcases existing.head? with _ | id
  · refine ends_bind (Q := fun _ => True) ⟨trivial, fun _ _ => trivial⟩ fun hash _ => ?_
    refine inserted_ends h500 hemail fun err herr => ?_
    cases err.isUniqueViolation with
    | true => exact hsub (by decide : 409 ∈ [409, 500])
    | false => exact herr
  · exact hsub (by decide : 409 ∈ [409, 500])

theorem login_ends (hsub : [401, 500] ⊆ statuses) (email password : String) :
    Ends S statuses (fun s => ShownUser S s.user) (login P email password) := by
  have h401 : 401 ∈ statuses := hsub (by decide)
  refine ends_bind (query_ends (hsub (by decide)) trivial) fun rows hrows => ?_
  -- An unknown email and an account without a password end alike, after a compare.
  have hfail : Ends S statuses (fun s : Session => ShownUser S s.user)
      (Prog.bind (verifyAgainstDummyHash P password)
        (fun _ => .throw (.app (unauthorized INVALID_CREDENTIALS_MESSAGE)))) :=
    ⟨trivial, fun _ _ => h401⟩
  rcases hrow : rows.head? with _ | row
  · exact hfail
  · rcases h : row.passwordHash with _ | hash
    · simp only [h]
      exact hfail
    · simp only [h]
      refine ends_bind (Q := fun _ => True) ⟨trivial, fun _ _ => trivial⟩ fun ok _ => ?_
      cases ok with
      | true => exact sessionFor_ends (head_of hrows hrow)
      | false => exact h401

theorem createOAuthUser_ends (hsub : [409, 500] ⊆ statuses) (provider oauthId : String)
    {email : String} (hemail : S.email email) (emailVerified : Bool) :
    Ends S statuses (fun s => ShownUser S s.user)
      (createOAuthUser P provider oauthId email emailVerified) := by
  have h500 : 500 ∈ statuses := hsub (by decide)
  have h409 : 409 ∈ statuses := hsub (by decide)
  refine ends_bind (query_ends h500 trivial) fun existing _ => ?_
  rcases existing.head? with _ | id
  · refine inserted_ends h500 hemail fun err herr => ?_
    unfold recoverInsert
    cases err.isUniqueViolation with
    | false => exact herr
    -- another login inserted first, and its row is read
    | true =>
        refine ends_bind (query_ends h500 trivial) fun retry hretry => ?_
        rcases hrow : retry.head? with _ | row
        · exact h409
        · exact head_of hretry hrow
  · exact h409

theorem findOrCreateOAuthUser_ends (hsub : [400, 409, 500] ⊆ statuses) (provider oauthId : String)
    {email : String} (hemail : S.email email) (emailVerified : Bool) :
    Ends S statuses (fun s => ShownUser S s.user)
      (findOrCreateOAuthUser P provider oauthId email emailVerified) := by
  unfold findOrCreateOAuthUser
  cases emailVerified with
  | false => exact hsub (by decide : 400 ∈ [400, 409, 500])
  | true =>
      refine ends_bind (query_ends (hsub (by decide)) trivial) fun existing hexisting => ?_
      rcases hrow : existing.head? with _ | row
      · exact createOAuthUser_ends (fun s hs => hsub (List.mem_cons_of_mem _ hs)) _ _ hemail _
      · exact sessionFor_ends (head_of hexisting hrow)

theorem getUserById_ends (h500 : 500 ∈ statuses) (id : String) :
    Ends S statuses (fun user => ∀ u ∈ user, ShownUser S u) (getUserById id) := by
  refine ends_bind (query_ends h500 trivial) fun rows hrows => ?_
  rintro u hu
  rcases Option.map_eq_some_iff.mp hu with ⟨row, hrow, rfl⟩
  exact head_of hrows hrow

/-- The email of an identity is the one Google gave. -/
theorem exchangeCodeForIdentity_ends (hsub : [400, 500] ⊆ statuses) (code : String) :
    Ends S statuses (fun identity => S.email identity.email) (exchangeCodeForIdentity code) := by
  have h400 : 400 ∈ statuses := hsub (by decide)
  have h500 : 500 ∈ statuses := hsub (by decide)
  refine ends_bind (Q := fun _ => True) ⟨trivial, fun r _ => ?_⟩ fun idToken _ => ?_
  · cases r with
    | ok idToken => trivial
    | error e => exact h500
  rcases truthy idToken with _ | token
  · exact h400
  refine ends_bind (Q := fun payload => ∀ p e, payload = some p → p.email = some e → S.email e)
    ⟨trivial, fun r hr => ?_⟩ fun payload hpayload => ?_
  · cases r with
    | ok payload => exact fun p e hp he => hr p e (congrArg Except.ok hp) he
    | error e => exact h500
  rcases hidentity : identityOf payload with _ | identity
  · exact h400
  unfold identityOf at hidentity
  split at hidentity
  · cases hidentity
  · rename_i p
    split at hidentity
    · rename_i sub email _ hemail
      rw [← Option.some.inj hidentity]
      exact hpayload p email rfl (truthy_some hemail)
    · cases hidentity

theorem googleStart_ends (h500 : 500 ∈ statuses) :
    Ends S statuses (fun _ => True) googleStart := by
  refine ends_bind (Q := fun _ => True) ⟨trivial, fun _ _ => trivial⟩ fun state _ => ?_
  exact ends_bind (redis_ends h500 _) fun _ _ => trivial

theorem googleCallback_ends (hsub : [400, 409, 500] ⊆ statuses) (req : GoogleRequest) :
    Ends S statuses (fun _ => True) (googleCallback P req) := by
  have h400 : 400 ∈ statuses := hsub (by decide)
  have h500 : 500 ∈ statuses := hsub (by decide)
  refine ends_bind (Q := fun _ => True)
    (ends_bind (redis_ends h500 _) fun _ _ => trivial) fun valid _ => ?_
  cases valid with
  | false => exact h400
  | true =>
      show Ends S statuses _ (acceptCallback P req)
      unfold acceptCallback
      rcases truthy req.error with _ | error
      · rcases truthy req.code with _ | code
        · exact h400
        · have hidentity : [400, 500] ⊆ statuses := fun s hs => hsub (by
            rcases List.mem_pair.mp hs with rfl | rfl <;> decide)
          refine ends_bind (exchangeCodeForIdentity_ends hidentity code) fun identity hemail => ?_
          exact ends_bind (findOrCreateOAuthUser_ends hsub _ _ hemail _) fun _ _ => trivial
      · trivial

end Accounts

section Links

variable {H : Host} {S : Standard H} {statuses : List Nat}

/-- The failure of the command is swallowed. -/
theorem invalidateLinkCache_ends (shortCode : String) :
    Ends S statuses (fun _ => True) (invalidateLinkCache shortCode) :=
  Prog.meets_tryCatch (fun _ _ => by trivial) _
    (redis_ends (List.mem_cons_self : 500 ∈ [500]) (.del (linkCacheKey shortCode)))

/-- What a creation has to be given. -/
structure CreateLinkInput.Shown (S : Standard H) (input : CreateLinkInput) : Prop where
  destinationUrl : S.url input.destinationUrl
  expiresAt : ∀ t, input.expiresAt = some t → S.expiry t

theorem insertLink_ends (h500 : 500 ∈ statuses) {input : CreateLinkInput} (hinput : input.Shown S)
    (userId shortCode : String) (passwordHash : Option String) :
    Ends S statuses (fun row => ∀ l ∈ row, ShownLink S (toLink l))
      (insertLink userId shortCode input passwordHash) := by
  refine Prog.meets_tryCatch (E := fun e => e.status ∈ statuses) (fun err herr => ?_) _ ?_
  · cases err.isUniqueViolation with
    | true => exact fun l hl => by cases hl
    | false => exact herr
  · refine ends_bind (query_ends h500 ⟨hinput.destinationUrl, hinput.expiresAt⟩)
      fun rows hrows => ?_
    rcases hrow : rows.head? with _ | row
    · exact h500
    · intro l hl
      rw [← Option.some.inj hl]
      exact head_of hrows hrow

theorem createGenerated_ends (h500 : 500 ∈ statuses) {input : CreateLinkInput}
    (hinput : input.Shown S) (userId : String) (passwordHash : Option String) (attempts : Nat) :
    Ends S statuses (ShownLink S) (createGenerated userId input passwordHash attempts) := by
  induction attempts with
  | zero => exact h500
  | succ n ih =>
      refine ends_bind (Q := fun _ => True) ⟨trivial, fun _ _ => trivial⟩ fun code _ => ?_
      refine ends_bind (insertLink_ends h500 hinput userId code passwordHash) fun row hrow => ?_
      cases row with
      | some row => exact hrow row rfl
      | none => exact ih

theorem createAliased_ends (hsub : [409, 500] ⊆ statuses) {input : CreateLinkInput}
    (hinput : input.Shown S) (userId customAlias : String) (passwordHash : Option String) :
    Ends S statuses (ShownLink S) (createAliased userId customAlias input passwordHash) := by
  have h500 : 500 ∈ statuses := hsub (by decide)
  have h409 : 409 ∈ statuses := hsub (by decide)
  refine ends_bind (query_ends h500 trivial) fun existing _ => ?_
  rcases existing.head? with _ | id
  · refine ends_bind (insertLink_ends h500 hinput _ _ _) fun row hrow => ?_
    cases row with
    | none => exact h409
    | some row => exact ends_bind (invalidateLinkCache_ends _) fun _ _ => hrow row rfl
  · exact h409

theorem createLink_ends (hsub : [409, 500] ⊆ statuses) {input : CreateLinkInput}
    (hinput : input.Shown S) (userId : String) :
    Ends S statuses (ShownLink S) (createLink userId input) := by
  have hhash : Ends S statuses (fun _ => True) (hashGiven (truthy input.password)) := by
    cases truthy input.password with
    | none => trivial
    | some plain => exact ⟨trivial, fun _ _ => trivial⟩
  refine ends_bind hhash fun hash _ => ?_
  rcases truthy input.customAlias with _ | customAlias
  · exact createGenerated_ends (hsub (by decide)) hinput _ _ _
  · exact createAliased_ends hsub hinput _ _ _

theorem listLinks_ends (h500 : 500 ∈ statuses) (countFirst : Bool) (userId : String)
    (options : ListLinksOptions) :
    Ends S statuses (fun result => ∀ l ∈ result.links, ShownLink S l)
      (listLinks countFirst userId options) := by
  have hrows : ∀ rows : List LinkRow, (∀ l ∈ rows, ShownLink S (toLink l)) →
      ∀ l ∈ rows.map toLink, ShownLink S l := by
    rintro rows h l hl
    rcases List.mem_map.mp hl with ⟨row, hrow, rfl⟩
    exact h row hrow
  cases countFirst with
  | true =>
      refine ends_bind (query_ends (s := .countLinks userId) h500 trivial) fun total _ => ?_
      exact ends_bind (query_ends (s := .listLinks userId _ _) h500 trivial) fun rows h =>
        hrows rows h
  | false =>
      refine ends_bind (query_ends (s := .listLinks userId _ _) h500 trivial) fun rows h => ?_
      exact ends_bind (query_ends (s := .countLinks userId) h500 trivial) fun _ _ => hrows rows h

theorem getLink_ends (h500 : 500 ∈ statuses) (userId linkId : String) :
    Ends S statuses (fun link => ∀ l ∈ link, ShownLink S l) (getLink userId linkId) := by
  refine ends_bind (query_ends h500 trivial) fun rows hrows => ?_
  rintro l hl
  rcases Option.map_eq_some_iff.mp hl with ⟨row, hrow, rfl⟩
  exact head_of hrows hrow

/-- What an update has to be given. -/
structure UpdateLinkInput.Shown (S : Standard H) (input : UpdateLinkInput) : Prop where
  destinationUrl : ∀ url, input.destinationUrl = some url → S.url url
  expiresAt : ∀ t, input.expiresAt = some (some t) → S.expiry t

theorem patched_shown {now : Nat} {input : UpdateLinkInput} (hinput : input.Shown S)
    (hnow : S.instant now) (passwordHash : Option (Option String)) {row : LinkRow}
    (h : ShownLink S (toLink row)) :
    ShownLink S (toLink (patched now input passwordHash row)) := by
  refine ⟨h.id, h.userId, ?_, fun t ht => ?_, h.createdAt, hnow⟩
  · show S.url (input.destinationUrl.getD row.destinationUrl)
    rcases hurl : input.destinationUrl with _ | url
    · exact h.destinationUrl
    · exact hinput.destinationUrl url hurl
  · change input.expiresAt.getD row.expiresAt = some t at ht
    rcases hexp : input.expiresAt with _ | expiresAt
    · rw [hexp] at ht
      exact h.expiresAt t ht
    · rw [hexp] at ht
      exact hinput.expiresAt t (hexp.trans (congrArg some ht))

theorem updateLink_ends (h500 : 500 ∈ statuses) {input : UpdateLinkInput} (hinput : input.Shown S)
    (userId linkId : String) :
    Ends S statuses (fun link => ∀ l ∈ link, ShownLink S l) (updateLink userId linkId input) := by
  have hhash : Ends S statuses (fun _ => True) (hashField input.password) := by
    rcases input.password with _ | _ | plain
    · trivial
    · trivial
    · exact ⟨trivial, fun _ _ => trivial⟩
  refine ends_bind hhash fun hash _ => ?_
  show Ends S statuses _ (sendUpdate userId linkId (setListOf input hash))
  unfold sendUpdate
  by_cases hempty : (setListOf input hash).setClauses.length = 0
  · rw [if_pos hempty]
    exact getLink_ends h500 userId linkId
  · rw [if_neg hempty]
    -- The assembled statement computes the patched row.
    have hasks : asksStmt S (.updateLink ((setListOf input hash).setClauses ++ [.updatedAtNow])
        (((setListOf input hash).values ++ [SqlValue.uuid linkId, .account userId]).length - 1)
        ((setListOf input hash).values ++ [SqlValue.uuid linkId, .account userId]).length
        ((setListOf input hash).values ++ [.uuid linkId, .account userId])) := by
      intro now row row' hnow hrow hset
      rw [applySet_setListOf, Except.ok.injEq] at hset
      rw [← hset]
      exact patched_shown hinput hnow hash hrow
    refine ends_bind (query_ends h500 hasks) fun rows hrows => ?_
    rcases hrow : rows.head? with _ | row
    · exact fun l hl => by cases hl
    · refine ends_bind (invalidateLinkCache_ends _) fun _ _ l hl => ?_
      rw [← Option.some.inj hl]
      exact head_of hrows hrow

theorem deleteLink_ends (h500 : 500 ∈ statuses) (userId linkId : String) :
    Ends S statuses (fun _ => True) (deleteLink userId linkId) := by
  refine ends_bind (query_ends h500 trivial) fun rows _ => ?_
  rcases rows.head? with _ | ⟨id, code⟩
  · trivial
  · exact ends_bind (invalidateLinkCache_ends _) fun _ _ => trivial

theorem getLinkClickStats_ends (h500 : 500 ∈ statuses) (userId linkId : String)
    (sinceDate : Int) :
    Ends S statuses (fun _ => True) (getLinkClickStats userId linkId sinceDate) := by
  refine ends_bind (getLink_ends h500 userId linkId) fun link _ => ?_
  cases link with
  | none => trivial
  | some _ => exact ends_bind (query_ends h500 trivial) fun _ _ => trivial

end Links

section Redirects

variable {H : Host} {S : Standard H} {statuses : List Nat} {P : Platform}

/-- A link that is not there or dead is an error of its own. -/
theorem liveLink_ends (hsub : [404, 410, 500] ⊆ statuses) (shortCode : String) :
    Ends S statuses (fun _ => True) (liveLink shortCode) := by
  refine Prog.meets_throws (p := asksOp S) (fun _ h => h) (fun _ => trivial) _
    (liveLink_only shortCode (fun op hop => ?_) trivial)
    (liveLink_throws (fun _ => hsub (by decide : 500 ∈ [404, 410, 500])) (fun e he => ?_) shortCode)
  · cases op with
    | db s => cases s <;> trivial
    | _ => trivial
  · show e.statusCode ∈ statuses
    rcases he with he | he
    · exact hsub (by rw [he]; decide)
    · exact hsub (by rw [he]; decide)

/-- A visit is answered with the form or with a redirect. -/
inductive VisitShown : Response → Prop
  | redirect (location : String) (cookie : Option UnlockCookie) :
      VisitShown (.redirect location cookie)
  | html (body : String) : VisitShown (.html 200 body)

/-- Unlocking a link is answered with a redirect, or with the form again. -/
inductive UnlockShown : Response → Prop
  | redirect (location : String) (cookie : Option UnlockCookie) :
      UnlockShown (.redirect location cookie)
  | html (body : String) : UnlockShown (.html 401 body)

theorem recordAndRedirect_ends (req : VisitRequest) (link : RedirectLink) :
    Ends S statuses VisitShown (recordAndRedirect req link) := by
  refine ends_bind (Q := fun _ => True) ⟨trivial, fun _ _ => trivial⟩ fun clickId _ => ?_
  have hclick : Ends S statuses (fun _ => True)
      (enqueueClick
        { clickId := clickId, linkId := link.id, shortCode := req.shortCode,
          referrer := req.referrer, userAgent := req.userAgent }) := by
    refine Prog.meets_tryCatch (E := fun _ => True) (fun _ _ => by trivial) _
      ⟨trivial, fun r _ => ?_⟩
    cases r <;> trivial
  exact ends_bind hclick fun _ _ => VisitShown.redirect _ _

theorem visit_ends (hsub : [404, 410, 500] ⊆ statuses) (req : VisitRequest) :
    Ends S statuses VisitShown (visit P req) := by
  refine ends_bind (liveLink_ends hsub req.shortCode) fun link _ => ?_
  rcases truthy link.passwordHash with _ | hash
  · exact recordAndRedirect_ends req link
  · refine ends_bind (Q := fun _ => True) ⟨trivial, fun _ _ => trivial⟩ fun now _ => ?_
    rcases hopen : unlocked P now req link with e | _ | _
    · rw [unlocked_error hopen]
      exact hsub (by decide : 500 ∈ [404, 410, 500])
    · exact VisitShown.html _
    · exact recordAndRedirect_ends req link

theorem unlock_ends (hsub : [404, 410, 500] ⊆ statuses) (req : UnlockRequest) :
    Ends S statuses UnlockShown (unlock req) := by
  refine ends_bind (liveLink_ends hsub req.shortCode) fun link _ => ?_
  rcases truthy link.passwordHash with _ | hash
  · exact UnlockShown.redirect _ _
  · refine ends_bind (Q := fun _ => True) ⟨trivial, fun _ _ => trivial⟩ fun valid _ => ?_
    cases valid with
    | false => exact UnlockShown.html _
    | true => exact ⟨trivial, fun _ _ => UnlockShown.redirect _ _⟩

end Redirects

end ClickScope
