import ClickScope.Async.Along
import ClickScope.Theory.Credentials
import ClickScope.Theory.ServerRuns

/-!
# Authorization

Who can make the server act for an account.

A request cannot carry a verifying bearer token nobody issued; that is the one
assumption, and `unforgedBearers` states it where a request starts. Then every
statement the server sends for an account was asked for by a request with a
session token of that very account, which had not expired when the request was
checked, and which some earlier request was given that signed up, compared the
account's password, or came back from Google with its identity. Whatever else a
request carries (an unlock token as its bearer token, an id of somebody else, a
body of any shape), and whatever runs beside it, no statement is sent for the
account.

## Main definitions

* `bearerIssued`, `unforgedBearers`: What requests may carry.
* `SignedIn`: A request that has proven whose it is.
* `Authorized`: What entitles an event to act for an account.

## Theorems

* `signedIn_of_issue`: The tokens of the server are for proven accounts.
* `statements_authorized`: Every statement of an owner is authorized.
-/

namespace ClickScope

open Async Zod

/-- What can be read off an operation of the service, of one of the server. -/
def ofApi {α : Type} (f : (op : Op) → op.Res → Option α) : (op : HttpOp) → op.Res → Option α
  | .api op, r => f op r
  | _, _ => none

/-- The token an operation of the server issued. -/
def bearerIssued : (op : HttpOp) → op.Res → Option String := ofApi tokenOf

/-- The bearer token of the request, if it ever verifies, was issued before. -/
def UnforgedBearer (P : Platform) (log : List ServerEvent) (req : Request) : Prop :=
  ∀ token now payload, bearerToken req.authorization = some token →
    P.jwt.verify now token = .ok payload → ∃ e ∈ log, bearerIssued e.op e.res = some token

/-- Requests carry anything but verifying tokens that were never issued. -/
def unforgedBearers (P : Platform) : Policy HttpOp HttpOp.Res Work Choice ServerWorld where
  mayStart := fun st work => ∀ req, work = .request req → UnforgedBearer P st.log req
  mayDo := fun _ _ _ _ _ => True

/-- The request of an event made a call that had proven that it is for this
    account, by the rows it saw and by what it was answered. -/
def SignedIn (D : Deployment) (c : ServerSite) (e : ServerEvent) (userId : String) : Prop :=
  ∃ told call send, told <:+ trace (c.state.mine e.tid) ∧ WorkAsks D e.call told call send ∧
    Proven D.P (fun row => ∃ e' ∈ c.state.mine e.tid, row ∈ e'.after.app.db.users)
      (fun x => ⟨.api x.1, x.2⟩ ∈ trace (c.state.mine e.tid)) call userId

/-- An event of a request whose bearer token is a session token of the account.
    The token had not expired when the request was checked, before the event, and
    it was issued before that, to a request that had signed in. -/
def Authorized (D : Deployment) (c : ServerSite) (e : ServerEvent) (userId : String) : Prop :=
  ∃ req iat now, e.call = .request req ∧
    bearerToken req.authorization = some (sessionToken D.P userId iat) ∧
    seconds now < iat + D.P.jwtExpiresIn ∧
    ∃ check ∈ c.state.mine e.tid, ∃ issue ∈ c.state.log,
      check.seq < e.seq ∧ issue.seq < check.seq ∧
      (⟨check.op, check.res⟩ : Σ op : HttpOp, op.Res) = ⟨.api .dateNow, now⟩ ∧
      bearerIssued issue.op issue.res = some (sessionToken D.P userId iat) ∧
      SignedIn D c issue userId

/-- Only signing issues a token. -/
theorem bearerIssued_not_own {op : HttpOp} {r : op.Res} {token : String}
    (h : bearerIssued op r = some token) : ¬ ownOp op := by
  cases op with
  | api op =>
      rcases tokenOf_inv h with ⟨claims, ttl, rfl⟩
      exact fun hown => by cases hown
  | _ => cases h

theorem ofApi_echo {α : Type} {f : (op : Op) → op.Res → Option α} {D : Deployment}
    {e : ServerEvent} {e' : Ev} (hecho : (front D).Echo e e') :
    ofApi f e.op e.res = f e'.op e'.res := by
  rcases hecho.answer with ⟨r, heq, hr⟩
  have hsame := congrArg (fun x : Σ op : HttpOp, op.Res => ofApi f x.1 x.2) heq
  rw [hr]
  exact hsame

section Middleware

variable {D : Deployment} {req : Request} {told : Told} {userId : String}

/-- An endpoint makes a call for an account only if the bearer token names it. -/
theorem asksFor_bears {body : JsValue} {ep : Endpoint} {call : Call}
    {send : Reply → Except Thrown Sending} (h : AsksFor D req body told ep call send)
    (hu : call.actsFor = some userId) : Bears D req told userId := by
  cases h with
  | me u hbears => exact Option.some.inj hu ▸ hbears
  | createLink u mid out hbears => exact Option.some.inj hu ▸ hbears
  | listLinks u mid out hbears => exact Option.some.inj hu ▸ hbears
  | getLink u id mid out hbears => exact Option.some.inj hu ▸ hbears
  | linkStats u id mid out mid' out' now hbears => exact Option.some.inj hu ▸ hbears
  | updateLink u id mid out mid' out' hbears => exact Option.some.inj hu ▸ hbears
  | deleteLink u id mid out hbears => exact Option.some.inj hu ▸ hbears
  | _ => cases hu

theorem workAsks_bears {work : Work} {call : Call} {send : Reply → Except Thrown Sending}
    (h : WorkAsks D work told call send) (hu : call.actsFor = some userId) :
    ∃ req, work = .request req ∧ Bears D req told userId := by
  cases work with
  | request req =>
      rcases h with ⟨body, _, _, hasks⟩
      exact ⟨req, rfl, asksFor_bears hasks hu⟩
  | clickJob data =>
      rw [h.1] at hu
      cases hu
  | cleanupJob =>
      rw [h.1] at hu
      cases hu

/-- A session token that passes the bearer check is one of the account it names,
    and has not expired. -/
theorem bears_session {now : Nat} {sub : Option ClaimValue} {u : String} {iat : Int}
    (hauth : requireAuth D.P (seconds now) req.authorization = .ok sub)
    (howner : ownerOf D sub = some userId)
    (hb : bearerToken req.authorization = some (sessionToken D.P u iat)) :
    u = userId ∧ seconds now < iat + D.P.jwtExpiresIn := by
  rcases requireAuth_ok D.P (seconds now) req.authorization sub hauth with
    ⟨token, payload, hb', hv, hsub⟩
  obtain rfl : token = sessionToken D.P u iat := Option.some.inj (hb'.symm.trans hb)
  rw [verifyToken_session] at hv
  by_cases hexp : iat + D.P.jwtExpiresIn ≤ seconds now
  · rw [if_pos hexp] at hv
    cases hv
  · rw [if_neg hexp, Except.ok.injEq] at hv
    have hclaim : sub = some (.str u) := by
      rw [hsub, ← hv, stamped_claim _ _ _ _ (by decide) (by decide)]
      rfl
    rw [hclaim] at howner
    exact ⟨Option.some.inj howner, by omega⟩

/-- An unlock token that passes the bearer check names nobody. -/
theorem bears_unlock {now : Nat} {sub : Option ClaimValue} {linkId : String} {iat : Int}
    (hauth : requireAuth D.P (seconds now) req.authorization = .ok sub)
    (hb : bearerToken req.authorization = some (unlockToken D.P linkId iat)) :
    ownerOf D sub = none := by
  rcases requireAuth_ok D.P (seconds now) req.authorization sub hauth with
    ⟨token, payload, hb', hv, hsub⟩
  obtain rfl : token = unlockToken D.P linkId iat := Option.some.inj (hb'.symm.trans hb)
  rw [verifyToken_unlock] at hv
  by_cases hexp : iat + UNLOCK_TOKEN_TTL ≤ seconds now
  · rw [if_pos hexp] at hv
    cases hv
  · rw [if_neg hexp, Except.ok.injEq] at hv
    have hclaim : sub = none := by
      rw [hsub, ← hv, stamped_claim _ _ _ _ (by decide) (by decide)]
      rfl
    rw [hclaim]
    rfl

/-- What a request was told before its call, it was told before any operation of
    the call. -/
theorem told_before {l : List ServerEvent} (hsorted : l.Pairwise (fun a b => b.seq < a.seq))
    (htold : told <:+ trace l) (hown : ∀ x ∈ told, ownOp x.1) {e : ServerEvent} (he : e ∈ l)
    (hnot : ¬ ownOp e.op) {x : Σ op : HttpOp, op.Res} (hx : x ∈ told) :
    ∃ e' ∈ l, (⟨e'.op, e'.res⟩ : Σ op : HttpOp, op.Res) = x ∧ e'.seq < e.seq := by
  rcases htold with ⟨pre, hpre⟩
  rcases List.map_eq_append_iff.mp hpre.symm with ⟨later, earlier, rfl, _, rfl⟩
  rcases List.mem_map.mp hx with ⟨e', he', rfl⟩
  rcases List.mem_append.mp he with hlater | hearlier
  · exact ⟨e', List.mem_append_right _ he', rfl,
      (List.pairwise_append.mp hsorted).2.2 e hlater e' he'⟩
  · exact absurd (hown ⟨e.op, e.res⟩ (List.mem_map_of_mem hearlier)) hnot

end Middleware

section Runs

variable {D : Deployment} {c : ServerSite} {d : Site} {asked : Nat → Option Ask}
  {choose : Nat → Call} {l : List ServerEvent}

/-- The call behind an event is one its request may make, after what it was told. -/
theorem event_behind {π : Policy HttpOp HttpOp.Res Work Choice ServerWorld} {w₀ : ServerWorld}
    (hc : Run (server D) π w₀ c) (hd : Run (clickScope D.P) Policy.free w₀.app d)
    (hf : Forward (front D) (asksOf D) (RefusedWork D) asked l c)
    (hb : Behind (front D) asked choose l c d) {e : ServerEvent} {e' : Ev} (he : e ∈ l)
    (he' : e' ∈ d.state.log) (hecho : (front D).Echo e e') :
    ∃ told send, told <:+ trace (c.state.mine e.tid) ∧ (∀ x ∈ told, ownOp x.1) ∧
      WorkAsks D e.call told e'.call send := by
  rcases run_event_thread hc e (hf.sub.subset he) with ⟨u, hu, hcall⟩
  rcases run_event_thread hd e' he' with ⟨t, ht, hcall'⟩
  rw [hecho.tid] at ht
  cases hasked : asked e.tid with
  | none => exact absurd rfl ((hf.waits e.tid u hu hasked).1 e he)
  | some a =>
      rcases hf.asks e.tid u a hu hasked with ⟨⟨send, hasks, _⟩, htold, hown⟩
      have hface := (hb.facing e.tid u t hu ht).call
      rw [hasked, hcall'] at hface
      refine ⟨a.told, send, htold, hown, ?_⟩
      rw [← hcall, hface]
      exact hasks

/-- What a call has proven behind, its request has proven. -/
theorem proven_front (hf : Forward (front D) (asksOf D) (RefusedWork D) asked l c)
    (hb : Behind (front D) asked choose l c d) {i : Nat} {call : Call} {userId : String}
    (h : ProvenBy D.P (d.state.mine i) call userId) :
    Proven D.P (fun row => ∃ e ∈ c.state.mine i, row ∈ e.after.app.db.users)
      (fun x => ⟨.api x.1, x.2⟩ ∈ trace (c.state.mine i)) call userId := by
  -- Each event behind has its event in front, with the same answer and the same tables.
  have hfront : ∀ e' ∈ d.state.mine i, ∃ e ∈ c.state.mine i, (front D).Echo e e' := by
    intro e' he'
    rw [State.mem_mine] at he'
    rcases echo_front hb.echo e' he'.1 with ⟨e, he, hecho⟩
    exact ⟨e, State.mem_mine.mpr ⟨hf.sub.subset he, hecho.tid.symm.trans he'.2⟩, hecho⟩
  refine Proven.mono h ?_ ?_
  · rintro row ⟨e', he', hrow⟩
    rcases hfront e' he' with ⟨e, he, hecho⟩
    exact ⟨e, he, by rw [hecho.after] at hrow; exact hrow⟩
  · intro x hx
    rcases List.mem_map.mp hx with ⟨e', he', rfl⟩
    rcases hfront e' he' with ⟨e, he, hecho⟩
    rcases hecho.answer with ⟨r, heq, hr⟩
    refine List.mem_map.mpr ⟨e, he, heq.trans ?_⟩
    rw [hr]
    rfl

/-- Issued tokens are for accounts whose requests have signed in, or for links. -/
theorem signedIn_of_issue {π : Policy HttpOp HttpOp.Res Work Choice ServerWorld}
    {w₀ : ServerWorld} (hc : Run (server D) π w₀ c)
    (hd : Run (clickScope D.P) Policy.free w₀.app d)
    (hf : Forward (front D) (asksOf D) (RefusedWork D) asked l c)
    (hb : Behind (front D) asked choose l c d) {e : ServerEvent} (he : e ∈ c.state.log)
    {token : String} (htoken : bearerIssued e.op e.res = some token) :
    (∃ userId iat, token = sessionToken D.P userId iat ∧ SignedIn D c e userId) ∨
      ∃ linkId iat, token = unlockToken D.P linkId iat := by
  have hel := (hf.own e he).resolve_right (bearerIssued_not_own htoken)
  rcases echo_behind hb.echo e hel with ⟨e', he', hecho⟩
  rcases event_behind hc hd hf hb hel he' hecho with ⟨told, send, htold, _, hasks⟩
  have htoken' : tokenOf e'.op e'.res = some token := (ofApi_echo hecho).symm.trans htoken
  rcases (run_vouching hd).tokens e' he' token htoken' with
    ⟨userId, iat, rfl, hproven⟩ | hunlock
  · rw [hecho.tid] at hproven
    exact Or.inl ⟨userId, iat, rfl, told, e'.call, send, htold, hasks, proven_front hf hb hproven⟩
  · exact Or.inr hunlock

theorem echo_op {e : ServerEvent} {e' : Ev} (hecho : (front D).Echo e e') : e.op = .api e'.op := by
  rcases hecho.answer with ⟨r, heq, _⟩
  exact congrArg Sigma.fst heq

/-- An event behind which a statement is sent for an account is authorized. -/
theorem authorized_of_behind {w₀ : ServerWorld} (hc : Run (server D) (unforgedBearers D.P) w₀ c)
    (hd : Run (clickScope D.P) Policy.free w₀.app d)
    (hf : Forward (front D) (asksOf D) (RefusedWork D) asked l c)
    (hb : Behind (front D) asked choose l c d) {e : ServerEvent} {e' : Ev} (he : e ∈ l)
    (he' : e' ∈ d.state.log) (hecho : (front D).Echo e e') {s : Stmt} {userId : String}
    (hop : e'.op = .db s) (hs : s.actsFor = some userId) : Authorized D c e userId := by
  have hmem : e ∈ c.state.log := hf.sub.subset he
  have hnot : ¬ ownOp e.op := by
    rw [echo_op hecho, hop]
    exact fun hown => by cases hown
  rcases event_behind hc hd hf hb he he' hecho with ⟨told, send, htold, hown, hasks⟩
  -- The call acts for the account, so the request passed the bearer check for it.
  rcases workAsks_bears hasks ((run_vouching hd).owners e' he' s userId hop hs) with
    ⟨req, hreq, now, sub, hsaw, hauth, howner⟩
  rcases requireAuth_ok D.P (seconds now) req.authorization sub hauth with
    ⟨token, payload, hbearer, hverify, _⟩
  -- Its token was issued before it started, and so before it was checked.
  rcases run_event_thread hc e hmem with ⟨u, hu, hcall⟩
  rcases run_started hc e.tid u hu with ⟨st, hsub, hlen, hmay⟩
  rcases hmay req (hcall.trans hreq) token (seconds now) payload hbearer hverify with
    ⟨issue, hissue, htoken⟩
  rcases told_before ((run_sorted hc).filter _) htold hown (State.mem_mine.mpr ⟨hmem, rfl⟩) hnot
    hsaw with ⟨check, hcheck, hnow, hbefore⟩
  have hborn := run_born hc e.tid u hu check (State.mem_mine.mp hcheck).1
    (State.mem_mine.mp hcheck).2
  have hearly := run_seq_suffix hc st.log hsub issue hissue
  rcases signedIn_of_issue hc hd hf hb (hsub.subset hissue) htoken with
    ⟨u, iat, rfl, hsigned⟩ | ⟨linkId, iat, rfl⟩
  · rcases bears_session hauth howner hbearer with ⟨rfl, hexp⟩
    exact ⟨req, iat, now, hreq, hbearer, hexp, check, hcheck, issue, hsub.subset hissue, hbefore,
      by omega, hnow, htoken, hsigned⟩
  · rw [bears_unlock hauth hbearer] at howner
    cases howner

/-- Every statement the server sends for an account is authorized. -/
theorem statements_authorized (D : Deployment) (w₀ : ServerWorld) (c : ServerSite)
    (hc : Run (server D) (unforgedBearers D.P) w₀ c) (e : ServerEvent) (he : e ∈ c.state.log)
    (s : Stmt) (userId : String) (hop : e.op = .api (.db s)) (hs : s.actsFor = some userId) :
    Authorized D c e userId := by
  rcases exists_behind (F := front D) (work_fronted D) hc with ⟨asked, l, hf, hbehind⟩
  rcases hbehind (fun _ => .sweepExpiredLinks) (fun _ => rfl) with ⟨d, hd, hb⟩
  have hel : e ∈ l := (hf.own e he).resolve_right fun hown => by
    rw [hop] at hown
    cases hown
  rcases echo_behind hb.echo e hel with ⟨e', he', hecho⟩
  have hop' : e'.op = .db s := HttpOp.api.inj ((echo_op hecho).symm.trans hop)
  exact authorized_of_behind hc hd hf hb hel he' hecho hop' hs

/-- A deployment that knows one email address, and has a short text for the first
    session token of its first account. -/
def signInDeployment : Deployment :=
  { sampleDeployment with
    P := { samplePlatform with
           jwt := shortJwt (stamped (sessionClaims "1") 0 samplePlatform.jwtExpiresIn) },
    H := { sampleHost with isEmail := fun s => s == "a@b.c" } }

def signupRequest : Incoming :=
  { brokenLogin with
    path := "/api/auth/signup", originalUrl := "/api/auth/signup"
    body := some ("\x7b\"email\":\"a@b.c\",\"password\":\"password\"\x7d".toList.map
              (fun c => UInt8.ofNat c.toNat)) }

def meRequest : Incoming :=
  { strayVisit with path := "/api/auth/me", originalUrl := "/api/auth/me" }

/-- The bearer token of a request that starts is one that was issued. -/
def bearsIssued (c : ServerSite) : Action Work ServerEnv Choice → Bool
  | .spawn (.request req) =>
      match bearerToken req.authorization with
      | some token => c.state.log.any (fun e => bearerIssued e.op e.res == some token)
      | none => true
  | _ => true

theorem bearsIssued_permits (P : Platform) (c : ServerSite) (a : Action Work ServerEnv Choice)
    (h : bearsIssued c a = true) : (unforgedBearers P).permits c a := by
  cases a with
  | spawn work =>
      rintro req rfl token now payload hbearer _
      simp only [bearsIssued, hbearer, List.any_eq_true, beq_iff_eq] at h
      exact h
  | run i ch => exact fun _ _ _ _ _ => trivial
  | _ => trivial

/-- Somebody signs up, and asks with the session token who he is. -/
theorem statements_authorized_me : ∃ (c : ServerSite) (e : ServerEvent),
    Run (server signInDeployment) (unforgedBearers signInDeployment.P) sampleServerWorld c ∧
    e ∈ c.state.log ∧ e.op = .api (.db (.userById "1")) ∧ Authorized signInDeployment c e "1" := by
  have hrun := exists_run_of (server signInDeployment) (unforgedBearers signInDeployment.P)
    sampleServerWorld bearsIssued (bearsIssued_permits _)
    [.spawn (.request (bareRequest signupRequest)), .run 0 {}, .run 0 {}, .run 0 {}, .run 0 {},
      .run 0 {}, .run 0 { draw := "1" }, .run 0 {},
      .spawn (.request { bareRequest meRequest with authorization := some "Bearer t" }),
      .run 1 {}, .run 1 {}]
    (fun c => c.state.log.head?.any (fun e => decide (e.op = .api (.db (.userById "1")))))
    (by decide +kernel)
  rcases hrun with ⟨c, hc, hp⟩
  rcases he : c.state.log.head? with _ | e
  · rw [he] at hp
    cases hp
  · rw [he, Option.any_some, decide_eq_true_eq] at hp
    have hmem := List.mem_of_head? he
    exact ⟨c, e, hc, hmem, hp, statements_authorized signInDeployment sampleServerWorld c hc e hmem
      (.userById "1") "1" hp rfl⟩

end Runs

end ClickScope
