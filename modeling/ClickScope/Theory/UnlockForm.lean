import ClickScope.Theory.VisitOutcomes
import ClickScope.Theory.ShortCodes
import ClickScope.Theory.Validation

/-!
# The Unlock Form

The password form the service renders, against the endpoint it posts to.

A browser reads the form's method, action and field out of the page, and sends
the field url-encoded, since the form names no other encoding. The action is
right: the request is dispatched to the unlock route of the link. The body is
not. The application parses JSON bodies only, so the route finds no body at
all and answers 400 before it looks at the link, for every password. The same
password as JSON is answered by the link, and never with a 400.

## Main definitions

* `formOf`: The form of a page.
* `submit`: The request a browser makes of a form and a value.

## Theorems

* `formOf_interstitial`: The form of the rendered page.
* `formRoute_wp`, `jsonRoute_wp`: The route on the two bodies.
* `unlock_notRejected`: What the handler throws.
* `form_never_agrees`: The two requests never get the same answer.
* `form_rejected`: A right password that the form cannot submit.
-/

namespace ClickScope

open Async Zod

/-- A form as a browser reads it: its method, its action, and the name of its
    one field. -/
structure HtmlForm where
  method : String
  action : String
  field : String
deriving DecidableEq, Repr

/-- What follows the first occurrence of a text. -/
def textAfter (needle : List Char) : List Char → Option (List Char)
  | [] => if needle = [] then some [] else none
  | c :: cs =>
      if needle.isPrefixOf (c :: cs) then some ((c :: cs).drop needle.length)
      else textAfter needle cs

/-- The value of a double-quoted attribute of a tag. -/
def attributeValue (name : String) (tag : List Char) : Option String :=
  (textAfter (" " ++ name ++ "=\"").toList tag).map
    (fun rest => String.ofList (rest.takeWhile (· != '"')))

/-- The form of a page, with its first input, if its attributes contain no
    character references. -/
def formOf (page : String) : Option HtmlForm :=
  match textAfter "<form".toList page.toList with
  | none => none
  | some rest =>
      match textAfter "<input".toList rest with
      | none => none
      | some input =>
          let tag := rest.takeWhile (· != '>')
          match attributeValue "method" tag, attributeValue "action" tag,
            attributeValue "name" (input.takeWhile (· != '>')) with
          | some method, some action, some field =>
              some { method := method, action := action, field := field }
          | _, _, _ => none

/-- The characters a form leaves alone when it encodes a value. -/
def formUnreserved (c : Char) : Bool :=
  c.isAlphanum || c ∈ ['*', '-', '.', '_']

/-- `application/x-www-form-urlencoded`, one value. -/
def formEncode (s : String) : String :=
  String.ofList (s.toList.flatMap (fun c =>
    if c = ' ' then ['+'] else if formUnreserved c then [c]
    else (utf8Bytes c).flatMap percentEncode))

/-- The request a browser makes when the form is submitted with a value. -/
def submit (form : HtmlForm) (value : String) : HttpRequest :=
  { method := if form.method = "POST" then .post else .get
    path := form.action
    payload := .other "application/x-www-form-urlencoded"
      (formEncode form.field ++ "=" ++ formEncode value) }

/-- The JSON body with the password. -/
def passwordBody (password : String) : JsValue := .object [("password", .string password)]

/-- The messages the page is rendered with. -/
def interstitialMessages : List (Option String) :=
  [none, some "Incorrect password. Please try again."]

section Page

theorem isPrefixOf_append {α : Type} [BEq α] [LawfulBEq α] {needle a : List α} (b : List α)
    (h : needle.length ≤ a.length) : needle.isPrefixOf (a ++ b) = needle.isPrefixOf a := by
  induction needle generalizing a with
  | nil => simp only [List.isPrefixOf_nil_left]
  | cons x needle ih =>
      rcases a with _ | ⟨y, a⟩
      · simp only [List.length_cons, List.length_nil] at h
        omega
      · simp only [List.length_cons, Nat.add_le_add_iff_right] at h
        rw [List.cons_append, List.isPrefixOf, List.isPrefixOf, ih h]

/-- An occurrence that is found stays the first when the text goes on. -/
theorem textAfter_append {needle a rest : List Char} (b : List Char)
    (h : textAfter needle a = some rest) :
    needle.length ≤ a.length ∧ textAfter needle (a ++ b) = some (rest ++ b) := by
  induction a with
  | nil =>
      simp only [textAfter] at h
      split_ifs at h with hnil
      rw [Option.some.injEq] at h
      subst hnil h
      refine ⟨Nat.le_refl _, ?_⟩
      cases b <;> rfl
  | cons c a ih =>
      simp only [textAfter] at h
      -- The occurrence begins here, or later on.
      by_cases hpre : needle.isPrefixOf (c :: a) = true
      · rw [if_pos hpre, Option.some.injEq] at h
        have hlen := (List.isPrefixOf_iff_prefix.mp hpre).length_le
        refine ⟨hlen, ?_⟩
        have hpre' : needle.isPrefixOf (c :: (a ++ b)) = true := by
          rw [← List.cons_append, isPrefixOf_append b hlen]
          exact hpre
        rw [List.cons_append, textAfter, if_pos hpre', ← h, ← List.cons_append,
          List.drop_append_of_le_length hlen]
      · rw [if_neg hpre] at h
        rcases ih h with ⟨hlen, hrest⟩
        have hlen' : needle.length ≤ (c :: a).length := Nat.le_succ_of_le hlen
        refine ⟨hlen', ?_⟩
        have hpre' : ¬ needle.isPrefixOf (c :: (a ++ b)) = true := by
          rw [← List.cons_append, isPrefixOf_append b hlen']
          exact hpre
        rw [List.cons_append, textAfter, if_neg hpre']
        exact hrest

/-- Characters that cannot begin an occurrence are passed by. -/
theorem textAfter_skip {x : Char} {needle pre : List Char} (rest : List Char)
    (h : ∀ c ∈ pre, c ≠ x) :
    textAfter (x :: needle) (pre ++ rest) = textAfter (x :: needle) rest := by
  induction pre with
  | nil => rfl
  | cons c pre ih =>
      have hc : c ≠ x := h c List.mem_cons_self
      have hpre : ¬ (x :: needle).isPrefixOf (c :: (pre ++ rest)) = true := by
        rw [List.isPrefixOf, Bool.and_eq_true, beq_iff_eq]
        exact fun heq => hc heq.1.symm
      rw [List.cons_append, textAfter, if_neg hpre]
      exact ih (fun d hd => h d (List.mem_cons_of_mem c hd))

theorem ne_of_all {x : Char} {l : List Char} (h : l.all (· != x) = true) : ∀ c ∈ l, c ≠ x :=
  fun c hc => bne_iff_ne.mp (List.all_eq_true.mp h c hc)

theorem takeWhile_ne_append {x : Char} {pre : List Char} (rest : List Char)
    (h : ∀ c ∈ pre, c ≠ x) :
    (pre ++ x :: rest).takeWhile (· != x) = pre := by
  rw [List.takeWhile_append_of_pos (fun c hc => bne_iff_ne.mpr (h c hc))]
  simp only [List.takeWhile_cons, bne_self_eq_false, Bool.false_eq_true, if_false, List.append_nil]

set_option maxRecDepth 4000 in
/-- The page around the short code: the opening of the form before it, and the
    rest of the tag and the input after it. -/
theorem interstitial_parts {message : Option String} (hm : message ∈ interstitialMessages) :
    ∃ head tail more input,
      (∀ code, renderInterstitial code message = head ++ escapeHtml code ++ tail) ∧
      textAfter "<form".toList head.toList = some " method=\"POST\" action=\"/".toList ∧
      tail.toList = "/unlock\"".toList ++ '>' :: more ∧
      textAfter "<input".toList tail.toList = some input ∧
      attributeValue "name" (input.takeWhile (· != '>')) = some "password" := by
  simp only [interstitialMessages, List.mem_cons, List.not_mem_nil, or_false] at hm
  rcases hm with rfl | rfl
  all_goals
    refine ⟨_, _, ?more, ?input, fun code => rfl, ?form, ?rest, ?found, ?field⟩
    -- The text of the page as characters, before anything is searched in it.
    case rest =>
      repeat rw [String.toList_ofList]
      exact rfl
    case found =>
      repeat rw [String.toList_ofList]
      exact rfl
    case field =>
      unfold attributeValue
      simp only [String.toList_append]
      repeat rw [String.toList_ofList]
      exact rfl
    case form =>
      simp only [truthy, escapeHtml, String.toList_append]
      repeat rw [String.toList_ofList]
      exact rfl

theorem method_start : textAfter " method=\"".toList " method=\"POST\" action=\"/".toList
    = some ("POST".toList ++ '"' :: " action=\"/".toList) := by
  repeat rw [String.toList_ofList]
  exact rfl

theorem action_start : textAfter " action=\"".toList " method=\"POST\" action=\"/".toList
    = some ['/'] := by
  repeat rw [String.toList_ofList]
  exact rfl

/-- The form of the rendered page posts the field `password` to the link's
    unlock path. -/
theorem formOf_interstitial {code : String} (h : Storable code) {message : Option String}
    (hm : message ∈ interstitialMessages) :
    formOf (renderInterstitial code message)
      = some { method := "POST", action := "/" ++ code ++ "/unlock", field := "password" } := by
  rcases interstitial_parts hm with ⟨head, tail, more, input, hpage, hform, htail, hinput, hfield⟩
  have hcode : ∀ d, codeChar d = false → ∀ c ∈ code.toList, c ≠ d :=
    fun d hd c hc => codeChar_ne (storable_chars h c hc) hd
  -- The code is escaped to itself, so it stands in the page as it is.
  have htext : (renderInterstitial code message).toList
      = head.toList ++ (code.toList ++ tail.toList) := by
    rw [hpage, escape_storable h]
    simp only [String.toList_append, List.append_assoc]
  -- The text from the form on, and the tag in it.
  have hrest := (textAfter_append (code.toList ++ tail.toList) hform).2
  have hnoinput : ∀ c ∈ " method=\"POST\" action=\"/".toList, c ≠ '<' :=
    ne_of_all (by decide)
  -- Neither the tag nor the code has the character an input begins with.
  have hinput' : textAfter "<input".toList
      (" method=\"POST\" action=\"/".toList ++ (code.toList ++ tail.toList)) = some input := by
    have hneedle : "<input".toList = '<' :: "input".toList := by decide
    rw [hneedle] at hinput ⊢
    rw [textAfter_skip _ hnoinput, textAfter_skip _ (hcode '<' (by decide)), hinput]
  -- The tag ends after the action, since nothing before has its last character.
  have htag : (" method=\"POST\" action=\"/".toList ++ (code.toList ++ tail.toList)).takeWhile
      (· != '>') = " method=\"POST\" action=\"/".toList ++ (code.toList ++ "/unlock\"".toList) := by
    have hno : ∀ c ∈ " method=\"POST\" action=\"/".toList ++ (code.toList ++ "/unlock\"".toList),
        c ≠ '>' := by
      intro c hc
      rw [List.mem_append, List.mem_append] at hc
      rcases hc with hc | hc | hc
      · exact ne_of_all (by decide) c hc
      · exact hcode '>' (by decide) c hc
      · exact ne_of_all (by decide) c hc
    rw [htail, show " method=\"POST\" action=\"/".toList ++ (code.toList ++
        ("/unlock\"".toList ++ '>' :: more)) = (" method=\"POST\" action=\"/".toList ++
        (code.toList ++ "/unlock\"".toList)) ++ '>' :: more by
      simp only [List.append_assoc]]
    exact takeWhile_ne_append more hno
  have hmethod : attributeValue "method"
      (" method=\"POST\" action=\"/".toList ++ (code.toList ++ "/unlock\"".toList))
      = some "POST" := by
    have hname : " " ++ "method" ++ "=\"" = " method=\"" := by decide
    unfold attributeValue
    rw [hname, (textAfter_append _ method_start).2, Option.map_some, List.append_assoc,
      List.cons_append, takeWhile_ne_append _ (ne_of_all (by decide)), String.ofList_toList]
  have haction : attributeValue "action"
      (" method=\"POST\" action=\"/".toList ++ (code.toList ++ "/unlock\"".toList))
      = some ("/" ++ code ++ "/unlock") := by
    have hname : " " ++ "action" ++ "=\"" = " action=\"" := by decide
    have hno : ∀ c ∈ ("/" ++ code ++ "/unlock").toList, c ≠ '"' := by
      intro c hc
      simp only [String.toList_append, List.mem_append] at hc
      rcases hc with (hc | hc) | hc
      · exact ne_of_all (by decide) c hc
      · exact hcode '"' (by decide) c hc
      · exact ne_of_all (by decide) c hc
    -- The action is what stands between the quotes.
    have hquote : "/unlock\"".toList = "/unlock".toList ++ ['"'] := by decide
    have hslash : "/".toList = ['/'] := by decide
    have hlist : ['/'] ++ (code.toList ++ "/unlock\"".toList)
        = ("/" ++ code ++ "/unlock").toList ++ '"' :: [] := by
      rw [hquote]
      simp only [String.toList_append, hslash, List.append_assoc]
    unfold attributeValue
    rw [hname, (textAfter_append _ action_start).2, Option.map_some, hlist,
      takeWhile_ne_append _ hno, String.ofList_toList]
  unfold formOf
  rw [htext, hrest]
  simp only [hinput', htag, hmethod, haction, hfield]

end Page

section Routes

variable {P : Platform} {tid : Nat} {w : World}

theorem jsLength_pos {s : String} (h : s ≠ "") : 1 ≤ jsLength s := by
  unfold jsLength
  rcases hs : s.toList with _ | ⟨c, cs⟩
  · exact absurd (String.toList_eq_nil_iff.mp hs) h
  · rw [List.map_cons, List.sum_cons]
    split_ifs <;> omega

/-- The parameters of a storable code are accepted as they are. -/
theorem accepts_storable {code : String} (h : Storable code) (now : Nat) :
    Accepts shortCodeParamSchema now (shortCodeParams code) (shortCodeParams code) := by
  have hlen := storable_length h
  have hmin : MIN_ALIAS_LENGTH = 3 := rfl
  exact accepts_shortCode (by omega) hlen.2 now

theorem accepts_password {password : String} (h : password ≠ "") (now : Nat) :
    Accepts unlockBodySchema now (passwordBody password) (passwordBody password) := by
  refine accepts_object.mpr ⟨_, _, rfl, rfl, parseShape_cons.mpr
    ⟨.string password, [], accepts_string.mpr ⟨password, rfl, rfl, ?_⟩, rfl, rfl⟩,
    unrecognized_nil (fun key hkey => hkey)⟩
  simp only [runChecks_nil, List.mem_singleton, forall_eq, Zod.min, decide_eq_true_eq]
  exact jsLength_pos h

/-- The error of a request without a body. -/
def bodyRequired : Err :=
  .app (badRequest "Validation failed" (some [("body", "Required")]))

/-- Without a body the route ends before it looks at the link. -/
theorem formRoute_wp {code : String} (h : Storable code) :
    (unlockRoute code .undefined).wp (exec P tid) (fun r _ => r = .error bodyRequired) w := by
  refine Prog.wp_bind _ w (makeValidator_wp ?_)
  rw [validated_ok.mpr (accepts_storable h w.now)]
  refine Prog.wp_bind _ w (makeValidator_wp ?_)
  -- The schema of the body fails on `undefined`.
  exact rfl

/-- With the password as JSON the route is the handler. -/
theorem jsonRoute_wp {code password : String} (h : Storable code) (hne : password ≠ "")
    {Post : Except Err Response → World → Prop}
    (hpost : (unlock { shortCode := code, password := password }).wp (exec P tid) Post w) :
    (unlockRoute code (passwordBody password)).wp (exec P tid) Post w := by
  refine Prog.wp_bind _ w (makeValidator_wp ?_)
  rw [validated_ok.mpr (accepts_storable h w.now)]
  refine Prog.wp_bind _ w (makeValidator_wp ?_)
  rw [validated_ok.mpr (accepts_password hne w.now)]
  refine Prog.wp_bind _ w (parse_wp ?_)
  rw [parsed_ok.mpr (accepts_storable h w.now)]
  refine Prog.wp_bind _ w (parse_wp ?_)
  rw [parsed_ok.mpr (accepts_password hne w.now)]
  exact hpost

/-- Not a rejected request. -/
def notRejected (e : Err) : Prop := e ≠ bodyRequired

theorem unlock_notRejected (req : UnlockRequest) : (unlock req).Throws notRejected := by
  refine unlock_throws (fun e => Err.noConfusion) (fun e hstatus heq => ?_) req
  -- A link that is missing or dead has another status.
  rw [Err.app.inj heq] at hstatus
  exact absurd hstatus (by decide)

/-- No operation of the route ever has to wait. -/
theorem unlockOp_enabled {code : String} (op : Op) (w : World)
    (h : lookupOp code op ∨ grantOp op) : ∃ ch r w', exec P tid op ch w = some (r, w') := by
  cases op with
  | redis c => exact ⟨{}, _, _, rfl⟩
  | dateNow => exact ⟨{}, _, _, rfl⟩
  | bcryptCompare plain hash => exact ⟨{}, _, _, rfl⟩
  | jwtSign claims ttl => exact ⟨{}, _, _, rfl⟩
  | db s =>
      cases s with
      | redirectLookup code => exact ⟨{}, _, _, rfl⟩
      | _ => exact (h.elim id id).elim
  | _ => exact (h.elim id id).elim

/-- The route is always answered. -/
theorem exists_unlockRoute_run (P : Platform) (tid : Nat) (code : String) (body : JsValue)
    (w : World) :
    ∃ chs r v, (unlockRoute code body).seqRun (exec P tid) chs w = some (r, v) := by
  have hclock : ∃ code', lookupOp code' .dateNow ∨ grantOp .dateNow := ⟨code, Or.inr trivial⟩
  have honly : (unlockRoute code body).Only
      (fun op => ∃ code', lookupOp code' op ∨ grantOp op) := by
    refine Prog.only_bind (fun params => ?_) _ (makeValidator_only hclock _)
    refine Prog.only_bind (fun validBody => ?_) _ (makeValidator_only hclock _)
    refine Prog.only_bind (fun parsedParams => ?_) _ (parse_only hclock _)
    refine Prog.only_bind (fun parsedBody => ?_) _ (parse_only hclock _)
    exact Prog.only_mono (fun op hop => ⟨_, hop⟩) _ (unlock_only _)
  exact Prog.exists_seqRun (fun op w h => h.elim (fun code' hop => unlockOp_enabled op w hop)) _
    honly w

end Routes

/-- The form request and the JSON request with the same password, from one
    world, never get the same answer: the first is always rejected with 400,
    the second never. If the link is live, protected and not cached, the second
    gets a grant and 302, or the 401 page. -/
theorem form_never_agrees (P : Platform) (code : String) (hcode : Storable code)
    (message : Option String) (hm : message ∈ interstitialMessages) (password : String)
    (hne : password ≠ "") (tid : Nat) (w : World) :
    ∃ form, formOf (renderInterstitial code message) = some form ∧
      dispatch (submit form password).method (submit form password).path = .unlock code ∧
      (∃ chs r v, (unlockRoute code (expressJson (submit form password).payload)).seqRun
        (exec P tid) chs w = some (r, v)) ∧
      (∃ chs r v, (unlockRoute code (expressJson (.json (passwordBody password)))).seqRun
        (exec P tid) chs w = some (r, v)) ∧
      ∀ chs r v chs' r' v',
        (unlockRoute code (expressJson (submit form password).payload)).seqRun (exec P tid) chs w
          = some (r, v) →
        (unlockRoute code (expressJson (.json (passwordBody password)))).seqRun (exec P tid) chs' w
          = some (r', v') →
        r = .error bodyRequired ∧ r' ≠ .error bodyRequired ∧
        (w.redis.get w.now (linkCacheKey code) = none →
          r' = unlockResult P w.now { shortCode := code, password := password } w.db) := by
  refine ⟨_, formOf_interstitial hcode hm, dispatch_unlock hcode,
    exists_unlockRoute_run P tid code _ w, exists_unlockRoute_run P tid code _ w, ?_⟩
  intro chs r v chs' r' v' hform hjson
  -- The form's request has no parsed body.
  have hr : r = .error bodyRequired :=
    (Prog.wp_iff _ _).mp (formRoute_wp hcode) chs r v hform
  refine ⟨hr, ?_, fun hmiss => ?_⟩
  · have hthrows := (Prog.wp_iff _ _).mp
      (jsonRoute_wp hcode hne (Prog.throws_wp _ (unlock_notRejected _) w)) chs' r' v' hjson
    exact fun heq => hthrows _ heq rfl
  · have hunlock : (unlock { shortCode := code, password := password }).wp (exec P tid)
        (fun r _ => r = unlockResult P w.now { shortCode := code, password := password } w.db) w :=
      (Prog.wp_iff _ _).mpr (fun chs r v hrun => unlock_run hmiss hrun)
    exact (Prog.wp_iff _ _).mp (jsonRoute_wp hcode hne hunlock) chs' r' v' hjson

theorem storable_abc : Storable "abc" :=
  Or.inl ⟨0, accepts_customAlias.mpr ⟨"abc", rfl, rfl, by decide, by decide, by decide, by decide⟩⟩

/-- The protected link under a short code that can be stored. -/
def aliasedWorld : World :=
  { protectedWorld with db := { protectedWorld.db with
      links := [{ protectedLink with shortCode := "abc" }] } }

theorem form_never_agrees_aliased :
    ∃ form, formOf (renderInterstitial "abc" none) = some form ∧
      dispatch (submit form "p").method (submit form "p").path = .unlock "abc" ∧
      (∃ chs r v, (unlockRoute "abc" (expressJson (submit form "p").payload)).seqRun
        (exec samplePlatform 0) chs aliasedWorld = some (r, v)) ∧
      (∃ chs r v, (unlockRoute "abc" (expressJson (.json (passwordBody "p")))).seqRun
        (exec samplePlatform 0) chs aliasedWorld = some (r, v)) ∧
      ∀ chs r v chs' r' v',
        (unlockRoute "abc" (expressJson (submit form "p").payload)).seqRun (exec samplePlatform 0)
          chs aliasedWorld = some (r, v) →
        (unlockRoute "abc" (expressJson (.json (passwordBody "p")))).seqRun (exec samplePlatform 0)
          chs' aliasedWorld = some (r', v') →
        r = .error bodyRequired ∧ r' ≠ .error bodyRequired ∧
        (aliasedWorld.redis.get aliasedWorld.now (linkCacheKey "abc") = none →
          r' = unlockResult samplePlatform aliasedWorld.now { shortCode := "abc", password := "p" }
            aliasedWorld.db) :=
  form_never_agrees samplePlatform "abc" storable_abc none (by decide) "p" (by decide) 0
    aliasedWorld

/-- The right password of a live link: as JSON it opens the link, and from the
    form it is a bad request. -/
theorem form_rejected : ¬ ∀ (P : Platform) (code : String) (message : Option String)
    (password : String) (tid : Nat) (w : World) (row : LinkRow) (form : HtmlForm),
    Storable code → message ∈ interstitialMessages → password ≠ "" →
    w.redis.get w.now (linkCacheKey code) = none → rowOf w.db code = some row →
    deadRow w.now row = false → row.passwordHash.isSome = true →
    formOf (renderInterstitial code message) = some form →
    ∀ chs r v chs' r' v',
      (unlockRoute code (expressJson (submit form password).payload)).seqRun (exec P tid) chs w
        = some (r, v) →
      (unlockRoute code (expressJson (.json (passwordBody password)))).seqRun (exec P tid) chs' w
        = some (r', v') →
      r = r' := by
  intro hall
  rcases exists_unlockRoute_run samplePlatform 0 "abc" .undefined aliasedWorld with
    ⟨chs, r, v, hform⟩
  rcases exists_unlockRoute_run samplePlatform 0 "abc" (passwordBody "p")
    aliasedWorld with ⟨chs', r', v', hjson⟩
  have heq := hall samplePlatform "abc" none "p" 0 aliasedWorld _ _ storable_abc (by decide)
    (by decide) rfl rfl rfl rfl (formOf_interstitial storable_abc (by decide)) chs r v chs' r' v'
    hform hjson
  -- The form is refused for having no body, which the JSON body never is.
  have hr : r = .error bodyRequired :=
    (Prog.wp_iff _ _).mp (formRoute_wp storable_abc) chs r v hform
  have hthrows := (Prog.wp_iff _ _).mp (jsonRoute_wp storable_abc (by decide)
    (Prog.throws_wp _ (unlock_notRejected _) aliasedWorld)) chs' r' v' hjson
  exact hthrows _ (heq.symm.trans hr) rfl

end ClickScope
