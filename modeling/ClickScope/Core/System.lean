import ClickScope.Core.AuthService
import ClickScope.Core.Redirect
import ClickScope.Core.Worker
import ClickScope.Async.Rely

/-!
# The System

All calls of the service and the worker as one pool of interleaved programs.

A call is one request or job, with the arguments its handler works on; `body`
is the program it runs. Any number of calls run at once, any of them can die
between two operations, and the clock moves on its own. A dying worker attempt
takes its open transaction with it.

## Main definitions

* `Call`, `Reply`: The calls, and what they return.
* `body`: The program of a call.
* `clickScope`: The pool.
-/

namespace ClickScope

open Async

/-- One request or job. -/
inductive Call : Type
  | signup (email password : String)
  | login (email password : String)
  | findOrCreateOAuthUser (provider oauthId email : String) (emailVerified : Bool)
  | getUserById (id : String)
  | googleStart (browser : Nat)
  | googleCallback (req : GoogleRequest)
  | createLink (userId : String) (input : CreateLinkInput)
  | listLinks (countFirst : Bool) (userId : String) (options : ListLinksOptions)
  | getLink (userId linkId : String)
  | updateLink (userId linkId : String) (input : UpdateLinkInput)
  | deleteLink (userId linkId : String)
  | getLinkClickStats (userId linkId : String) (sinceDate : Int)
  | getLinkByShortCode (shortCode : String)
  | visit (req : VisitRequest)
  | unlock (req : UnlockRequest)
  | processClickJob (data : ClickJobData)
  | sweepExpiredLinks
deriving DecidableEq, Repr

/-- What a call returns. -/
inductive Reply : Type
  | session (s : Session)
  | account (user : Option AuthUser)
  | google (r : GoogleReply)
  | created (link : Link)
  | listed (result : ListLinksResult)
  | link (link : Option Link)
  | deleted (found : Bool)
  | stats (stats : Option (List LinkClickStats))
  | lookup (link : Option RedirectLink)
  | response (r : Response)
  | processed
  | swept (deactivated : Nat)
deriving DecidableEq, Repr

/-- The program of a call. -/
def body (P : Platform) : Call → Api Reply
  | .signup email password => do
      let s ← signup P email password
      pure (.session s)
  | .login email password => do
      let s ← login P email password
      pure (.session s)
  | .findOrCreateOAuthUser provider oauthId email emailVerified => do
      let s ← findOrCreateOAuthUser P provider oauthId email emailVerified
      pure (.session s)
  | .getUserById id => do
      let user ← getUserById id
      pure (.account user)
  | .googleStart _ => do
      let r ← googleStart
      pure (.google r)
  | .googleCallback req => do
      let r ← googleCallback P req
      pure (.google r)
  | .createLink userId input => do
      let link ← createLink userId input
      pure (.created link)
  | .listLinks countFirst userId options => do
      let result ← listLinks countFirst userId options
      pure (.listed result)
  | .getLink userId linkId => do
      let link ← getLink userId linkId
      pure (.link link)
  | .updateLink userId linkId input => do
      let link ← updateLink userId linkId input
      pure (.link link)
  | .deleteLink userId linkId => do
      let found ← deleteLink userId linkId
      pure (.deleted found)
  | .getLinkClickStats userId linkId sinceDate => do
      let stats ← getLinkClickStats userId linkId sinceDate
      pure (.stats stats)
  | .getLinkByShortCode shortCode => do
      let link ← getLinkByShortCode shortCode
      pure (.lookup link)
  | .visit req => do
      let r ← visit P req
      pure (.response r)
  | .unlock req => do
      let r ← unlock req
      pure (.response r)
  | .processClickJob data => do
      processClickJob data
      pure .processed
  | .sweepExpiredLinks => do
      let n ← sweepExpiredLinks
      pure (.swept n)

/-- The environment's own moves: the clock advances. -/
inductive EnvStep : Type
  | tick (ms : Nat)
deriving DecidableEq, Repr

/-- The whole service as a pool. -/
def clickScope (P : Platform) : System Op Op.Res Err Reply Call EnvStep Choice World where
  exec := exec P
  body := body P
  env := fun e w => match e with
    | .tick ms => some { w with now := w.now + ms }
  reap := fun tid w => { w with db := w.db.closeTx tid }

/-- The shared state of the pool, with its history. -/
abbrev Hist := State Op Op.Res Call Choice World

/-- One operation in the history of the pool. -/
abbrev Ev := Event Op Op.Res Call Choice World

/-- One started call of the pool. -/
abbrev Task := Thread Op Op.Res Err Reply Call

/-- A configuration of the pool. -/
abbrev Site := Config Op Op.Res Err Reply Call Choice World

end ClickScope
