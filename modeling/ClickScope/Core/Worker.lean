import ClickScope.Core.World

/-!
# The Worker

The two processors of the worker process: one click job, and the expiry sweep.

A click job runs inside one transaction on a connection of its own. Whatever
fails in between, the transaction is rolled back and the failure is passed on,
so the queue delivers the job again; a rollback that fails itself is what is
passed on then. The transaction belongs to the attempt that opened it, and a
worker that dies leaves it to the server to drop.

## Main definitions

* `withTransaction`: Run a body between `BEGIN` and `COMMIT`.
* `processClickJob`: Insert the click once, and count it once.
* `sweepExpiredLinks`: Deactivate the links that have expired.
-/

namespace ClickScope

open Async

/-- `pool.connect()` -/
def poolConnect : Api Unit :=
  .await .poolConnect (fun r => match r with
    | .ok _ => .ret ()
    | .error e => .throw (.db e))

def withTransaction (fn : Api Unit) : Api Unit := do
  poolConnect
  (do
    query .begin
    fn
    query .commit : Api Unit).tryCatch (fun err => do
      query .rollback
      .throw err)

/-- The body of the transaction: insert the click, and count it unless the
    insert found it there already. -/
def recordClick (data : ClickJobData) : Api Unit := do
  let rowCount ← query (.insertClick data)
  if rowCount = 0 then pure ()
  else do
    let _ ← query (.incrementClickCount data.linkId)
    pure ()

def processClickJob (data : ClickJobData) : Api Unit :=
  withTransaction (recordClick data)

/-- The sweep answers with the number of links it deactivated. -/
def sweepExpiredLinks : Api Nat := query .sweepExpired

end ClickScope
