import Cascade.Coordinator.Flush

/-!
# Submitting requests

A request is executed at once, after a flush, or it is buffered.  Three things
make a flush happen before or behind a buffered request: something of the other
kind waits and the policy does not let them wait side by side, a buffer is
full, or the place of a new group is unknown.
-/

namespace Cascade.Coordinator

open Journal

variable {σ : Type}

def flushIf [Store σ] (condition : Bool) (ctx : Context) (c : Coordinator) (b : Backing σ) :
    Step Coordinator σ Unit :=
  if condition then (c.flush ctx b).andThen (fun _ c b => (.ok (), c, b)) else (.ok (), c, b)

def executeNow [Store σ] (ctx : Context) (request : Request) (c : Coordinator) (b : Backing σ) :
    Step Coordinator σ Outcome :=
  let (result, after) := b.executeNow ctx.registry c.policy.fetchKeys request
  (result, c, after)

def nextRequest (c : Coordinator) : RequestId × Coordinator :=
  (⟨c.requests + 1⟩, { c with requests := c.requests + 1 })

def noteQueued (entry : Entry) (b : Backing σ) : Backing σ :=
  (b.count Metrics.countQueued).note entry

def queueStatement [Store σ] (ctx : Context) (statement : Statement) (c : Coordinator)
    (b : Backing σ) : Step Coordinator σ Outcome :=
  let (id, numbered) := c.nextRequest
  let (size, statements) := numbered.statements.append statement (some id)
  let queued := { numbered with statements := statements }
  (queued.flushIf (c.policy.batchSize ≤ statements.largest) ctx
    (noteQueued (.statementQueued size) b)).andThen
    (fun _ c b => (.ok (.queued id), c, b))

/-- Execute a statement at once or buffer it.

A statement that is not buffered never waits behind what is. -/
def submitStatement [Store σ] (ctx : Context) (statement : Statement) (batch : Bool)
    (c : Coordinator) (b : Backing σ) : Step Coordinator σ Outcome :=
  (c.flushIf (!batch || (c.policy.flushOnMixed && !c.window.isDrained)) ctx b).andThen
    (fun _ c b =>
      if batch then c.queueStatement ctx statement b
      else c.executeNow ctx (.statement statement) b)

/-- Find the depth of a group that is to be opened; an unknown place resets everything first. -/
def placeGroup [Store σ] (ctx : Context) (root : RootType) (relative : Int) (c : Coordinator)
    (b : Backing σ) : Step Coordinator σ Int :=
  match placement relative (ctx.registry.imported root) c.window c.maxDepth with
  | .depth depth => (.ok depth, c, b)
  | .unknown =>
      (c.flushReset ctx ((b.count Metrics.countForcedReset).note (.resetForced root.name))).andThen
        (fun _ c b => (.ok (baseDepth + relative), c, b))

def openGroup [Store σ] (ctx : Context) (root : RootType) (relative : Int) (c : Coordinator)
    (b : Backing σ) : Step Coordinator σ RecordGroup :=
  (c.placeGroup ctx root relative b).andThen
    (fun depth c b =>
      (.ok (.new root depth c.opened),
        { c with maxDepth := max c.maxDepth depth, opened := c.opened + 1 }, b))

/-- The group of a root type, opened if there is none. -/
def groupFor [Store σ] (ctx : Context) (root : RootType) (relative : Int) (c : Coordinator)
    (b : Backing σ) : Step Coordinator σ RecordGroup :=
  match c.window.get? root with
  | some group => (.ok group, c, b)
  | none => c.openGroup ctx root relative b

def queueRecord [Store σ] (ctx : Context) (record : Record) (c : Coordinator) (b : Backing σ) :
    Step Coordinator σ Outcome :=
  let (id, numbered) := c.nextRequest
  (numbered.groupFor ctx record.root record.depth b).andThen
    (fun group c b =>
      let group := group.append id record
      let queued := { c with
        window := c.window.insert record.root group
        highWater := max c.highWater group.size }
      (queued.flushIf (queued.policy.cap ≤ queued.highWater) ctx
        (noteQueued (.recordQueued record.kind.name record.root.name group.size) b)).andThen
        (fun _ c b => (.ok (.queued id), c, b)))

/-- Execute a record write at once or buffer it; nothing happens if its root type is unknown. -/
def submitRecord [Store σ] (ctx : Context) (record : Record) (batch : Bool) (c : Coordinator)
    (b : Backing σ) : Step Coordinator σ Outcome :=
  if ctx.registry.contains record.root then
    (c.flushIf (!batch || (c.policy.flushOnMixed && !c.statements.isEmpty)) ctx b).andThen
      (fun _ c b =>
        if batch then c.queueRecord ctx record b
        else c.executeNow ctx (.record record) b)
  else (.error (.unknownRoot record.root), c, b)

def submit [Store σ] (ctx : Context) (request : Request) (batch : Bool) (c : Coordinator)
    (b : Backing σ) : Step Coordinator σ Outcome :=
  match request with
  | .record r => c.submitRecord ctx r batch b
  | .statement s => c.submitStatement ctx s batch b

end Cascade.Coordinator
