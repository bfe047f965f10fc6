import Cascade.Coordinator.Basic

/-!
# Flushing

A flush executes the buffered statements first and the groups of records after
them, in ascending depth.  When the store refuses a call, everything that is
still buffered is dropped together with all groups: the depths were given under
the assumption that the writes before them happen.
-/

namespace Cascade.Coordinator

open Journal

variable {σ : Type}

def summaryOf (groups : List RecordGroup) : String :=
  "flush [" ++ ", ".intercalate (groups.map RecordGroup.label) ++ "]"

/-- Execute the statements that wait, if there are any. -/
def executeStatements [Store σ] (c : Coordinator) (b : Backing σ) :
    Except WriteError Totals × Backing σ :=
  if c.statements.isEmpty then (.ok {}, b)
  else
    match executeGroups c.policy.fetchKeys c.statements.groups {} b.store with
    | (.error e, store) => (.error e, { b with store := store })
    | (.ok totals, store) =>
        (.ok totals, { b with store := store }.note (.statementsFlushed totals.statements))

/-- Announce the groups that a flush is about to execute. -/
def announce (ctx : Context) (groups : List RecordGroup) (b : Backing σ) : Backing σ :=
  let begun := b.note (.flushBegun groups.length ctx.transaction)
  if ctx.summarise then begun.note (.summary ctx.transaction (summaryOf groups)) else begun

/-- Execute the records that wait, if there are any, adding to what has been executed before. -/
def executeRecords [Store σ] (ctx : Context) (c : Coordinator) (done : Totals) (b : Backing σ) :
    Except WriteError Totals × Backing σ :=
  if c.window.isDrained then (.ok done, b)
  else
    let groups := c.window.ordered
    let announced := announce ctx groups b
    match (planGroups ctx.registry c.policy.batchSize groups).execute
        c.policy.fetchKeys done announced.store with
    | (.error e, store) => (.error e, { announced with store := store })
    | (.ok totals, store) =>
        (.ok totals,
          { announced with store := store }.note
            (.flushCompleted groups.length totals.rows totals.statements))

def executeBuffered [Store σ] (ctx : Context) (c : Coordinator) (b : Backing σ) :
    Except WriteError Totals × Backing σ :=
  match c.executeStatements b with
  | (.error e, after) => (.error e, after)
  | (.ok totals, after) => c.executeRecords ctx totals after

/-- The coordinator after all that waited has been executed: groups stay, unless they are reset. -/
def settled (reset : Bool) (totals : Totals) (c : Coordinator) : Coordinator :=
  { c with
    statements := .empty
    window := if reset then ∅ else c.window.drained
    maxDepth := if reset then 0 else c.maxDepth
    highWater := 0
    keys := c.keys.insertAll totals.keys }

/-- Count a flush; one that executed nothing is not counted. -/
def countFlush (totals : Totals) (b : Backing σ) : Backing σ :=
  if 0 < totals.statements then
    (b.count Metrics.countFlush).count (Metrics.addStatements totals.statements)
  else b

def noteFailure (ctx : Context) (e : WriteError) (b : Backing σ) : Backing σ :=
  (b.count Metrics.countFlushFailure).note
    (.flushFailed e.code (e.succeeded?.getD 0) ctx.transaction)

/-- Flush everything that waits, and forget all groups if that is asked for. -/
def flushWith [Store σ] (ctx : Context) (reset : Bool) (c : Coordinator) (b : Backing σ) :
    Step Coordinator σ Totals :=
  match c.executeBuffered ctx b with
  | (.ok totals, after) => (.ok totals, c.settled reset totals, countFlush totals after)
  | (.error e, after) => (.error e, c.wiped, noteFailure ctx e after)

/-- Flush everything that waits and keep the depths of all groups. -/
def flush [Store σ] (ctx : Context) (c : Coordinator) (b : Backing σ) :
    Step Coordinator σ Totals :=
  c.flushWith ctx false b

def flushReset [Store σ] (ctx : Context) (c : Coordinator) (b : Backing σ) :
    Step Coordinator σ Totals :=
  c.flushWith ctx true b

end Cascade.Coordinator
