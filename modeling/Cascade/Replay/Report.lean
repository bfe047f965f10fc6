import Cascade.Replay.Script
import Cascade.Replay.Setup
import Cascade.Store.Memory

/-!
# Replays

A replay runs a script in one transaction over an empty recording store and
reports what the store has executed.  The first operation that fails ends the
script; if the transaction is still active then, it is rolled back.
-/

namespace Cascade.Replay

open Json

/-- The failure of an operation of a script. -/
structure Stop where
  operation : Nat
  cause : WriteError
  deriving DecidableEq, Repr

/-- What a replay has led to. -/
structure Report where
  transaction : String
  state : TransactionState
  executed : List Executed
  batchSizes : List Nat
  summary : List String
  metrics : Metrics
  /-- The failure that ended the script, if one did. -/
  stop : Option Stop
  deriving DecidableEq

/-- Apply operations until one fails; the first of them has the number `number`. -/
def applyAll {σ : Type} [Store σ] (number : Nat) :
    List Operation → Transaction → Backing σ → Option Stop × Transaction × Backing σ
  | [], t, b => (none, t, b)
  | operation :: rest, t, b =>
      match operation.apply t b with
      | (.ok (), t, b) => applyAll (number + 1) rest t b
      | (.error e, t, b) => (some ⟨number, e⟩, t, b)

/-- Roll back a transaction that a failure has left active. -/
def rollBackIfActive {σ : Type} (t : Transaction) (b : Backing σ) : Transaction × Backing σ :=
  match t.state with
  | .active => (t.rollback b).2
  | _ => (t, b)

def runScript {σ : Type} [Store σ] (operations : List Operation) (t : Transaction)
    (b : Backing σ) : Option Stop × Transaction × Backing σ :=
  match applyAll 1 operations t b with
  | (none, t, b) => (none, t, b)
  | (some stop, t, b) => (some stop, rollBackIfActive t b)

def Setup.store (setup : Setup) : Memory :=
  match setup.failAt with
  | some position => ({} : Memory).armAt position
  | none => {}

def begin (setup : Setup) (transaction : String) : Step Transaction Memory Unit :=
  let t := Transaction.new ⟨setup.registry, transaction, setup.summarise⟩
  let b : Backing Memory := { store := setup.store }
  match setup.policy with
  | some policy => t.enableBatching policy b
  | none => (.ok (), t, b)

/-- The report on a transaction that has run a script. -/
def reportOn (stop : Option Stop) (t : Transaction) (b : Backing Memory) : Report where
  transaction := t.context.transaction
  state := t.state
  executed := b.store.executed
  batchSizes := b.store.batchSizes
  summary := Journal.summaries b.journal
  metrics := b.metrics
  stop := stop

/-- Replay operations: the report, with the journal that was kept meanwhile. -/
def perform (setup : Setup) (operations : List Operation) (transaction : String) :
    Except WriteError (Report × List Journal.Entry) :=
  match begin setup transaction with
  | (.error e, _, _) => .error e
  | (.ok (), t, b) =>
      let (stop, t, b) := runScript operations t b
      .ok (reportOn stop t b, b.journal)

def executedValue (entry : Executed) : Value :=
  .ofMembers [
    ("sql", .string entry.text),
    ("params", .ofData entry.params),
    ("batch", .ofOption .ofNat entry.batch)]

def metricsValue (m : Metrics) : Value :=
  .ofMembers [
    ("requests_queued", .ofNat (Metrics.shown m.queued)),
    ("requests_executed_now", .ofNat (Metrics.shown m.executedNow)),
    ("flushes", .ofNat (Metrics.shown m.flushes)),
    ("forced_resets", .ofNat (Metrics.shown m.forcedResets)),
    ("statements_executed", .ofNat (Metrics.shown m.statements)),
    ("flush_failures", .ofNat (Metrics.shown m.flushFailures))]

/-- A failure that ended a script, as an object. -/
def stopValue (stop : Stop) : Value :=
  .ofMembers [
    ("op", .ofNat stop.operation),
    ("code", .string stop.cause.code),
    ("message", .string stop.cause.message),
    ("succeeded", .ofOption .ofNat stop.cause.succeeded?)]

def Report.toValue (report : Report) : Value :=
  .ofMembers [
    ("transaction", .string report.transaction),
    ("state", .string report.state.name),
    ("executed", .array (report.executed.map executedValue)),
    ("batch_sizes", .array (report.batchSizes.map .ofNat)),
    ("summary", .array (report.summary.map .string)),
    ("metrics", metricsValue report.metrics),
    ("error", .ofOption stopValue report.stop)]

end Cascade.Replay
