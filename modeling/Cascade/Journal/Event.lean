import Cascade.Journal.Severity

/-!
# Events

What happens to buffered writes and to the transaction that owns them.  Events
of single requests are details; the one event of a failure is an error.
-/

namespace Cascade.Journal

/-- The kinds of events. -/
inductive Event where
  /-- A request was buffered for a later flush. -/
  | queued
  /-- A request was executed at once. -/
  | executedNow
  /-- A flush reached the buffered records. -/
  | flushBegun
  /-- A flush of buffered records has ended well. -/
  | flushCompleted
  /-- A flush failed and everything buffered was dropped. -/
  | flushFailed
  /-- The place of a new group was unknown, so everything was flushed and forgotten first. -/
  | resetForced
  /-- Everything buffered was dropped without being executed. -/
  | cleared
  /-- The buffered statements were executed ahead of the buffered records. -/
  | statementsFlushed
  /-- A transaction ended with a commit. -/
  | committed
  /-- A transaction ended with a rollback. -/
  | rolledBack
  deriving DecidableEq, Repr, Inhabited

namespace Event

def name : Event → String
  | .queued => "BATCH_QUEUED"
  | .executedNow => "BATCH_EXECUTED_NOW"
  | .flushBegun => "FLUSH_BEGIN"
  | .flushCompleted => "FLUSH_COMPLETE"
  | .flushFailed => "FLUSH_FAILED"
  | .resetForced => "FORCED_RESET"
  | .cleared => "BATCH_CLEARED"
  | .statementsFlushed => "STATEMENT_BATCH_FLUSHED"
  | .committed => "TRANSACTION_COMMIT"
  | .rolledBack => "TRANSACTION_ROLLBACK"

def isDetail : Event → Bool
  | .queued | .executedNow => true
  | _ => false

def isFailure : Event → Bool
  | .flushFailed => true
  | _ => false

def severity (event : Event) : Severity :=
  if event.isFailure then .error else if event.isDetail then .trace else .info

end Event

end Cascade.Journal
