import Cascade.Journal.Event
import Cascade.Journal.Line

/-!
# Entries of the journal

An entry is an event with what there is to tell about it.  The journal keeps
every entry; which of them are written where is decided by an `Outlet`.
-/

namespace Cascade.Journal

/-- An event with its particulars. -/
inductive Entry where
  /-- A statement was buffered; its text now has `size` parameter sets. -/
  | statementQueued (size : Nat)
  /-- A record write was buffered; its group now has `size` writes. -/
  | recordQueued (kind root : String) (size : Nat)
  /-- A request of the named kind was executed at once. -/
  | executedNow (kind : String)
  /-- A flush reached the records, which form `groups` groups. -/
  | flushBegun (groups : Nat) (transaction : String)
  /-- The groups that a flush is about to execute, in order. -/
  | summary (transaction message : String)
  /-- The buffered statements were executed. -/
  | statementsFlushed (statements : Nat)
  /-- A flush of records has ended well; statements and rows count all of the flush. -/
  | flushCompleted (groups rows statements : Nat)
  /-- A flush failed after `succeeded` statements. -/
  | flushFailed (code : String) (succeeded : Nat) (transaction : String)
  /-- The place of a new group for `root` was unknown. -/
  | resetForced (root : String)
  /-- Everything buffered was dropped. -/
  | cleared (transaction : String)
  /-- A transaction was committed. -/
  | committed (transaction : String)
  /-- A transaction was rolled back and `discarded` requests were dropped. -/
  | rolledBack (discarded : Nat) (transaction : String)
  deriving DecidableEq, Repr

namespace Entry

/-- The event of an entry; a summary reports no event. -/
def event? : Entry → Option Event
  | .statementQueued _ => some .queued
  | .recordQueued _ _ _ => some .queued
  | .executedNow _ => some .executedNow
  | .flushBegun _ _ => some .flushBegun
  | .summary _ _ => none
  | .statementsFlushed _ => some .statementsFlushed
  | .flushCompleted _ _ _ => some .flushCompleted
  | .flushFailed _ _ _ => some .flushFailed
  | .resetForced _ => some .resetForced
  | .cleared _ => some .cleared
  | .committed _ => some .committed
  | .rolledBack _ _ => some .rolledBack

def name (entry : Entry) : String :=
  match entry.event? with
  | some event => event.name
  | none => "TRANSACTION_SUMMARY"

/-- The severity of an entry; a summary belongs to normal operation. -/
def severity (entry : Entry) : Severity :=
  match entry.event? with
  | some event => event.severity
  | none => .info

def fields : Entry → List Field
  | .statementQueued size => [("kind", "statement"), ("size", toString size)]
  | .recordQueued kind root size => [("kind", kind), ("root", root), ("size", toString size)]
  | .executedNow kind => [("kind", kind)]
  | .flushBegun groups transaction => [("groups", toString groups), ("txn", transaction)]
  | .summary transaction message => [("txn", transaction), ("message", message)]
  | .statementsFlushed statements => [("statements", toString statements)]
  | .flushCompleted groups rows statements =>
      [("groups", toString groups), ("rows", toString rows), ("statements", toString statements)]
  | .flushFailed code succeeded transaction =>
      [("code", code), ("succeeded", toString succeeded), ("txn", transaction)]
  | .resetForced root => [("root", root)]
  | .cleared transaction => [("txn", transaction)]
  | .committed transaction => [("txn", transaction)]
  | .rolledBack discarded transaction =>
      [("discarded", toString discarded), ("txn", transaction)]

def message? : Entry → Option String
  | .summary _ message => some message
  | _ => none

end Entry

/-- The messages of the summaries among some entries, in order. -/
def summaries (entries : List Entry) : List String :=
  entries.filterMap Entry.message?

end Cascade.Journal
