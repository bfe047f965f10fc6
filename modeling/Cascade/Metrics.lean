/-!
# Counters

Counters of what a store has been asked to do.  They are shared by all
transactions over one store and only grow; they are shown in 64 bits.
-/

namespace Cascade

/-- The counters. -/
structure Metrics where
  queued : Nat := 0
  executedNow : Nat := 0
  flushes : Nat := 0
  forcedResets : Nat := 0
  statements : Nat := 0
  flushFailures : Nat := 0
  deriving DecidableEq, Repr, Inhabited

namespace Metrics

def countQueued (m : Metrics) : Metrics := { m with queued := m.queued + 1 }

def countExecutedNow (m : Metrics) : Metrics := { m with executedNow := m.executedNow + 1 }

def countFlush (m : Metrics) : Metrics := { m with flushes := m.flushes + 1 }

def countForcedReset (m : Metrics) : Metrics := { m with forcedResets := m.forcedResets + 1 }

def addStatements (count : Nat) (m : Metrics) : Metrics :=
  { m with statements := m.statements + count }

def countFlushFailure (m : Metrics) : Metrics := { m with flushFailures := m.flushFailures + 1 }

/-- A counter as it is shown: in 64 bits, starting again at zero. -/
def shown (counter : Nat) : Nat := counter % Nat.pow 2 64

end Metrics

end Cascade
