/-!
# Severities

How much an entry of the journal, or a failure, matters.
-/

namespace Cascade

/-- The severities, from the least to the greatest. -/
inductive Severity where
  | trace
  | info
  | warn
  | error
  | fatal
  deriving DecidableEq, Repr, Inhabited

namespace Severity

/-- The place of a severity, counted from the least. -/
def rank : Severity → Nat
  | .trace => 0
  | .info => 1
  | .warn => 2
  | .error => 3
  | .fatal => 4

/-- The name of a severity as it is written out. -/
def name : Severity → String
  | .trace => "TRACE"
  | .info => "INFO"
  | .warn => "WARN"
  | .error => "ERROR"
  | .fatal => "FATAL"

def all : List Severity := [.trace, .info, .warn, .error, .fatal]

/-- Whether a severity matters at least as much as another. -/
def atLeast (severity least : Severity) : Bool :=
  least.rank ≤ severity.rank

end Severity

end Cascade
