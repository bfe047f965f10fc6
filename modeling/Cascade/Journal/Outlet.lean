import Cascade.Journal.Entry

/-!
# Outlets

An outlet decides which lines are written and where: lines below its least
severity are dropped, errors always go to the error stream, and all other
lines go there too when the output stream is kept free.  What is written is
given without the line feed that a stream puts behind it.
-/

namespace Cascade.Journal

/-- The streams that lines are written to. -/
inductive Stream where
  | output
  | error
  deriving DecidableEq, Repr

/-- Which lines are written, and where. -/
structure Outlet where
  least : Severity := .info
  /-- Whether the output stream is kept free of lines. -/
  errorsOnly : Bool := false
  deriving DecidableEq, Repr

namespace Outlet

def admits (outlet : Outlet) (severity : Severity) : Bool :=
  severity.atLeast outlet.least

/-- The stream that lines of a severity are written to. -/
def stream (outlet : Outlet) (severity : Severity) : Stream :=
  if severity.atLeast .error || outlet.errorsOnly then .error else .output

/-- The line of an event with the stream it goes to, if it is written. -/
def write (outlet : Outlet) (severity : Severity) (event : String) (fields : List Field) :
    Option (Stream × String) :=
  if outlet.admits severity then some (outlet.stream severity, object severity event fields)
  else none

/-- The lines of entries with the streams they go to, without those that are dropped. -/
def writeAll (outlet : Outlet) (entries : List Entry) : List (Stream × String) :=
  entries.filterMap (fun entry => outlet.write entry.severity entry.name entry.fields)

end Outlet

end Cascade.Journal
