import LedgerClient.Fault
import LedgerClient.Json.Value

/-!
# Deadlines

A request waits for its reply until a deadline. The clock has a least step, and a deadline less
than one step ahead has passed.

## Main definitions

* `Deadline.hasPassed`: a time of the clock is up
* `Deadline.fault`: what a caller is told whose reply is late
-/

namespace LedgerClient.Deadline

/-- The least time that the clock tells apart, in seconds. -/
def clockStep : Float := 1e-9

/-- The deadline has passed at a time. -/
def hasPassed (deadline time : Float) : Bool :=
  deadline < time + clockStep

/-- The fault of a reply that did not come within a number of seconds. -/
def fault (timeout : Float) : Fault :=
  .timedOut s!"no reply within {Json.Value.displayFloat timeout}s"

end LedgerClient.Deadline
