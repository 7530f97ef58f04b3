/-!
# Metrics of a pipe

Counters, and whether the pipe counts as open. Counters go on over closing and opening again.
-/

namespace ChangeFeed

/-- What is counted about a pipe. -/
structure Metrics where
  isOpen : Bool := false
  /-- Was the pipe open before? -/
  wasOpened : Bool := false
  received : UInt64 := 0
  published : UInt64 := 0
  errors : UInt64 := 0
  checkpoints : UInt64 := 0
  deriving DecidableEq, Repr, Inhabited

namespace Metrics

/-- The pipe opens. -/
def opens (m : Metrics) : Metrics := { m with isOpen := true, wasOpened := true }

/-- The pipe closes. -/
def closes (m : Metrics) : Metrics := { m with isOpen := false }

/-- Mutations were received. -/
def receives (n : Nat) (m : Metrics) : Metrics := { m with received := m.received + UInt64.ofNat n }

/-- Mutations were published. -/
def publishes (n : Nat) (m : Metrics) : Metrics :=
  { m with published := m.published + UInt64.ofNat n }

/-- Something failed. -/
def fails (m : Metrics) : Metrics := { m with errors := m.errors + 1 }

/-- Progress was saved. -/
def checkpointed (m : Metrics) : Metrics := { m with checkpoints := m.checkpoints + 1 }

end Metrics

end ChangeFeed
