import ChangeFeed.Destination.Basic
import ChangeFeed.Settings

/-!
# Building a destination

What a destination is built from, with a default for all but the name.

* `DestinationPlan.ofSettings`: the plan of settings;
* `DestinationPlan.build`: the destination, if no size is zero.
-/

namespace ChangeFeed

/-- What a destination is built from. One worker keeps the order of all mutations. -/
structure DestinationPlan where
  name : String
  poolSize : Nat := 1
  bufferSize : Nat := ({} : DestinationSettings).bufferSize
  batchSize : Nat := ({} : DestinationSettings).batchSize

namespace DestinationPlan

/-- The plan of settings. -/
def ofSettings (name : String) (c : DestinationSettings) : DestinationPlan :=
  ⟨name, c.poolSize, c.bufferSize, c.batchSize⟩

/-- The destination of a plan. No size may be zero. -/
def build {ι : Type} (p : DestinationPlan) : Except Error (Destination ι) :=
  if p.poolSize = 0 ∨ p.bufferSize = 0 ∨ p.batchSize = 0 then
    .error (.illegalState ("destination " ++ p.name ++ ": pool size " ++ Text.decimal p.poolSize ++
      ", buffer size " ++ Text.decimal p.bufferSize ++ " and batch size " ++
      Text.decimal p.batchSize ++ " must be positive"))
  else
    .ok
      { name := p.name
        bufferSize := p.bufferSize
        batchSize := p.batchSize
        workers := List.replicate p.poolSize .new
        tracker := .empty
        listeners := .empty
        started := false
        failed := false }

end DestinationPlan

end ChangeFeed
