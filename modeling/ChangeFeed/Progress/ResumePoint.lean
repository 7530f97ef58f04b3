import ChangeFeed.Mutation.Basic

/-!
# Resume points

How far a source has come, and where its next attempt begins.
-/

namespace ChangeFeed

/-- How far a source has come: the id, offset and time of the last mutation that is safe, and the
position to resume from. -/
structure ResumePoint where
  id : Int64
  offset : Int64
  timestamp : Int64
  position : LogPosition
  deriving DecidableEq, Inhabited

namespace ResumePoint

/-- The id of a point that no mutation made. -/
def noId : Int64 := -1

/-- A point that no mutation made. -/
def new (timestamp offset : Int64) (position : LogPosition) : ResumePoint :=
  ⟨noId, offset, timestamp, position⟩

/-- The point before the first mutation. -/
def initial (position : LogPosition) : ResumePoint := new 0 0 position

/-- The point after a mutation. It is the beginning of the mutation's transaction where that is
known, so a transaction that is delivered in part is read again as a whole. -/
def after (m : RowMutation) : ResumePoint :=
  let c := m.context
  { id := c.stamp.id
    offset := c.position.position.toInt64
    timestamp := c.stamp.timestamp
    position := (c.transaction.map (·.position)).getD c.position }

theorem position_after (m : RowMutation) :
    (after m).position = (m.context.transaction.map (·.position)).getD m.context.position :=
  rfl

end ResumePoint

end ChangeFeed
