import ChangeFeed.Progress.ResumePoint
import ChangeFeed.Wire.Position

/-!
# JSON form of resume points

An object with offset, time and position. The id is not written.
-/

namespace ChangeFeed

namespace ResumePoint

/-- The names of the fields. -/
def fields : List String := ["lastOffset", "lastTimestamp", "lastPosition"]

instance : JsonForm ResumePoint where
  toTree p := .ofFields
    [("lastOffset", JsonForm.toTree p.offset),
      ("lastTimestamp", JsonForm.toTree p.timestamp),
      ("lastPosition", JsonForm.toTree p.position)]
  ofTree? t := do
    let r ← Record.ofTree? fields t
    let offset ← r.need "lastOffset"
    let timestamp ← r.need "lastTimestamp"
    let position ← r.need "lastPosition"
    return ⟨noId, offset, timestamp, position⟩

end ResumePoint

end ChangeFeed
