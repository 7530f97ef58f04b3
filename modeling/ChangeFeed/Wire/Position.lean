import ChangeFeed.Json.Form
import ChangeFeed.LogPosition

/-!
# JSON forms of transaction ids and log positions

An interval is an object of its ends, a set of transaction ids is its text, and a position is an
object whose transactions and server may be left out.
-/

namespace ChangeFeed

instance : JsonForm Interval where
  toTree i := .ofFields [("start", JsonForm.toTree i.start), ("end", JsonForm.toTree i.stop)]
  ofTree? t := do
    let r ← Record.ofTree? ["start", "end"] t
    return ⟨← r.need "start", ← r.need "end"⟩

instance : JsonForm GtidSet where
  toTree s := .ofString s.render
  ofTree? t := do
    let s : String ← JsonForm.ofTree? t
    (GtidSet.parse s).toOption

instance : JsonForm LogPosition where
  toTree p := .ofFields
    [("fileName", JsonForm.toTree p.file), ("position", JsonForm.toTree p.position),
      ("nextPosition", JsonForm.toTree p.next), ("gtidSet", JsonForm.toTree p.gtids),
      ("serverUUID", JsonForm.toTree p.server)]
  ofTree? t := do
    let r ← Record.ofTree? ["fileName", "position", "nextPosition", "gtidSet", "serverUUID"] t
    return {
      file := ← r.need "fileName"
      position := ← r.need "position"
      next := ← r.need "nextPosition"
      gtids := ← r.getOr "gtidSet" none
      server := ← r.getOr "serverUUID" none }

end ChangeFeed
