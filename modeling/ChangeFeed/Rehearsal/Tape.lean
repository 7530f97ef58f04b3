import ChangeFeed.Destination.Stream
import ChangeFeed.Rehearsal.World

/-!
# A stream to rehearse with

A tape takes bytes in pieces until it is full, and may refuse to be flushed. It holds what was
written.
-/

namespace ChangeFeed.Rehearsal

/-- A tape: how many bytes it has room for and how many it takes at a time, if that matters, and
whether it can be flushed. -/
structure Tape where
  room : Option Nat
  piece : Option Nat
  flushes : Bool

/-- The tape as a stream over the bytes written so far. -/
def Tape.sink (t : Tape) : ByteSink (List UInt8) where
  write bs written :=
    let n := min bs.length (t.piece.getD bs.length)
    let n := min n (t.room.getD (written.length + n) - written.length)
    if n = 0 then (.error "disk full", written) else (.ok n, written ++ bs.take n)
  flush written := (if t.flushes then .ok () else .error "flush refused", written)

/-- A codec that writes the id of a mutation and refuses one id. It reads nothing. -/
def idCodec (refused : Int64) : Codec where
  name := "ids"
  encode m :=
    if m.id = refused then .error (.illegalState ("refused " ++ idText m.id))
    else .ok (utf8 (idText m.id))
  decode _ := .error (.undecodable "ids are no mutations" none)

end ChangeFeed.Rehearsal
