import ChangeFeed.Destination.Codec
import ChangeFeed.Text.Ascii

/-!
# Publishing to a stream of bytes

Each mutation is one line: its encoded form and a line feed. A batch is encoded as a whole before
anything is written, then written and flushed.

* `ByteSink`: a stream that takes bytes, some at a time;
* `ByteSink.writeAll`: all bytes, as long as the stream takes them;
* `publishLines`: a batch.
-/

namespace ChangeFeed

/-- A stream of bytes in a world `ω`. A failure is told by a text. -/
structure ByteSink (ω : Type) where
  /-- How many of the given bytes the stream took. -/
  write : List UInt8 → ω → Except String Nat × ω
  flush : ω → Except String Unit × ω

namespace ByteSink

variable {ω : Type}

/-- Writes all bytes. A stream that takes none has failed. -/
def writeAll (sink : ByteSink ω) (bs : List UInt8) (w : ω) : Except String Unit × ω :=
  match bs with
  | [] => (.ok (), w)
  | b :: rest =>
    match sink.write (b :: rest) w with
    | (.error e, w) => (.error e, w)
    | (.ok 0, w) => (.error "failed to write whole buffer", w)
    | (.ok (n + 1), w) => writeAll sink (rest.drop n) w
termination_by bs.length
decreasing_by simp only [List.length_drop, List.length_cons]; omega

end ByteSink

/-- The lines of mutations. -/
def encodeLines (codec : Codec) : List Mutation → Except Error (List UInt8)
  | [] => .ok []
  | m :: ms => do
    let line ← codec.encode m
    let rest ← encodeLines codec ms
    return line ++ Ascii.lineFeed :: rest

/-- Publishes a batch to a stream. -/
def publishLines {ω : Type} (codec : Codec) (sink : ByteSink ω) (ms : List Mutation) (w : ω) :
    Except Error Unit × ω :=
  match encodeLines codec ms with
  | .error e => (.error e, w)
  | .ok bytes =>
    let fault (e : String) : Error :=
      .destination ("publish " ++ Text.decimal ms.length ++ " mutations failed: " ++ e)
    match sink.writeAll bytes w with
    | (.error e, w) => (.error (fault e), w)
    | (.ok (), w) =>
      match sink.flush w with
      | (.error e, w) => (.error (fault e), w)
      | (.ok (), w) => (.ok (), w)

end ChangeFeed
