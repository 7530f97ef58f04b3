import ChangeFeed.Destination.Basic
import ChangeFeed.Source.Client

/-!
# A world to rehearse in

A server, a message bus and listeners that do as they are told and keep a journal, so that sources
and destinations can be run without any of the real ones.

* `World`: the log that the server plays, the faults that are asked for, and the journal;
* `World.client`: the server. It plays its log from the beginning after every connection.
* `World.outlet`: the bus, and listeners of a destination;
* `World.audience`: listeners of a source.
-/

namespace ChangeFeed.Rehearsal

/-- An entry of the log of a server. Faults and crashes happen once. -/
inductive Entry where
  | event (e : LogEvent)
  | fault (e : Error)
  | crash

/-- How the publishing of a batch ended. -/
inductive Outcome where
  | published
  | failed
  | crashed
  deriving DecidableEq, Repr

/-- A batch that a worker tried to publish. -/
structure Batch where
  worker : Nat
  mutations : List Mutation
  outcome : Outcome
  deriving DecidableEq

/-- A line of the journal and the worker it was written on. Sources write on worker zero. -/
structure Line where
  worker : Nat
  text : String
  deriving DecidableEq, Repr

/-- The faults of a listener: the ids of mutations that it refuses, and of those it crashes on. -/
structure ListenerFaults where
  refused : List (String × List Int64) := []
  crashing : List (String × List Int64) := []
  deriving Inhabited

/-- Server, bus and listeners. -/
structure World where
  journal : List Line := []
  batches : List Batch := []
  /-- The ids of mutations that the bus refuses, and of those it crashes on. -/
  refused : List Int64 := []
  crashing : List Int64 := []
  listenerFaults : ListenerFaults := {}
  /-- The beginning of the names of listeners that write nothing into the journal. -/
  silent : Option String := none
  /-- What the current connection has played. -/
  past : List Entry := []
  ahead : List Entry := []
  /-- The offsets that the server no longer has. -/
  purged : List UInt64 := []
  /-- Why the server refuses connections, if it does. -/
  closed : Option Error := none
  deriving Inhabited

/-- The text of an id. -/
def idText (id : Int64) : String := Text.decimalInt id.toInt

/-- The ids of mutations between parentheses. -/
def idsText (ms : List Mutation) : String :=
  "(" ++ ",".intercalate (ms.map fun m => idText m.id) ++ ")"

/-- The refusal of the first mutation whose id is among `ids`. -/
def refusal (who : String) (ids : List Int64) (ms : List Mutation) : Verdict :=
  match ms.find? fun m => ids.contains m.id with
  | some m => .refused (.destination (who ++ " refused " ++ idText m.id))
  | none => .accepted

/-- Has a mutation one of the ids? -/
def hits (ids : List Int64) (ms : List Mutation) : Bool := ms.any fun m => ids.contains m.id

namespace World

/-- Writes a line. -/
def write (worker : Nat) (text : String) (w : World) : World :=
  { w with journal := w.journal ++ [⟨worker, text⟩] }

/-- Writes what a listener heard. -/
def hear (worker : Nat) (listener text : String) (w : World) : World :=
  if w.silent.any (listener.startsWith ·) then w else w.write worker (listener ++ "." ++ text)

/-- Begins new pages: journal and batches are empty again. -/
def turnPage (w : World) : World := { w with journal := [], batches := [] }

/-- Adds entries to the log of the server. -/
def feed (es : List Entry) (w : World) : World := { w with ahead := w.ahead ++ es }

/-- Takes all entries out of the log of the server. -/
def truncate (w : World) : World := { w with past := [], ahead := [] }

/-- Makes the bus refuse some ids and crash on others. -/
def disturb (refused crashing : List Int64) (w : World) : World := { w with refused, crashing }

/-- The server, seen by a client. -/
def client : LogClient World where
  connect p w :=
    let w := w.write 0 ("connect(" ++ p.render ++ " " ++ p.server.getD "-" ++ ")")
    if w.purged.contains p.position then (.error (.lostPosition (p.render ++ " was purged")), w)
    else
      match w.closed with
      | some e => (.error e, w)
      | none => (.ok (), { w with past := [], ahead := w.past ++ w.ahead })
  next w :=
    match w.ahead with
    | [] => (.nothing, w)
    | .event e :: rest => (.event e, { w with past := w.past ++ [.event e], ahead := rest })
    | .fault e :: rest => (.failed e, { w with ahead := rest })
    | .crash :: rest => (.crashed, { w with ahead := rest })
  disconnect w := w.write 0 "disconnect"

/-- The bus, and listeners of a destination. `word` is how a failure class is called. -/
def outlet (word : Error → String) : Outlet String World where
  -- No vector has more than 2 ^ 63 - 1 bytes, and the number of a dispatch alone has eight.
  hasRoom n := decide (8 * n ≤ 0x7FFFFFFFFFFFFFFF)
  publish i ms w :=
    let tried (o : Outcome) : World := { w with batches := w.batches ++ [⟨i, ms, o⟩] }
    if hits w.crashing ms then (.crashed, tried .crashed)
    else if hits w.refused ms then (refusal "bus" w.refused ms, tried .failed)
    else (.accepted, tried .published)
  onSend i l ms w := w.hear i l ("send" ++ idsText ms)
  onError i l e w := w.hear i l ("error(" ++ word e ++ ")")

/-- Listeners of a source. `word` is how a failure class is called. -/
def audience (word : Error → String) : SourceAudience String World where
  onEvent l e w := w.hear 0 l ("event(" ++ e.typeName ++ " " ++ idText e.id ++ ")")
  onMutations l ms w :=
    let w := w.hear 0 l ("mutation" ++ idsText ms)
    if hits ((w.listenerFaults.crashing.lookup l).getD []) ms then (.crashed, w)
    else (refusal l ((w.listenerFaults.refused.lookup l).getD []) ms, w)
  onError l e w := w.hear 0 l ("error(" ++ word e ++ ")")

/-- Batches that follow each other on one worker with one outcome, as one batch. -/
def joined : List Batch → List Batch
  | [] => []
  | b :: bs =>
    match joined bs with
    | c :: cs =>
      if b.worker = c.worker ∧ b.outcome = c.outcome then
        { b with mutations := b.mutations ++ c.mutations } :: cs
      else b :: c :: cs
    | [] => [b]

/-- The batches by worker. -/
def batchesByWorker (w : World) : List Batch :=
  w.batches.mergeSort fun a b => decide (a.worker ≤ b.worker)

/-- The journal by worker. -/
def journalByWorker (w : World) : List Line :=
  w.journal.mergeSort fun a b => decide (a.worker ≤ b.worker)

end World

end ChangeFeed.Rehearsal
