import ChangeFeed.Mutation.Basic

/-!
# Workers of a destination

A worker takes dispatches from its queue, gathers them in a batch, publishes the batch and
acknowledges what was published, one dispatch after the other.

**State.** `Worker`: the queue, the batch, how far the worker is with it, and whether there is a
thread that works.

**Operations.** `pull`, one message from the queue; `collect`, as many as a batch holds. What
concerns the whole destination is in `ChangeFeed.Destination.Basic`.
-/

namespace ChangeFeed

/-- A mutation on its way through a destination, under the number it is tracked by. -/
structure Dispatch where
  seq : Nat
  mutation : Mutation
  deriving DecidableEq, Inhabited

/-- What a queue holds. -/
inductive WorkerMessage where
  | dispatch (d : Dispatch)
  | stop
  deriving DecidableEq, Inhabited

/-- Whether a worker has a thread. -/
inductive WorkerStatus where
  /-- There is none; the queue waits for one. -/
  | parked
  | running
  /-- The thread came to its end. -/
  | exited
  /-- The thread crashed and took the queue with it, which has not been noticed yet. -/
  | crashed
  /-- There is neither thread nor queue. -/
  | lost
  deriving DecidableEq, Repr, Inhabited

/-- How far a worker is with its batch. -/
inductive WorkerPhase where
  | collecting
  | publishing
  /-- The batch was refused, and no other worker knows of it yet. -/
  | failing (e : Error)
  /-- The batch is published; these dispatches are still to be acknowledged. -/
  | acknowledging (left : List Nat)
  deriving DecidableEq, Repr, Inhabited

/-- A worker. -/
structure Worker where
  status : WorkerStatus
  queue : List WorkerMessage
  batch : List Dispatch
  phase : WorkerPhase
  /-- Has the worker been told to stop? -/
  stopping : Bool
  deriving DecidableEq, Inhabited

namespace Worker

/-- The worker before the destination is opened. -/
def new : Worker := ⟨.parked, [], [], .collecting, false⟩

/-- Is there a thread, at work or to be waited for? -/
def hasThread (w : Worker) : Bool :=
  w.status == .running || w.status == .exited || w.status == .crashed

/-- Does the queue still take messages? -/
def hasQueue (w : Worker) : Bool := w.status != .crashed && w.status != .lost

/-- Does a thread gather a batch? -/
def isCollecting (w : Worker) : Bool := w.status == .running && w.phase == .collecting

/-- Is there a thread that has nothing in its batch yet? -/
def isIdle (w : Worker) : Bool := w.isCollecting && w.batch.isEmpty

/-- Puts a message at the end of the queue. -/
def push (m : WorkerMessage) (w : Worker) : Worker := { w with queue := w.queue ++ [m] }

/-- The thread crashes: queue and batch are gone. -/
def crash (w : Worker) : Worker :=
  { w with status := .crashed, queue := [], batch := [], phase := .collecting }

/-- Starts a thread. -/
def start (w : Worker) : Worker :=
  { w with status := .running, batch := [], phase := .collecting, stopping := false }

/-- Gives the batch up. -/
def drop (w : Worker) : Worker := { w with batch := [], phase := .collecting }

/-- Takes one message from the queue, if a batch is being gathered and there is room in it. -/
def pull (batchSize : Nat) (w : Worker) : Worker :=
  if w.isCollecting && !w.stopping && w.batch.length < batchSize then
    match w.queue with
    | [] => w
    | .dispatch d :: rest => { w with queue := rest, batch := w.batch ++ [d] }
    | .stop :: rest => { w with queue := rest, stopping := true }
  else w

/-- Takes up to `n` messages from the queue. -/
def collect (batchSize : Nat) : Nat → Worker → Worker
  | 0, w => w
  | n + 1, w => collect batchSize n (w.pull batchSize)

/-- Ends the thread if it was told to stop and has no batch. -/
def leave (w : Worker) : Worker :=
  if w.isIdle && w.stopping then { w with status := .exited } else w

/-- Waits for the thread to end: an empty queue for the next one, or the loss of the queue. -/
def join (w : Worker) : Worker :=
  match w.status with
  | .running | .exited =>
    { w with status := .parked, queue := [], batch := [], phase := .collecting, stopping := false }
  | .crashed => { w with status := .lost }
  | _ => w

end Worker

end ChangeFeed
