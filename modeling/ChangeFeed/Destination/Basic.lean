import ChangeFeed.Data.Fnv
import ChangeFeed.Destination.AckTracker
import ChangeFeed.Destination.Worker
import ChangeFeed.Listeners
import ChangeFeed.Text.Ascii

/-!
# Destinations

A destination publishes mutations through a pool of workers. Mutations of one key go to one worker,
so they are published in the order they were sent. After a batch could not be published nothing more
is accepted or published until the destination is opened again.

**State.** `Destination`: the workers, the tracker of acknowledgements, listeners and flags.

**Surroundings.** `Outlet`: the publisher, and what listeners do; both act on a world `ω` and learn
on which worker they are called.

**Operations.** `openPool`; `offer` and `send`, mutations into queues, by way of `assign`, `enroll`
and `place`; `stopAll` and `closePool`, the two halves of closing. What a worker does is cut into
steps that may mix with those of others in any order: `crash`, `pull`, `begin`, `answer`, `report`,
`confirm`, `leave`. With their surroundings, `answer` is `conclude`, `report` is `announce`, and
`confirm` is `acknowledge`.
-/

namespace ChangeFeed

/-- Where a destination publishes, and what its listeners do. -/
structure Outlet (ι ω : Type) where
  /-- Is there room for a batch of so many dispatches? -/
  hasRoom : Nat → Bool
  publish : Nat → List Mutation → ω → Verdict × ω
  onSend : Nat → ι → List Mutation → ω → ω
  onError : Nat → ι → Error → ω → ω

/-- A destination with listeners from `ι`. -/
structure Destination (ι : Type) where
  name : String
  bufferSize : Nat
  batchSize : Nat
  workers : List Worker
  tracker : AckTracker Mutation
  listeners : Listeners ι
  started : Bool
  failed : Bool

/-- What becomes of a mutation that is offered. -/
inductive Offer where
  | placed
  | refused (e : Error)
  /-- It waits for room in the queue of a worker. -/
  | waits (worker : Nat) (d : Dispatch)

/-- What becomes of mutations that are sent. -/
inductive Sending where
  | sent
  | failed (e : Error)
  /-- One of them waits for room in the queue of a worker, `rest` has not been looked at. -/
  | waits (worker : Nat) (d : Dispatch) (rest : List Mutation)

namespace Destination

variable {ι ω : Type}

/-- How many workers there are. -/
def poolSize (d : Destination ι) : Nat := d.workers.length

/-- How many mutations are sent and not yet confirmed. -/
def pending (d : Destination ι) : Nat := d.tracker.pendingCount

/-- The last mutation that is published together with all that were sent before it. -/
def lastPublished (d : Destination ι) : Option Mutation := d.tracker.last

/-- The worker of a key. -/
def workerOf (d : Destination ι) (key : String) : Nat :=
  (Fnv.hash (utf8 key)).toNat % d.poolSize

/-- Changes one worker. -/
def modify (i : Nat) (f : Worker → Worker) (d : Destination ι) : Destination ι :=
  { d with workers := d.workers.modify i f }

/-! ## Sending -/

/-- The worker of a mutation. With one worker no key is needed. -/
def route (d : Destination ι) (m : Mutation) : Except Error Nat :=
  if d.poolSize = 1 then .ok 0 else m.key.map d.workerOf

/-- Puts a dispatch into the queue of a worker, if there is a queue and room in it. -/
def place (i : Nat) (x : Dispatch) (d : Destination ι) : Offer × Destination ι :=
  match d.workers[i]? with
  | some w =>
    if !w.hasQueue then
      (.refused (.destination
          ("worker " ++ Text.decimal i ++ " of destination " ++ d.name ++ " is gone")),
        { d with tracker := d.tracker.cancel x.seq })
    else if w.queue.length < d.bufferSize then (.placed, d.modify i (·.push (.dispatch x)))
    else (.waits i x, d)
  | none => (.waits i x, d)

/-- Decides over a mutation: none is taken after a batch has failed, and each goes to its worker. -/
def assign (m : Mutation) (d : Destination ι) : Except Error Nat :=
  if d.failed then .error (.destination ("destination " ++ d.name ++ " failed to publish"))
  else d.route m

/-- Tracks a mutation from here on. -/
def enroll (m : Mutation) (d : Destination ι) : Dispatch × Destination ι :=
  let (seq, tracker) := d.tracker.register m
  (⟨seq, m⟩, { d with tracker })

/-- Takes a mutation in: it is tracked and goes to the queue of its worker. -/
def offer (m : Mutation) (d : Destination ι) : Offer × Destination ι :=
  match d.assign m with
  | .error e => (.refused e, d)
  | .ok i =>
    let (x, d) := d.enroll m
    place i x d

/-- Offers mutations one after the other, up to the first that is not placed. -/
def send : List Mutation → Destination ι → Sending × Destination ι
  | [], d => (.sent, d)
  | m :: ms, d =>
    match d.offer m with
    | (.placed, d) => send ms d
    | (.refused e, d) => (.failed e, d)
    | (.waits i x, d) => (.waits i x ms, d)

/-- Tries again to place a dispatch that waited, and goes on with the mutations after it. -/
def resume (i : Nat) (x : Dispatch) (rest : List Mutation) (d : Destination ι) :
    Sending × Destination ι :=
  match d.place i x with
  | (.placed, d) => send rest d
  | (.refused e, d) => (.failed e, d)
  | (.waits i x, d) => (.waits i x rest, d)

/-! ## Steps of a worker -/

/-- The thread of a worker crashes with nothing in its batch, as it does at its start if it finds no
room for batches, or after a batch if a listener crashes. -/
def crash (i : Nat) (d : Destination ι) : Destination ι :=
  d.modify i fun w => if w.isIdle then w.crash else w

/-- A worker takes one message from its queue. -/
def pull (i : Nat) (d : Destination ι) : Destination ι := d.modify i (·.pull d.batchSize)

/-- A worker turns to its batch: it gives it up if a batch has failed since the destination was
opened, and publishes it otherwise. -/
def begin (i : Nat) (d : Destination ι) : Destination ι :=
  d.modify i fun w =>
    if w.isCollecting && !w.batch.isEmpty then
      if d.failed then w.drop else { w with phase := .publishing }
    else w

/-- The batch of a worker that waits for the publisher. -/
def atPublisher (i : Nat) (d : Destination ι) : Option (List Dispatch) :=
  match d.workers[i]? with
  | some k => if k.phase = .publishing then some k.batch else none
  | none => none

/-- A worker learns what became of its batch. If it was refused, nobody else knows yet. -/
def answer (i : Nat) (v : Verdict) (d : Destination ι) : Destination ι :=
  match v with
  | .accepted => d.modify i fun k => { k with phase := .acknowledging (k.batch.map (·.seq)) }
  | .refused e => d.modify i fun k => { k with phase := .failing e }
  | .crashed => d.modify i (·.crash)

/-- The publisher answers to the batch of a worker. -/
def conclude (outlet : Outlet ι ω) (i : Nat) (d : Destination ι) (w : ω) : Destination ι × ω :=
  match d.atPublisher i with
  | some batch =>
    let (v, w) := outlet.publish i (batch.map (·.mutation)) w
    (d.answer i v, w)
  | none => (d, w)

/-- Why the batch of a worker was refused, if that is still to be told. -/
def refusal (i : Nat) (d : Destination ι) : Option Error :=
  match d.workers[i]? with
  | some k =>
    match k.phase with
    | .failing e => some e
    | _ => none
  | none => none

/-- A worker whose batch was refused gives it up. From here on the destination has failed. -/
def report (i : Nat) (d : Destination ι) : Destination ι :=
  match d.refusal i with
  | some _ => { d.modify i (·.drop) with failed := true }
  | none => d

/-- A worker whose batch was refused gives it up, and the listeners hear of the failure. -/
def announce (outlet : Outlet ι ω) (i : Nat) (d : Destination ι) (w : ω) : Destination ι × ω :=
  (d.report i,
    match d.refusal i with
    | some e => d.listeners.tell (fun l => outlet.onError i l e) w
    | none => w)

/-- A worker acknowledges the next dispatch of its published batch, and gives the batch up after the
last one. -/
def confirm (i : Nat) (d : Destination ι) : Destination ι :=
  match d.workers[i]? with
  | some k =>
    match k.phase with
    | .acknowledging (seq :: left) =>
      { d.modify i fun k => { k with phase := .acknowledging left } with
          tracker := d.tracker.ack seq }
    | .acknowledging [] => d.modify i (·.drop)
    | _ => d
  | none => d

/-- A worker acknowledges the next dispatch of its published batch. After the last one the listeners
hear of the batch. -/
def acknowledge (outlet : Outlet ι ω) (i : Nat) (d : Destination ι) (w : ω) : Destination ι × ω :=
  (d.confirm i,
    match d.workers[i]? with
    | some k =>
      if k.phase = .acknowledging [] then
        d.listeners.tell (fun l => outlet.onSend i l (k.batch.map (·.mutation))) w
      else w
    | none => w)

/-- A worker that was told to stop ends. -/
def leave (i : Nat) (d : Destination ι) : Destination ι := d.modify i (·.leave)

/-! ## Opening and closing -/

/-- Starts the workers in order, up to the first that has no queue to work on. `i` is the number of
the first one. -/
def startFrom (name : String) (i : Nat) : List Worker → Except Error Unit × List Worker
  | [] => (.ok (), [])
  | w :: ws =>
    if w.status = .parked then
      let r := startFrom name (i + 1) ws
      (r.1, w.start :: r.2)
    else
      (.error (.illegalState
        ("queue " ++ Text.decimal i ++ " of destination " ++ name ++ " is lost")), w :: ws)

/-- Starts all workers. What failed before is forgotten. -/
def openPool (d : Destination ι) : Except Error Unit × Destination ι :=
  if d.started then (.ok (), d)
  else
    let (r, workers) := startFrom d.name 0 d.workers
    (r, { d with failed := false, workers, started := r.toOption.isSome })

/-- Tells every thread to stop once its queue is done. -/
def stopAll (d : Destination ι) : Destination ι :=
  { d with
    started := false
    workers := d.workers.map fun w => if w.hasThread && w.hasQueue then w.push .stop else w }

/-- Does a thread work? -/
def isBusy (d : Destination ι) : Bool := d.workers.any fun w => w.status == .running

/-- Have all threads come to their end? -/
def isQuiet (d : Destination ι) : Bool := !d.isBusy

/-- The failure of closing, if a thread crashed: that of the last one. `i` is the number of the
first worker. -/
def crashes (name : String) (i : Nat) : List Worker → Option Error
  | [] => none
  | w :: ws =>
    match crashes name (i + 1) ws with
    | some e => some e
    | none =>
      if w.status = .crashed then
        some (.destination ("worker " ++ Text.decimal i ++ " of " ++ name ++ " panicked"))
      else none

/-- Waits for all threads to end, after they were told to. Nothing is pending afterwards, unless
there was no thread. -/
def closePool (d : Destination ι) : Except Error Unit × Destination ι :=
  if d.workers.any (·.hasThread) then
    let r :=
      match crashes d.name 0 d.workers with
      | some e => .error e
      | none => .ok ()
    (r, { d with
      started := false, workers := d.workers.map (·.join), tracker := d.tracker.discard })
  else (.ok (), { d with started := false })

end Destination

end ChangeFeed
