import ChangeFeed.Destination.Basic

/-!
# A plain order of work

The steps of a destination in the plainest of all orders: whenever something was put into queues,
each worker in turn works its queue off, in batches as large as they may be, before anything else
happens.

* `Destination.settle`: the workers work their queues off;
* `Destination.deliver`: mutations are sent one by one, each worked off before the next;
* `Destination.shut`: closing.
-/

namespace ChangeFeed.Destination

variable {ι ω : Type}

/-- A worker acknowledges dispatches, `n` steps long. -/
def acknowledgeMany (outlet : Outlet ι ω) (i : Nat) :
    Nat → Destination ι → ω → Destination ι × ω
  | 0, d, w => (d, w)
  | n + 1, d, w =>
    let (d, w) := d.acknowledge outlet i w
    acknowledgeMany outlet i n d w

/-- The queue of a worker. -/
def queueOf (i : Nat) (d : Destination ι) : List WorkerMessage :=
  match d.workers[i]? with
  | some k => k.queue
  | none => []

/-- A worker gathers one batch and deals with it. -/
def workBatch (outlet : Outlet ι ω) (i : Nat) (d : Destination ι) (w : ω) : Destination ι × ω :=
  let n := min d.batchSize (d.queueOf i).length
  let d := (d.modify i (·.collect d.batchSize n)).begin i
  let (d, w) := d.conclude outlet i w
  let (d, w) := d.announce outlet i w
  let (d, w) := acknowledgeMany outlet i (n + 1) d w
  (d.leave i, w)

/-- A worker deals with up to `n` batches. -/
def workBatches (outlet : Outlet ι ω) (i : Nat) : Nat → Destination ι → ω → Destination ι × ω
  | 0, d, w => (d, w)
  | n + 1, d, w =>
    let (d, w) := d.workBatch outlet i w
    workBatches outlet i n d w

/-- The workers with the given numbers work their queues off. Each batch takes a message at least.
-/
def settleEach (outlet : Outlet ι ω) : List Nat → Destination ι → ω → Destination ι × ω
  | [], d, w => (d, w)
  | i :: is, d, w =>
    let (d, w) := workBatches outlet i (d.queueOf i).length d w
    settleEach outlet is d w

/-- All workers work their queues off. -/
def settle (outlet : Outlet ι ω) (d : Destination ι) (w : ω) : Destination ι × ω :=
  settleEach outlet (List.range d.poolSize) d w

/-- Sends mutations one by one. Before each of them and at the end the queues are worked off, so
none has to wait for room while the worker of the queue runs. -/
def deliver (outlet : Outlet ι ω) : List Mutation → Destination ι → ω → Sending × Destination ι × ω
  | [], d, w => (.sent, d, w)
  | m :: ms, d, w =>
    match d.send [m] with
    | (.sent, d) =>
      let (d, w) := d.settle outlet w
      deliver outlet ms d w
    | (.failed e, d) => (.failed e, d, w)
    | (.waits i x _, d) => (.waits i x ms, d, w)

/-- The threads find room for their batches, or crash. -/
def reserve (outlet : Outlet ι ω) (d : Destination ι) : Destination ι :=
  if outlet.hasRoom d.batchSize then d
  else (List.range d.poolSize).foldl (fun d i => d.crash i) d

/-- Opens the destination and lets the workers work off what was queued. -/
def launch (outlet : Outlet ι ω) (d : Destination ι) (w : ω) :
    Except Error Unit × Destination ι × ω :=
  let (r, d) := d.openPool
  let (d, w) := (d.reserve outlet).settle outlet w
  (r, d, w)

/-- Closes the destination once the workers have worked their queues off. -/
def shut (outlet : Outlet ι ω) (d : Destination ι) (w : ω) :
    Except Error Unit × Destination ι × ω :=
  let (d, w) := d.settle outlet w
  let (d, w) := d.stopAll.settle outlet w
  let (r, d) := d.closePool
  (r, d, w)

end ChangeFeed.Destination
