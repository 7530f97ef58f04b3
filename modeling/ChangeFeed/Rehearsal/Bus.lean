import ChangeFeed.Destination.Schedule
import ChangeFeed.Rehearsal.World

/-!
# A destination to rehearse with

A destination whose caller may be waiting for room in a queue. Opening the destination lets the
caller go on.
-/

namespace ChangeFeed.Rehearsal

/-- A destination in a world, and the caller that waits: for which dispatch, and what it has left to
send. -/
structure Bus where
  destination : Destination String
  world : World
  waiting : Option (Nat × Dispatch × List Mutation) := none

namespace Bus

variable (outlet : Outlet String World)

/-- Acts on the destination with its world. -/
def through {α : Type} (b : Bus)
    (f : Destination String → World → α × Destination String × World) : α × Bus :=
  let (a, destination, world) := f b.destination b.world
  (a, { b with destination, world })

/-- Changes the listeners. -/
def listen (b : Bus) (f : Listeners String → Listeners String) : Bus :=
  { b with destination := { b.destination with listeners := f b.destination.listeners } }

/-- Opens the destination. -/
def launch (b : Bus) : Except Error Unit × Bus := b.through (Destination.launch outlet)

/-- Lets the caller that waits go on. -/
def release (b : Bus) : Option Sending × Bus :=
  match b.waiting with
  | none => (none, b)
  | some (i, x, rest) =>
    let (s, b) := { b with waiting := none }.through fun d w =>
      let (s, d) := d.resume i x []
      let (d, w) := d.settle outlet w
      match s with
      | .sent => d.deliver outlet rest w
      | s => (s, d, w)
    (some s, b)

/-- Closes the destination. -/
def shut (b : Bus) : Except Error Unit × Bus := b.through (Destination.shut outlet)

/-- Sends mutations: one by one while a worker is at work, all at once otherwise. -/
def send (ms : List Mutation) (b : Bus) : Sending × Bus :=
  let (s, b) := b.through fun d w =>
    if d.isBusy then d.deliver outlet ms w
    else
      let (s, d) := d.send ms
      (s, d, w)
  match s with
  | .waits i x rest => (s, { b with waiting := some (i, x, rest) })
  | s => (s, b)

end Bus

end ChangeFeed.Rehearsal
