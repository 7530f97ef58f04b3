import ChangeFeed.Pipe.Basic

/-!
# Registries of pipes

Pipes in groups by name and partition. A registry starts the pipes it is given and stops those it
lets go.

**State.** `Registry`: a slot for each key in use. A key gets its slot before its pipes are started,
and a group may have no pipes, so slots may be empty; keys with an empty slot are not shown.

**Operations.**
* `PipeKey`: name and partition, in their order;
* `Registry.add`: all pipes of a list or, if one of them does not start, none;
* `Registry.remove`, `Registry.stopAll`: the pipes of a key, and all;
* `Registry.get`, `keys`, `count`, `isEmpty`: what is registered.

How a pipe is started and stopped is given as actions of a monad.
-/

namespace ChangeFeed

/-- A name and a partition. -/
structure PipeKey where
  name : String
  partition : String
  deriving DecidableEq, Repr, Inhabited

namespace PipeKey

/-- The order by name, then by partition. -/
def compare (a b : PipeKey) : Ordering :=
  (Ord.compare a.name b.name).then (Ord.compare a.partition b.partition)

/-- Does a key come before another, or is it the same? -/
def le (a b : PipeKey) : Bool := compare a b != .gt

/-- The text of a key. -/
def render (k : PipeKey) : String := k.name ++ "/" ++ k.partition

end PipeKey

/-- How pipes of type `π` are started and stopped. -/
structure PipeControl (π : Type) (m : Type → Type) where
  start : π → m (Except Error Unit)
  stop : π → m (Except Error Unit)

/-- Pipes by key. A key has one slot at most. -/
structure Registry (π : Type) where
  slots : List (PipeKey × List π)
  nodup : (slots.map (·.1)).Nodup

namespace Registry

variable {π : Type} {m : Type → Type} [Monad m]

/-- No pipes. -/
def empty : Registry π := ⟨[], List.nodup_nil⟩

instance : Inhabited (Registry π) := ⟨empty⟩

/-! ## Slots -/

/-- The slot of a key. -/
def slot? (k : PipeKey) (r : Registry π) : Option (List π) := r.slots.lookup k

/-- The registry without the slot of a key. -/
def erase (k : PipeKey) (r : Registry π) : Registry π where
  slots := r.slots.filter fun s => s.1 != k
  nodup := r.nodup.sublist (List.filter_sublist.map _)

/-- Puts pipes into the slot of a key. -/
def put (k : PipeKey) (ps : List π) (r : Registry π) : Registry π where
  slots := (k, ps) :: (r.erase k).slots
  nodup := List.nodup_cons.2 ⟨by simp [erase], (r.erase k).nodup⟩

/-- Sees to it that a key has a slot. -/
def claim (k : PipeKey) (r : Registry π) : Registry π :=
  match r.slot? k with
  | some _ => r
  | none => r.put k []

/-- Gives up the slot of a key if it is empty. -/
def release (k : PipeKey) (r : Registry π) : Registry π :=
  match r.slot? k with
  | some [] => r.erase k
  | _ => r

/-! ## What is registered -/

/-- The pipes of a key. -/
def get (k : PipeKey) (r : Registry π) : List π := (r.slot? k).getD []

/-- The keys that have pipes, in order. -/
def keys (r : Registry π) : List PipeKey :=
  ((r.slots.filter fun s => !s.2.isEmpty).map (·.1)).mergeSort PipeKey.le

/-- How many pipes there are. -/
def count (r : Registry π) : Nat := (r.slots.flatMap (·.2)).length

/-- Is there no pipe? -/
def isEmpty (r : Registry π) : Bool := r.count == 0

/-! ## Adding and removing -/

/-- Starts pipes in order. If one fails, those started before it are stopped again, the last one
first. `done` holds them in that order. -/
def startAll (control : PipeControl π m) : List π → List π → m (Except Error Unit)
  | _, [] => return .ok ()
  | done, p :: ps => do
    match ← control.start p with
    | .ok () => startAll control (p :: done) ps
    | .error e =>
      done.forM fun q => discard (control.stop q)
      return .error e

/-- Starts pipes and registers them under a key, after those that are there. If one of them fails,
none is registered. -/
def add (control : PipeControl π m) (k : PipeKey) (ps : List π) (r : Registry π) :
    m (Except Error Unit × Registry π) := do
  let r := r.claim k
  match ← startAll control [] ps with
  | .ok () => return (.ok (), r.put k (r.get k ++ ps))
  | .error e => return (.error e, r.release k)

/-- Stops pipes in order, all of them. The first failure is the result. -/
def stopEach (control : PipeControl π m) : List π → m (Except Error Unit)
  | [] => return .ok ()
  | p :: ps => do
    let a ← control.stop p
    let b ← stopEach control ps
    return Pipe.firstError a b

/-- Stops the pipes of a key and lets them go. -/
def remove (control : PipeControl π m) (k : PipeKey) (r : Registry π) :
    m (Except Error Unit × Registry π) := do
  match r.slot? k with
  | none => return (.ok (), r)
  | some ps =>
    let result ← stopEach control ps
    return (result, (r.put k []).release k)

/-- Stops the pipes of keys and lets them go. The first failure is the result. -/
def removeEach (control : PipeControl π m) :
    List PipeKey → Registry π → m (Except Error Unit × Registry π)
  | [], r => return (.ok (), r)
  | k :: ks, r => do
    let (a, r) ← r.remove control k
    let (b, r) ← removeEach control ks r
    return (Pipe.firstError a b, r)

/-- Stops all pipes, in the order of their keys, and lets them go. -/
def stopAll (control : PipeControl π m) (r : Registry π) : m (Except Error Unit × Registry π) :=
  removeEach control r.keys r

end Registry

end ChangeFeed
