import ChangeFeed.Pipe.Registry
import ChangeFeed.Rehearsal.World

/-!
# Pipes to rehearse with

Pipes over parts that only remember whether they are started and write down every call, under the
name of the pipe. A call that is among the faults of the pipe is written down, fails and changes
nothing.

* `Props`: what one pipe has instead of parts;
* `Stage`: several pipes, the registry they may be in, and what was called;
* `Stage.parts`, `Stage.control`: the pipes as the library wants them.
-/

namespace ChangeFeed.Rehearsal

/-- A pipe and what it has instead of parts. -/
structure Props where
  pipe : Pipe
  faults : List String
  source : Bool := false
  destination : Bool := false
  sourceListener : Bool := false
  destinationListener : Bool := false
  last : Option Mutation := none
  checkpointer : Option Nat := none

/-- Pipes by name in the order they came up, a registry of some of them, and the calls of their
parts. -/
structure Stage where
  props : List (String × Props) := []
  calls : List String := []
  registry : Registry String := .empty

namespace Stage

/-- Is there a pipe of the name? -/
def has (n : String) (s : Stage) : Bool := (s.props.lookup n).isSome

/-- One more pipe. -/
def enter (n : String) (period : Option Nat) (faults : List String) (s : Stage) : Stage :=
  { s with props := s.props ++ [(n, { pipe := ⟨n, period⟩, faults })] }

/-- Changes what a pipe has. -/
def put (n : String) (f : Props → Props) : StateM Stage Unit :=
  modify fun s => { s with props := s.props.map fun e => if e.1 = n then (n, f e.2) else e }

/-- Looks at what a pipe has. -/
def see {α : Type} (n : String) (d : α) (f : Props → α) : StateM Stage α :=
  return (((← get).props.lookup n).map f).getD d

/-- Writes down a call that cannot fail. -/
def note (n call : String) : StateM Stage Unit :=
  modify fun s => { s with calls := s.calls ++ [n ++ "." ++ call] }

/-- A call on the source or the destination of a pipe. -/
def call (n : String) (fault : String → Error) (part act arguments : String) (f : Props → Props) :
    StateM Stage (Except Error Unit) := do
  let name := part ++ "." ++ act
  note n (name ++ arguments)
  if ← see n false (·.faults.contains name) then return .error (fault (n ++ " " ++ act))
  else
    put n f
    return .ok ()

/-- A call on the source of a pipe. -/
def callSource (n : String) := call n .source "source"

/-- A call on the destination of a pipe. -/
def callDestination (n : String) := call n .destination "destination"

/-- The parts of a pipe. `word` is how a failure class is called. -/
def parts (word : Error → String) (n : String) : PipeParts (StateM Stage) where
  addSourceListener := do
    note n "source.add_listener"
    put n fun p => { p with sourceListener := true }
  removeSourceListener := do
    note n "source.remove_listener"
    put n fun p => { p with sourceListener := false }
  openSource := callSource n "open" "" fun p => { p with source := true }
  closeSource := callSource n "close" "" fun p => { p with source := false }
  sourceStarted := see n false (·.source)
  checkpointSource m? :=
    callSource n "checkpoint" ("(" ++ ((m?.map fun m => idText m.id).getD "none") ++ ")") id
  addDestinationListener := do
    note n "destination.add_listener"
    put n fun p => { p with destinationListener := true }
  removeDestinationListener := do
    note n "destination.remove_listener"
    put n fun p => { p with destinationListener := false }
  openDestination := callDestination n "open" "" fun p => { p with destination := true }
  closeDestination := callDestination n "close" "" fun p => { p with destination := false }
  destinationStarted := see n false (·.destination)
  send ms := callDestination n "send" (idsText ms) fun p => { p with last := ms.getLast?.or p.last }
  lastPublished := see n none (·.last)
  openMetrics := note n "metrics.open"
  closeMetrics := note n "metrics.close"
  countReceived k := note n ("metrics.received(" ++ Text.decimal k ++ ")")
  countPublished k := note n ("metrics.published(" ++ Text.decimal k ++ ")")
  countError e := note n ("metrics.error(" ++ word e ++ ")")
  countCheckpoint := note n "metrics.checkpoint"
  startCheckpointer period := do
    put n fun p => { p with checkpointer := some period }
    return .ok ()
  stopCheckpointer := do
    put n fun p => { p with checkpointer := none }
    return .ok ()

/-- How the pipes are started and stopped, by name. -/
def control (word : Error → String) : PipeControl String (StateM Stage) where
  start n := do
    let p ← see n ⟨n, none⟩ (·.pipe)
    p.start (parts word n)
  stop n := Pipe.stop (parts word n)

/-- Uses the registry. -/
def withRegistry (f : Registry String → StateM Stage (Except Error Unit × Registry String)) :
    StateM Stage (Except Error Unit) := do
  let (r, registry) ← f (← get).registry
  modify fun s => { s with registry }
  return r

/-- The names of the pipes that are started. -/
def started (s : Stage) : List String :=
  (s.props.filter fun e => e.2.source && e.2.destination).map (·.1)

/-- Begins a new page of calls. -/
def turnPage (s : Stage) : Stage := { s with calls := [] }

end Stage

end ChangeFeed.Rehearsal
