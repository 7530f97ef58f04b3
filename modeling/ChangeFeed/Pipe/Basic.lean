import ChangeFeed.Error
import ChangeFeed.Mutation.Basic

/-!
# Pipes

A pipe wires a source to a destination, starts and stops both as a unit, and saves in the source
what the destination confirmed, when it stops and perhaps on a fixed period.

* `PipeParts`: what a pipe asks of its parts, as actions of a monad `m`. What lies between two
  actions is up to `m`: nothing if it is plain state, other threads if it is not deterministic.
* `Pipe.start`, `Pipe.stop`, `Pipe.checkpoint`: the pipe itself;
* `PipeRelay.onMutations` and the functions after it: its listeners.
-/

namespace ChangeFeed

/-- What the listeners of a pipe ask of its parts. -/
structure PipeRelay (m : Type → Type) where
  send : List Mutation → m (Except Error Unit)
  countReceived : Nat → m Unit
  countPublished : Nat → m Unit
  countError : Error → m Unit

/-- The parts of a pipe. -/
structure PipeParts (m : Type → Type) extends PipeRelay m where
  addSourceListener : m Unit
  removeSourceListener : m Unit
  openSource : m (Except Error Unit)
  closeSource : m (Except Error Unit)
  sourceStarted : m Bool
  checkpointSource : Option Mutation → m (Except Error Unit)
  addDestinationListener : m Unit
  removeDestinationListener : m Unit
  openDestination : m (Except Error Unit)
  closeDestination : m (Except Error Unit)
  destinationStarted : m Bool
  lastPublished : m (Option Mutation)
  openMetrics : m Unit
  closeMetrics : m Unit
  countCheckpoint : m Unit
  /-- Starts to make checkpoints, one every so many milliseconds. There may be no thread for it. -/
  startCheckpointer : Nat → m (Except Error Unit)
  /-- Stops that, if it was going on. Its thread may have crashed. -/
  stopCheckpointer : m (Except Error Unit)

/-- A pipe: the period of its checkpoints in milliseconds, if it makes any while it runs. -/
structure Pipe where
  name : String
  period : Option Nat
  deriving DecidableEq, Repr, Inhabited

namespace Pipe

variable {m : Type → Type} [Monad m]

/-- Is the pipe at work? -/
def isStarted (parts : PipeParts m) : m Bool := do
  if ← parts.sourceStarted then parts.destinationStarted else return false

/-- Saves the last published mutation as the resume point of the source. -/
def checkpoint (parts : PipeParts m) : m (Except Error Unit) := do
  let last ← parts.lastPublished
  match ← parts.checkpointSource last with
  | .error e => return .error e
  | .ok () =>
    if last.isSome then parts.countCheckpoint
    return .ok ()

/-- Starts the source, then the destination. If one of them fails, what was done before is undone.
That no checkpoints can be made is a failure of the start as well, and undoes nothing. -/
def start (p : Pipe) (parts : PipeParts m) : m (Except Error Unit) := do
  if ← isStarted parts then return .ok ()
  parts.addSourceListener
  match ← parts.openSource with
  | .error e =>
    parts.removeSourceListener
    return .error e
  | .ok () =>
    parts.addDestinationListener
    match ← parts.openDestination with
    | .error e =>
      parts.removeDestinationListener
      parts.removeSourceListener
      let _ ← parts.closeSource
      return .error e
    | .ok () =>
      parts.openMetrics
      let _ ← parts.stopCheckpointer
      match p.period with
      | some period => parts.startCheckpointer period
      | none => return .ok ()

/-- The first failure of two results. -/
def firstError (a b : Except Error Unit) : Except Error Unit :=
  match a with
  | .error e => .error e
  | .ok () => b

/-- Makes a last checkpoint and stops the source, then the destination. Every step is taken even if
one before it failed; the first failure is the result. -/
def stop (parts : PipeParts m) : m (Except Error Unit) := do
  let clock ← parts.stopCheckpointer
  let saved ← checkpoint parts
  parts.removeSourceListener
  let source ← parts.closeSource
  parts.removeDestinationListener
  let destination ← parts.closeDestination
  parts.closeMetrics
  return firstError clock (firstError saved (firstError source destination))

end Pipe

namespace PipeRelay

variable {m : Type → Type} [Monad m]

/-- What the pipe does with mutations of its source: it sends them on. -/
def onMutations (relay : PipeRelay m) (ms : List Mutation) : m (Except Error Unit) := do
  relay.countReceived ms.length
  match ← relay.send ms with
  | .error e =>
    relay.countError e
    return .error e
  | .ok () => return .ok ()

/-- What the pipe does with a failure of its source or destination. -/
def onError (relay : PipeRelay m) (e : Error) : m Unit := relay.countError e

/-- What the pipe does when its destination has published mutations. -/
def onSend (relay : PipeRelay m) (ms : List Mutation) : m Unit := relay.countPublished ms.length

end PipeRelay

end ChangeFeed
