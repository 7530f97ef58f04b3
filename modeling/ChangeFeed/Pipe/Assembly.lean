import ChangeFeed.Destination.Schedule
import ChangeFeed.Pipe.Basic
import ChangeFeed.Pipe.Metrics
import ChangeFeed.Source.Basic

/-!
# A pipe with its parts

A pipe over a source, a destination and metrics, as one value. Calls come one after the other, and
what the source sends is published, in the plain order of work, before it reads on.

* `Assembly`: all that changes while the pipe runs;
* `Environment`: the world around it: where progress is kept, the client of the server, the
  publisher, and the listeners that do not belong to the pipe;
* `Assembly.parts`: the assembly as the parts of a pipe;
* `Assembly.read`: one turn of the reading thread.
-/

namespace ChangeFeed

/-- Who listens to a source or destination. -/
inductive Ear where
  | pipe
  | other (name : String)
  deriving DecidableEq, Repr

/-- What the source of a pipe acts on: the destination, the metrics and the world. -/
structure Downstream (ω : Type) where
  destination : Destination Ear
  metrics : Metrics
  world : ω

/-- A pipe with its parts. -/
structure Assembly (σ ω : Type) where
  source : Source Ear σ
  down : Downstream ω
  /-- The period of the checkpoints that are being made, in milliseconds. -/
  checkpointer : Option Nat

/-- The world around a pipe. -/
structure Environment (σ ω : Type) where
  store : Store σ
  client : LogClient ω
  /-- The listeners of the source that do not belong to the pipe. -/
  audience : SourceAudience String ω
  /-- The publisher, and the listeners of the destination that do not belong to the pipe. -/
  outlet : Outlet String ω

namespace Environment

variable {σ ω : Type}

/-- The client, acting on all that is downstream. -/
def downstreamClient (env : Environment σ ω) : LogClient (Downstream ω) where
  connect p d :=
    let (r, world) := env.client.connect p d.world
    (r, { d with world })
  next d :=
    let (r, world) := env.client.next d.world
    (r, { d with world })
  disconnect d := { d with world := env.client.disconnect d.world }

/-- The publisher, and all listeners of the destination. -/
def fullOutlet (env : Environment σ ω) : Outlet Ear (Metrics × ω) where
  hasRoom := env.outlet.hasRoom
  publish i ms w :=
    let (v, world) := env.outlet.publish i ms w.2
    (v, w.1, world)
  onSend i
    | .pipe, ms, w => (w.1.publishes ms.length, w.2)
    | .other name, ms, w => (w.1, env.outlet.onSend i name ms w.2)
  onError i
    | .pipe, _, w => (w.1.fails, w.2)
    | .other name, e, w => (w.1, env.outlet.onError i name e w.2)

/-- Acts on the destination with its world. -/
def within {α : Type} (d : Downstream ω)
    (f : Destination Ear → Metrics × ω → α × Destination Ear × Metrics × ω) : α × Downstream ω :=
  let (a, destination, metrics, world) := f d.destination (d.metrics, d.world)
  (a, ⟨destination, metrics, world⟩)

/-- Changes the metrics. -/
def onMetrics (f : Metrics → Metrics) : OptionT (StateM (Downstream ω)) Unit :=
  modify fun d => { d with metrics := f d.metrics }

/-- What is downstream as the parts that the listeners of a pipe ask. A call to send that nobody
makes room for does not come back. -/
def relay (env : Environment σ ω) : PipeRelay (OptionT (StateM (Downstream ω))) where
  send ms := OptionT.mk <| modifyGet fun d =>
    match within d (Destination.deliver env.fullOutlet ms) with
    | (.sent, d) => (some (.ok ()), d)
    | (.failed e, d) => (some (.error e), d)
    | (.waits .., d) => (none, d)
  countReceived n := onMetrics (·.receives n)
  countPublished n := onMetrics (·.publishes n)
  countError _ := onMetrics (·.fails)

/-- What the pipe does with mutations of its source. -/
def sendDown (env : Environment σ ω) (ms : List Mutation) (d : Downstream ω) :
    Verdict × Downstream ω :=
  match (env.relay.onMutations ms).run.run d with
  | (some (.ok ()), d) => (.accepted, d)
  | (some (.error e), d) => (.refused e, d)
  | (none, d) => (.crashed, d)

/-- All listeners of the source. -/
def fullAudience (env : Environment σ ω) : SourceAudience Ear (Downstream ω) where
  onEvent
    | .pipe, _, d => d
    | .other name, e, d => { d with world := env.audience.onEvent name e d.world }
  onMutations
    | .pipe, ms, d => env.sendDown ms d
    | .other name, ms, d =>
      let (v, world) := env.audience.onMutations name ms d.world
      (v, { d with world })
  onError
    | .pipe, _, d => { d with metrics := d.metrics.fails }
    | .other name, e, d => { d with world := env.audience.onError name e d.world }

end Environment

namespace Assembly

variable {σ ω : Type}

/-- The assembly in another world. -/
def inWorld (a : Assembly σ ω) (w : ω) : Assembly σ ω :=
  { a with down := { a.down with world := w } }

/-- Changes who listens to the source. -/
def listen (a : Assembly σ ω) (f : Listeners Ear → Listeners Ear) : Assembly σ ω :=
  { a with source := { a.source with listeners := f a.source.listeners } }

/-- Acts on the source and what is downstream. -/
def throughSource {α : Type}
    (f : Source Ear σ → Downstream ω → α × Source Ear σ × Downstream ω) : StateM (Assembly σ ω) α :=
  modifyGet fun a =>
    let (r, source, down) := f a.source a.down
    (r, { a with source, down })

/-- Changes the destination. -/
def onDestination (f : Destination Ear → Destination Ear) : StateM (Assembly σ ω) Unit :=
  modify fun a => { a with down := { a.down with destination := f a.down.destination } }

/-- Acts on the destination with its world. -/
def throughDestination {α : Type}
    (f : Destination Ear → Metrics × ω → α × Destination Ear × Metrics × ω) :
    StateM (Assembly σ ω) α :=
  modifyGet fun a =>
    let (r, down) := Environment.within a.down f
    (r, { a with down })

/-- Changes the metrics. -/
def onMetrics (f : Metrics → Metrics) : StateM (Assembly σ ω) Unit :=
  modify fun a => { a with down := { a.down with metrics := f a.down.metrics } }

/-- The assembly as the parts of a pipe. -/
def parts (env : Environment σ ω) : PipeParts (StateM (Assembly σ ω)) where
  addSourceListener := modify (·.listen (Listeners.add .pipe))
  removeSourceListener := modify (·.listen (Listeners.remove .pipe))
  openSource := throughSource (Source.openFeed env.downstreamClient env.store)
  closeSource := throughSource (Source.closeFeed env.downstreamClient)
  sourceStarted := return (← get).source.isStarted
  checkpointSource m? :=
    modifyGet fun a =>
      let (r, source) := a.source.checkpoint env.store m?
      (r, { a with source })
  addDestinationListener := onDestination fun d => { d with listeners := d.listeners.add .pipe }
  removeDestinationListener :=
    onDestination fun d => { d with listeners := d.listeners.remove .pipe }
  openDestination := throughDestination (Destination.launch env.fullOutlet)
  closeDestination := throughDestination (Destination.shut env.fullOutlet)
  destinationStarted := return (← get).down.destination.started
  send ms := throughDestination fun d w =>
    match d.deliver env.fullOutlet ms w with
    | (.failed e, d, w) => (.error e, d, w)
    | (_, d, w) => (.ok (), d, w)
  lastPublished := return (← get).down.destination.lastPublished
  openMetrics := onMetrics (·.opens)
  closeMetrics := onMetrics (·.closes)
  countReceived n := onMetrics (·.receives n)
  countPublished n := onMetrics (·.publishes n)
  countError _ := onMetrics (·.fails)
  countCheckpoint := onMetrics (·.checkpointed)
  startCheckpointer period :=
    modifyGet fun a => (.ok (), { a with checkpointer := some period })
  stopCheckpointer := modifyGet fun a => (.ok (), { a with checkpointer := none })

/-- Some turns of the reading thread. -/
def read (env : Environment σ ω) (n : Nat) : StateM (Assembly σ ω) Unit :=
  modify fun a =>
    let (source, down) := a.source.run env.downstreamClient env.fullAudience n a.down
    { a with source, down }

end Assembly

end ChangeFeed
