import ChangeFeed.Progress.History
import ChangeFeed.Source.Client
import ChangeFeed.Source.Reader

/-!
# Sources

A source reads the log of a server through a client, from a resume point on, and hands what it reads
to its listeners. It keeps its resume point and the history of earlier ones in a store, and goes
back in the history when the server no longer has a position.

**State.** `Source`: progress, counters, the reader of the last attempt, and the state of the
connection.

**Operations.** `startPoint`, where the next attempt begins; `openFeed` and `closeFeed`; `step`, one
turn of the reading thread; `checkpoint`, after a mutation is safe.
-/

namespace ChangeFeed

/-- Who has the client of a source. -/
inductive Connection where
  /-- The source. -/
  | idle
  /-- The reading thread. -/
  | reading
  /-- The reading thread, which has ended. -/
  | ended
  /-- Nobody: the reading thread crashed, which has not been noticed yet. -/
  | crashed
  /-- Nobody. -/
  | lost
  deriving DecidableEq, Repr, Inhabited

/-- A source, its listeners from `ι` and its progress in a store that holds a `σ`. -/
structure Source (ι σ : Type) where
  name : String
  tables : List String
  initialPosition : LogPosition
  stored : σ
  history : History
  /-- The resume point that the source believes to be stored. -/
  saved : Option ResumePoint
  /-- Attempts in a row that ended because a position was lost. -/
  failures : Nat
  violations : Nat
  /-- What the last attempt knows. -/
  reader : Reader
  connection : Connection
  listeners : Listeners ι

namespace Source

variable {ι σ ω : Type}

/-- Where the mutations of the source come from. -/
def dataSource (s : Source ι σ) : DataSource := s.reader.mapper.dataSource

/-- Is the source at work, as far as anybody noticed? -/
def isStarted (s : Source ι σ) : Bool := s.connection == .reading || s.connection == .crashed

/-- How many table schemas the source has. -/
def tableCount (s : Source ι σ) : Nat := s.reader.mapper.cache.size

/-- The point before the first mutation. -/
def initialPoint (s : Source ι σ) : ResumePoint := .initial s.initialPosition

/-! ## Opening and closing -/

/-- Goes back by as many points as attempts failed, at most to the initial one, and stores where
that leads. -/
def rollBack (store : Store σ) (s : Source ι σ) : Except Error ResumePoint × Source ι σ :=
  let n := min s.failures s.history.size
  let (r, history, stored) :=
    if n = 0 then (.ok none, s.history, s.stored) else s.history.removeLast store n s.stored
  let s := { s with history, stored }
  match r with
  | .error e => (.error e, s)
  | .ok top =>
    let p := top.getD s.initialPoint
    let (r, stored) := store.savePoint p s.stored
    (r.map fun _ => p, { s with stored })

/-- Where the next attempt begins: at the stored point, or further back if attempts failed. The
history has that point on top afterwards. -/
def startPoint (store : Store σ) (s : Source ι σ) : Except Error ResumePoint × Source ι σ :=
  let (r, s) :=
    if s.failures = 0 then ((store.readPoint s.stored).map fun p => p.getD s.initialPoint, s)
    else s.rollBack store
  match r with
  | .error e => (.error e, s)
  | .ok p =>
    if s.history.last? = some p then (.ok p, s)
    else
      let (r, history, stored) := s.history.add store p s.stored
      (r.map fun _ => p, { s with history, stored })

/-- One more failed attempt if a position was lost. -/
def countFailure (e : Error) (s : Source ι σ) : Source ι σ :=
  if e.isLostPosition then { s with failures := s.failures + 1 } else s

theorem countFailure_eq (e : Error) (s : Source ι σ) :
    ∃ n, s.countFailure e = { s with failures := n } := by
  unfold countFailure
  split
  · exact ⟨_, rfl⟩
  · exact ⟨s.failures, rfl⟩

/-- Begins an attempt with a client at rest. -/
def attempt (client : LogClient ω) (store : Store σ) (s : Source ι σ) (w : ω) :
    Except Error Unit × Source ι σ × ω :=
  match s.startPoint store with
  | (.error e, s) => (.error e, s, w)
  | (.ok p, s) =>
    match client.connect p.position w with
    | (.error e, w) => (.error e, s.countFailure e, w)
    | (.ok (), w) =>
      let reader := Reader.start s.tables p.position s.reader.mapper
      (.ok (), { s with saved := some p, reader, connection := .reading }, w)

/-- Starts to read. A source that is at work goes on. -/
def openFeed (client : LogClient ω) (store : Store σ) (s : Source ι σ) (w : ω) :
    Except Error Unit × Source ι σ × ω :=
  match s.connection with
  | .reading | .crashed => (.ok (), s, w)
  | .lost => (.error (.illegalState ("binlog client of source " ++ s.name ++ " is in use")), s, w)
  | .idle | .ended => attempt client store { s with connection := .idle } w

/-- Stops to read. A crash of the reading thread is noticed here. -/
def closeFeed (client : LogClient ω) (s : Source ι σ) (w : ω) :
    Except Error Unit × Source ι σ × ω :=
  match s.connection with
  | .reading => (.ok (), { s with connection := .idle }, client.disconnect w)
  | .ended => (.ok (), { s with connection := .idle }, w)
  | .crashed =>
    (.error (.source ("reader thread of source " ++ s.name ++ " panicked")),
      { s with connection := .lost }, w)
  | .idle | .lost => (.ok (), s, w)

/-! ## Reading -/

/-- The source after an attempt that ended by a failure. -/
def fail (e : Error) (s : Source ι σ) : Source ι σ :=
  { s.countFailure e with connection := .ended }

/-- The end of an attempt by a failure, which the listeners hear of. -/
def stopOn (client : LogClient ω) (audience : SourceAudience ι ω) (e : Error) (s : Source ι σ)
    (w : ω) : Source ι σ × ω :=
  (s.fail e, client.disconnect (s.listeners.tell (fun l => audience.onError l e) w))

/-- Takes an event in, and counts what the checks complain about. -/
def heed (e : LogEvent) (s : Source ι σ) : Reading × Source ι σ :=
  let (g, reader) := s.reader.read e
  (g, { s with reader, violations := s.violations + g.violations })

/-- Hands what became of an event to the listeners. -/
def hand (client : LogClient ω) (audience : SourceAudience ι ω) (g : Reading) (s : Source ι σ)
    (w : ω) : Source ι σ × ω :=
  match g.event with
  | none => (s, w)
  | some e =>
    let w := s.listeners.tell (fun l => audience.onEvent l e) w
    match g.mutations with
    | .error f => s.stopOn client audience f w
    | .ok [] => (s, w)
    | .ok (m :: ms) =>
      match s.listeners.ask (fun l => audience.onMutations l (m :: ms)) w with
      | (.accepted, w) => (s, w)
      | (.refused f, w) => s.stopOn client audience f w
      | (.crashed, w) => ({ s with connection := .crashed }, w)

/-- One turn of the reading thread. -/
def step (client : LogClient ω) (audience : SourceAudience ι ω) (s : Source ι σ) (w : ω) :
    Source ι σ × ω :=
  if s.connection = .reading then
    match client.next w with
    | (.nothing, w) => (s, w)
    | (.failed e, w) => s.stopOn client audience e w
    | (.crashed, w) => ({ s with connection := .crashed }, w)
    | (.event e, w) =>
      let (g, s) := s.heed e
      hand client audience g s w
  else (s, w)

/-- Some turns of the reading thread. -/
def run (client : LogClient ω) (audience : SourceAudience ι ω) :
    Nat → Source ι σ → ω → Source ι σ × ω
  | 0, s, w => (s, w)
  | n + 1, s, w =>
    let (s, w) := s.step client audience w
    run client audience n s w

/-! ## Checkpoints -/

/-- Stores a resume point: first the point itself, then the history with it on top. -/
def store (keeper : Store σ) (p : ResumePoint) (s : Source ι σ) : Except Error Unit × Source ι σ :=
  match keeper.savePoint p s.stored with
  | (.error e, stored) => (.error e, { s with stored })
  | (.ok (), stored) =>
    match s.history.add keeper p stored with
    | (.error e, history, stored) => (.error e, { s with history, stored })
    | (.ok (), history, stored) =>
      (.ok (), { s with history, stored, saved := some p, failures := 0 })

/-- Stores the point after a mutation that is safe. A point behind the saved one is passed over, and
so is no mutation at all. -/
def checkpoint (keeper : Store σ) (m? : Option Mutation) (s : Source ι σ) :
    Except Error Unit × Source ι σ :=
  match m? with
  | none => (.ok (), s)
  | some (.raw m) =>
    (.error (.illegalState ("source " ++ s.name ++ " cannot checkpoint mutation " ++
      Text.decimalInt m.stamp.id.toInt ++ " without binlog position")), s)
  | some (.row m) =>
    let p := ResumePoint.after m
    match s.saved with
    | some q =>
      if q = p ∨ p.position.compareTo q.position = .lt then (.ok (), s) else s.store keeper p
    | none => s.store keeper p

end Source

end ChangeFeed
