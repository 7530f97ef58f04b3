import ChangeFeed.Proofs.Pipe.Routine
import ChangeFeed.Proofs.Pipe.Steady

/-!
# A pipe with its wiring

A pipe over a source and a destination that nobody else starts or stops, with all that listen to
them and all clocks that it ever started.

**The state** (`Rig`). The parts (`Plant`), what is left of the owner's call, and the clocks
(`Clock`). The pipe knows the newest clock at most: one that it lets go of without stopping it goes
on. With a record of what the source handed to its listeners (`Round`), which is kept by looking at
the parts before and after each move (`Round.goOn`): what the destination was asked to send in the
meantime, and what it tracked.

**Moves** (`Rig.Move`). The owner asks for one thing after the other. Each step of its call is a
move, and so is each step of a clock. The reading thread and the workers go on by themselves in
between, and other listeners of both sides come and go.
-/

namespace ChangeFeed

/-- A clock, which makes one checkpoint after the other. -/
structure Clock where
  period : Nat
  /-- What is left of the last checkpoint. -/
  saving : Routine (Except Error Unit)

/-- A batch that the source hands to its listeners. -/
structure Round where
  batch : List Mutation
  /-- Who is to be asked to take it. -/
  ears : List Ear
  /-- Did it come when the owner's call was about to close the source? -/
  late : Bool
  /-- Who did not take it so far. -/
  left : List Ear
  /-- What the destination was asked to send since the batch came, one call after the other. -/
  given : List (List Mutation)
  /-- What the destination tracked since the batch came. -/
  tracked : List Mutation

/-- Who did not take the batch that is handed over. Once the reading thread is done with it, these
are those who had not taken it before. -/
def Hand.left (before : List Ear) : Hand → List Ear
  | .free => before
  | hand => hand.ears

namespace Round

variable {σ : Type}

/-- What is known of a round after a move of the parts. -/
def goOn (before after : Plant σ) (r : Round) : Round :=
  { r with
    left := after.hand.left r.left
    given := r.given ++ after.depot.calls.drop before.depot.calls.length
    tracked := r.tracked ++ after.depot.sent.drop before.depot.sent.length }

/-- The rounds after a move of the parts, the last one first. The reading thread begins a new one,
or goes on with the last. -/
def record (late : Bool) (before after : Plant σ) (rounds : List Round) : List Round :=
  match before.hand, after.hand with
  | .free, .asking ms ears => ⟨ms, ears, late, ears, [], []⟩ :: rounds
  | .free, _ => rounds
  | _, _ => rounds.modifyHead (·.goOn before after)

end Round

/-- A pipe with its parts and its clocks, and what happened so far. -/
structure Rig (σ : Type) where
  plant : Plant σ
  /-- What is left of the owner's call. -/
  call : Routine (Except Error Unit)
  /-- What the owner asked for last. -/
  request : Option Request
  /-- Was there no thread for a clock when this was asked for? -/
  denied : Bool
  /-- All clocks there are, the newest first. -/
  clocks : List Clock
  /-- Does the pipe know the newest clock? -/
  held : Bool
  /-- The batches that the source handed to its listeners, the last one first. -/
  rounds : List Round

namespace Rig

variable {σ : Type}

/-- A source and a destination that nobody has called yet. -/
def start (p : Pipe) (source : Source Ear σ) (dest : Destination Ear) : Rig σ :=
  { plant := .start p source dest
    call := .done (.ok ())
    request := none
    denied := false
    clocks := []
    held := false
    rounds := [] }

/-- Is the pipe at work? -/
def isStarted (s : Rig σ) : Bool := s.plant.source.isStarted && s.plant.depot.dest.started

/-- What can happen next. -/
inductive Move where
  | order (q : Request)
  /-- The next step of the owner's call. A server that is asked to connect gives this answer,
  whoever is asked for a thread for a clock, and the thread of a clock that is stopped. -/
  | call (answer : Except Error Unit)
  /-- The next step of a clock. -/
  | tick (n : Nat)
  /-- What comes without a call. -/
  | free (m : Plant.Move)
  | join (side : Side) (name : String)
  | part (side : Side) (name : String)

/-! ## Calls -/

/-- One step of an act, and the reply if this is the last one. To stop a clock is to wait until it
is not about a checkpoint, or to find that its thread crashed. -/
def perform (store : Store σ) (answer : Except Error Unit) (s : Rig σ) :
    (a : Act) → Option a.Reply × Rig σ
  | .part c =>
    let (r, plant) := s.plant.perform store answer c
    (r, { s with plant })
  | .addTap => (some (), { s with plant := s.plant.rewire (·.add .pipe) .destination })
  | .removeTap => (some (), { s with plant := s.plant.rewire (·.remove .pipe) .destination })
  | .tally _ => (some (), s)
  | .startClock period =>
    match answer with
    | .ok () => (some (.ok ()), { s with
        clocks := ⟨period, .done (.ok ())⟩ :: s.clocks
        held := true
        denied := false })
    | .error e => (some (.error e), { s with denied := true })
  | .stopClock =>
    match s.held, s.clocks, answer with
    | true, _ :: clocks, .error e => (some (.error e), { s with clocks, held := false })
    | true, ⟨_, .done _⟩ :: clocks, .ok () => (some (.ok ()), { s with clocks, held := false })
    | true, _ :: _, .ok () => (none, s)
    | _, _, _ => (some (.ok ()), s)

/-- One step of a routine, and what is left of it. -/
def turn (store : Store σ) (answer : Except Error Unit) {α : Type} (k : Routine α) (s : Rig σ) :
    Routine α × Rig σ :=
  match k with
  | .done a => (.done a, s)
  | .ask a next =>
    match s.perform store answer a with
    | (some r, s) => (next r, s)
    | (none, s) => (.ask a next, s)

/-- A clock takes a step: it goes on with its checkpoint, or begins the next one. -/
def tick (store : Store σ) (n : Nat) (s : Rig σ) : Rig σ :=
  match s.clocks[n]? with
  | none => s
  | some ⟨period, .done _⟩ =>
    { s with clocks := s.clocks.set n ⟨period, Pipe.checkpoint Routine.parts⟩ }
  | some ⟨period, saving⟩ =>
    let (saving, s) := s.turn store (.ok ()) saving
    { s with clocks := s.clocks.set n ⟨period, saving⟩ }

/-! ## Steps and runs -/

/-- What a move leads to. One that is not possible changes nothing. -/
def step (store : Store σ) (log : List LogEvent) (s : Rig σ) : Move → Rig σ
  | .order q =>
    match s.call with
    | .done _ => { s with call := q.routine s.plant.pipe, request := some q, denied := false }
    | _ => s
  | .call answer =>
    let (call, s) := s.turn store answer s.call
    { s with call }
  | .tick n => s.tick store n
  | .free m =>
    if m.isFree then
      let plant := s.plant.step store log m
      { s with plant, rounds := Round.record s.call.closesSource s.plant plant s.rounds }
    else s
  | .join side name => { s with plant := s.plant.rewire (·.add (.other name)) side }
  | .part side name => { s with plant := s.plant.rewire (·.remove (.other name)) side }

/-- What moves lead to one after the other. -/
def run (store : Store σ) (log : List LogEvent) (s : Rig σ) (ms : List Move) : Rig σ :=
  ms.foldl (step store log) s

/-- What a move does to the others who listen to a side. -/
def Move.others (side : Side) (l : Listeners Ear) : Move → Listeners Ear
  | .join side' name => if side' = side then l.add (.other name) else l
  | .part side' name => if side' = side then l.remove (.other name) else l
  | _ => l

end Rig

end ChangeFeed
