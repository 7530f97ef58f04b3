import ChangeFeed.Pipe.Assembly
import ChangeFeed.Proofs.Destination.Depot
import ChangeFeed.Proofs.Pipe.Script
import ChangeFeed.Proofs.Source.Feed

/-!
# A pipe at work

A pipe over a source and a destination that nobody else uses, in every order in which the steps of
all threads can follow each other.

**The state** (`Plant`). The source, the destination with what it published (`Depot`), what came
from the client (`Feed`), what the reading thread is about (`Hand`), the call that the owner of the
pipe is waiting for, and the checkpoints that are being made.

**Moves** (`Plant.Move`). The owner starts and stops the pipe, one call at a time; checkpoints begin
at any time and go on beside it. The reading thread gets what the client may give it, and hands it
to one listener after the other. The pipe does with it what its listener does
(`PipeRelay.onMutations`), where sending is cut into the steps of `Depot.proceed`. The workers of
the destination go on by themselves. Other listeners come, go and answer as they like.

Main result: `run_induction`.
-/

namespace ChangeFeed

/-- What the reading thread of a source is about. -/
inductive Hand where
  /-- It waits for the client. -/
  | free
  /-- It asks listeners one after the other. -/
  | asking (ms : List Mutation) (ears : List Ear)
  /-- The pipe was asked to take a batch and calls the destination. What comes after each reply is
  known, and others will be asked after the pipe. -/
  | sending (ms : List Mutation) (next : Except Error Unit → Script (Except Error Unit))
    (ears : List Ear)

/-- A pipe with its parts, and the calls that go on. -/
structure Plant (σ : Type) where
  pipe : Pipe
  source : Source Ear σ
  depot : Depot Ear
  feed : Feed
  hand : Hand
  /-- What is left of the last call to start or to stop. -/
  call : Script (Except Error Unit)
  /-- What is left of each checkpoint. -/
  savers : List (Script (Except Error Unit))

/-- What the reading thread gets when it asks the client. -/
inductive Arrival where
  /-- The event at a place of the log. -/
  | event (n : Nat)
  | nothing
  | failed (e : Error)
  | crashed

/-- Is the move one of a worker? -/
def Depot.Move.isWork : Depot.Move → Bool
  | pull _ | begin _ | answer .. | report _ | crash _ | confirm _ | leave _ => true
  | _ => false

namespace Plant

variable {σ : Type}

/-- A source and a destination that nobody has called yet. -/
def start (p : Pipe) (source : Source Ear σ) (dest : Destination Ear) : Plant σ :=
  { pipe := p
    source
    depot := .start dest
    feed := ⟨source.initialPosition, []⟩
    hand := .free
    call := .done (.ok ())
    savers := [] }

/-- What can happen next. -/
inductive Move where
  | start
  | stop
  /-- The next step of the owner's call. A server that is asked to connect gives this answer. -/
  | call (answer : Except Error Unit)
  | checkpoint
  /-- The next step of a checkpoint. -/
  | save (n : Nat)
  | arrive (a : Arrival)
  /-- The next listener is asked. Another one than the pipe gives this answer. -/
  | ask (v : Verdict)
  /-- The pipe goes on to send. -/
  | offer
  | work (m : Depot.Move)
  | join (name : String)
  | part (name : String)

/-! ## Calls -/

/-- A client whose server gives an answer. -/
def server (answer : Except Error Unit) : LogClient Feed where
  connect p _ := (answer, ⟨p, []⟩)
  next f := (.nothing, f)
  disconnect f := f

/-- Changes who listens to the source. -/
def listen (f : Listeners Ear → Listeners Ear) (s : Plant σ) : Plant σ :=
  { s with source := { s.source with listeners := f s.source.listeners } }

/-- Opens the source. -/
def openSource (store : Store σ) (answer : Except Error Unit) (s : Plant σ) :
    Except Error Unit × Plant σ :=
  let (r, source, feed) := s.source.openFeed (server answer) store s.feed
  (r, { s with source, feed })

/-- Closes the source once its reading thread waits for the client. -/
def closeSource (answer : Except Error Unit) (s : Plant σ) :
    Option (Except Error Unit) × Plant σ :=
  match s.hand with
  | .free =>
    let (r, source, feed) := s.source.closeFeed (server answer) s.feed
    (some r, { s with source, feed })
  | _ => (none, s)

/-- Tells the workers to stop, or closes the destination once they have ended. -/
def closeDestination (s : Plant σ) : Option (Except Error Unit) × Plant σ :=
  match s.depot.caller with
  | .closing =>
    if s.depot.dest.isQuiet then
      (some s.depot.dest.closePool.1, { s with depot := s.depot.step .closePool })
    else (none, s)
  | _ => (none, { s with depot := s.depot.step .stopAll })

/-- One step of a call to a part, and the reply if this is the last one. To close the source is to
wait for its reading thread, and to close the destination is to wait for its workers. -/
def perform (store : Store σ) (answer : Except Error Unit) (s : Plant σ) :
    (c : PartCall) → Option c.Reply × Plant σ
  | .addListener => (some (), s.listen (·.add .pipe))
  | .removeListener => (some (), s.listen (·.remove .pipe))
  | .openSource =>
    let (r, s) := s.openSource store answer
    (some r, s)
  | .closeSource => s.closeSource answer
  | .sourceStarted => (some s.source.isStarted, s)
  | .checkpointSource m? =>
    let (r, source) := s.source.checkpoint store m?
    (some r, { s with source })
  | .openDestination =>
    (some s.depot.dest.openPool.1, { s with depot := s.depot.step .openPool })
  | .closeDestination => s.closeDestination
  | .destinationStarted => (some s.depot.dest.started, s)
  | .send _ => (none, s)
  | .lastPublished => (some s.depot.dest.lastPublished, s)

/-- One step of a script, and what is left of it. -/
def turn (store : Store σ) (answer : Except Error Unit) {α : Type} (k : Script α) (s : Plant σ) :
    Script α × Plant σ :=
  match k with
  | .done a => (.done a, s)
  | .call c next =>
    match s.perform store answer c with
    | (some r, s) => (next r, s)
    | (none, s) => (.call c next, s)

/-! ## The reading thread -/

/-- The reading thread crashes. -/
def crash (s : Plant σ) : Plant σ :=
  { s with source := { s.source with connection := .crashed }, hand := .free }

/-- The reading thread ends by a failure. -/
def fail (e : Error) (s : Plant σ) : Plant σ :=
  { s with source := s.source.fail e, hand := .free }

/-- The reading thread takes an event in. -/
def receive (e : LogEvent) (s : Plant σ) : Plant σ :=
  let (g, source) := s.source.heed e
  let s := { s with source }
  match g.event with
  | none => s
  | some _ =>
    match g.mutations with
    | .error f => s.fail f
    | .ok [] => s
    | .ok (m :: ms) => { s with hand := .asking (m :: ms) s.source.listeners.members }

/-- The reading thread gets something from the client, no event that may not come. -/
def arrive (log : List LogEvent) (a : Arrival) (s : Plant σ) : Plant σ :=
  match a with
  | .event n =>
    match log[n]? with
    | some e => if s.feed.MayYield log n then { s with feed := s.feed.add n }.receive e else s
    | none => s
  | .nothing => s
  | .failed e => s.fail e
  | .crashed => s.crash

/-- A listener answers. The reading thread goes on to those after it, or ends. -/
def hear (v : Verdict) (ms : List Mutation) (ears : List Ear) (s : Plant σ) : Plant σ :=
  match v with
  | .accepted => { s with hand := .asking ms ears }
  | .refused e => s.fail e
  | .crashed => s.crash

/-- The pipe, asked to take a batch, comes to its next call, which is one to send, or to its answer.
-/
def follow (k : Script (Except Error Unit)) (ms : List Mutation) (ears : List Ear) (s : Plant σ) :
    Plant σ :=
  match k with
  | .done (.ok ()) => s.hear .accepted ms ears
  | .done (.error e) => s.hear (.refused e) ms ears
  | .call (.send sent) next =>
    { s with depot := s.depot.step (.send sent), hand := .sending ms next ears }
  | .call _ _ => s

/-- The reading thread asks the next listener. -/
def ask (v : Verdict) (s : Plant σ) : Plant σ :=
  match s.hand with
  | .asking _ [] => { s with hand := .free }
  | .asking ms (.pipe :: ears) => s.follow (Script.parts.onMutations ms) ms ears
  | .asking ms (.other _ :: ears) => s.hear v ms ears
  | _ => s

/-- The pipe goes on to send, and when the call comes back, with what it does then. -/
def offer (s : Plant σ) : Plant σ :=
  match s.hand with
  | .sending ms next ears =>
    let depot := s.depot.step .proceed
    match depot.caller with
    | .done r => { s with depot }.follow (next r) ms ears
    | _ => { s with depot }
  | _ => s

section Offers

variable {s : Plant σ} {ms : List Mutation} {ears : List Ear}

/-- The pipe sends on what it is asked to take. -/
theorem ask_pipe (hh : s.hand = .asking ms (.pipe :: ears)) (v : Verdict) :
    s.ask v = { s with depot := s.depot.step (.send ms), hand := .sending ms .done ears } := by
  simp only [ask, hh, Script.onMutations_parts, follow]
  rfl

/-- The destination took what was sent. -/
theorem offer_of_sent (hh : s.hand = .sending ms .done ears)
    (hc : (s.depot.step .proceed).caller = .done (.ok ())) :
    s.offer = hear .accepted ms ears { s with depot := s.depot.step .proceed } := by
  simp only [offer, hh, hc, follow]

/-- The destination did not take what was sent. -/
theorem offer_of_failed {e : Error} (hh : s.hand = .sending ms .done ears)
    (hc : (s.depot.step .proceed).caller = .done (.error e)) :
    s.offer = hear (.refused e) ms ears { s with depot := s.depot.step .proceed } := by
  simp only [offer, hh, hc, follow]

/-- There is still something to be sent. -/
theorem offer_of_going (hh : s.hand = .sending ms .done ears)
    (hc : ∀ r, (s.depot.step .proceed).caller ≠ .done r) :
    s.offer = { s with depot := s.depot.step .proceed } := by
  simp only [offer, hh]

end Offers

/-! ## Steps and runs -/

/-- What a move leads to. One that is not possible changes nothing. -/
def step (store : Store σ) (log : List LogEvent) (s : Plant σ) : Move → Plant σ
  | .start =>
    match s.call with
    | .done _ => { s with call := s.pipe.start Script.parts }
    | _ => s
  | .stop =>
    match s.call with
    | .done _ => { s with call := Pipe.stop Script.parts }
    | _ => s
  | .call answer =>
    let (call, s) := s.turn store answer s.call
    { s with call }
  | .checkpoint => { s with savers := s.savers ++ [Pipe.checkpoint Script.parts] }
  | .save n =>
    match s.savers[n]? with
    | some k =>
      let (k, s) := s.turn store (.ok ()) k
      { s with savers := s.savers.set n k }
    | none => s
  | .arrive a =>
    if s.source.connection = .reading then
      match s.hand with
      | .free => s.arrive log a
      | _ => s
    else s
  | .ask v => s.ask v
  | .offer => s.offer
  | .work m => if m.isWork then { s with depot := s.depot.step m } else s
  | .join name => s.listen (·.add (.other name))
  | .part name => s.listen (·.remove (.other name))

/-- What moves lead to one after the other. -/
def run (store : Store σ) (log : List LogEvent) (s : Plant σ) (ms : List Move) : Plant σ :=
  ms.foldl (step store log) s

/-- What every step keeps holds after every run. -/
theorem run_induction {store : Store σ} {log : List LogEvent} {P : Plant σ → Prop} {s : Plant σ}
    (h : P s) (hstep : ∀ (s : Plant σ) (m : Move), P s → P (s.step store log m))
    (ms : List Move) : P (s.run store log ms) := by
  induction ms generalizing s with
  | nil => exact h
  | cons m ms ih => exact ih (hstep s m h)

end Plant

end ChangeFeed
