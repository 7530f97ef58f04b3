import ChangeFeed.Proofs.Pipe.Script

/-!
# The calls of a pipe and its wiring

A pipe is wired up when it listens to its source and to its destination. A call to the pipe is cut
into all that it asks of its parts, so that it can be said what is wired up in between.

**Routines** (`Routine`). Something that is asked and what comes after each reply, or the end.
Whatever the parts are, a call is its routine with each act done by them (`interp_start`).

**Facts** (`Facts`). What the one who makes the calls can tell from the replies alone: what was
asked of the pipe, whether it listens, and whether the source or the destination may be at work.

**Wiring** (`Routine.Keeps`). A source that may be at work is listened to, except when it is about
to be closed, and so is the destination. A clock is not started before the last one was stopped.

Main results: `keeps_start`, `keeps_stop` and `keeps_checkpoint`.
-/

namespace ChangeFeed

/-- What a pipe lets its metrics know. -/
inductive Tally where
  | opens
  | closes
  | received (n : Nat)
  | published (n : Nat)
  | error (e : Error)
  | checkpoint

/-- What a pipe asks of its parts. -/
inductive Act where
  | part (c : PartCall)
  /-- The pipe begins to listen to the destination. -/
  | addTap
  /-- The pipe listens to the destination no more. -/
  | removeTap
  | tally (t : Tally)
  | startClock (period : Nat)
  | stopClock

/-- What a part gives back. -/
def Act.Reply : Act → Type
  | part c => c.Reply
  | startClock _ | stopClock => Except Error Unit
  | addTap | removeTap | tally _ => Unit

/-- Acts one after the other, and the result of all of them. -/
inductive Routine (α : Type) where
  | done (a : α)
  | ask (a : Act) (next : a.Reply → Routine α)

/-- The parts count something. -/
def PipeParts.tally {m : Type → Type} (parts : PipeParts m) : Tally → m Unit
  | .opens => parts.openMetrics
  | .closes => parts.closeMetrics
  | .received n => parts.countReceived n
  | .published n => parts.countPublished n
  | .error e => parts.countError e
  | .checkpoint => parts.countCheckpoint

/-- The parts do what they are asked. -/
def PipeParts.act {m : Type → Type} (parts : PipeParts m) : (a : Act) → m a.Reply
  | .part .addListener => parts.addSourceListener
  | .part .removeListener => parts.removeSourceListener
  | .part .openSource => parts.openSource
  | .part .closeSource => parts.closeSource
  | .part .sourceStarted => parts.sourceStarted
  | .part (.checkpointSource m?) => parts.checkpointSource m?
  | .part .openDestination => parts.openDestination
  | .part .closeDestination => parts.closeDestination
  | .part .destinationStarted => parts.destinationStarted
  | .part (.send ms) => parts.send ms
  | .part .lastPublished => parts.lastPublished
  | .addTap => parts.addDestinationListener
  | .removeTap => parts.removeDestinationListener
  | .tally t => parts.tally t
  | .startClock period => parts.startCheckpointer period
  | .stopClock => parts.stopCheckpointer

namespace Routine

variable {α β : Type}

/-- One routine after the other. -/
def bind : Routine α → (α → Routine β) → Routine β
  | done a, f => f a
  | ask a next, f => ask a fun r => (next r).bind f

instance : Monad Routine where
  pure := done
  bind := bind

theorem bind_done (x : Routine α) : x.bind done = x := by
  induction x with
  | done a => rfl
  | ask a next ih =>
    show ask a (fun r => (next r).bind done) = ask a next
    simp only [ih]

/-- A single act. -/
def act (a : Act) : Routine a.Reply := ask a done

/-- The parts of a pipe as acts. -/
def parts : PipeParts Routine where
  addSourceListener := act (.part .addListener)
  removeSourceListener := act (.part .removeListener)
  openSource := act (.part .openSource)
  closeSource := act (.part .closeSource)
  sourceStarted := act (.part .sourceStarted)
  checkpointSource m? := act (.part (.checkpointSource m?))
  addDestinationListener := act .addTap
  removeDestinationListener := act .removeTap
  openDestination := act (.part .openDestination)
  closeDestination := act (.part .closeDestination)
  destinationStarted := act (.part .destinationStarted)
  send ms := act (.part (.send ms))
  lastPublished := act (.part .lastPublished)
  openMetrics := act (.tally .opens)
  closeMetrics := act (.tally .closes)
  countReceived n := act (.tally (.received n))
  countPublished n := act (.tally (.published n))
  countError e := act (.tally (.error e))
  countCheckpoint := act (.tally .checkpoint)
  startCheckpointer period := act (.startClock period)
  stopCheckpointer := act .stopClock

/-! ## Routines over given parts -/

section

variable {m : Type → Type} [Monad m] (given : PipeParts m)

/-- The routine with each act done by given parts. -/
def interp : Routine α → m α
  | done a => pure a
  | ask a next => given.act a >>= fun r => (next r).interp

theorem interp_checkpoint : interp given (Pipe.checkpoint parts) = Pipe.checkpoint given := by
  unfold Pipe.checkpoint
  apply bind_congr
  intro last
  apply bind_congr
  intro saved
  cases saved with
  | error e => rfl
  | ok u =>
    cases last with
    | none => rfl
    | some m => rfl

variable [LawfulMonad m]

theorem interp_bind (x : Routine α) (f : α → Routine β) :
    interp given (x >>= f) = interp given x >>= fun a => interp given (f a) := by
  induction x with
  | done a =>
    show interp given (f a) = pure a >>= _
    rw [pure_bind]
  | ask a next ih =>
    have hnext : ∀ r, interp given ((next r).bind f) =
        interp given (next r) >>= fun a => interp given (f a) := ih
    show given.act a >>= (fun r => interp given ((next r).bind f)) = (given.act a >>= _) >>= _
    rw [bind_assoc]
    simp only [hnext]

theorem interp_act (a : Act) : interp given (act a) = given.act a := bind_pure _

theorem interp_isStarted : interp given (Pipe.isStarted parts) = Pipe.isStarted given := by
  unfold Pipe.isStarted
  apply bind_congr
  intro started
  cases started with
  | false => rfl
  | true => exact interp_act given (.part .destinationStarted)

/-- **Starting.** Over any parts, starting a pipe is its routine. -/
theorem interp_start (p : Pipe) : interp given (p.start parts) = p.start given := by
  unfold Pipe.start
  rw [interp_bind, interp_isStarted]
  apply bind_congr
  intro started
  cases started with
  | true => rfl
  | false =>
    apply bind_congr
    intro _
    apply bind_congr
    intro source
    cases source with
    | error e => rfl
    | ok u =>
      apply bind_congr
      intro _
      apply bind_congr
      intro destination
      cases destination with
      | error e => rfl
      | ok u =>
        cases p.period with
        | none => rfl
        | some n =>
          apply bind_congr
          intro _
          apply bind_congr
          intro _
          exact interp_act given (.startClock n)

/-- **Stopping.** Over any parts, stopping a pipe is its routine. -/
theorem interp_stop : interp given (Pipe.stop parts) = Pipe.stop given := by
  unfold Pipe.stop
  apply bind_congr
  intro _
  refine (interp_bind given (Pipe.checkpoint parts) _).trans ?_
  rw [interp_checkpoint]
  rfl

end

end Routine

/-! ## Wiring -/

/-- What the owner of a pipe can ask of it. -/
inductive Request where
  | start
  | stop
  | checkpoint
  deriving DecidableEq, Repr

/-- The routine of a request. -/
def Request.routine (p : Pipe) : Request → Routine (Except Error Unit)
  | start => p.start Routine.parts
  | stop => Pipe.stop Routine.parts
  | checkpoint => Pipe.checkpoint Routine.parts

/-- What can be told from the replies. -/
structure Facts where
  /-- What was asked for last. -/
  request : Option Request
  /-- Does the pipe listen to the source? -/
  listens : Bool
  /-- May the source be at work? -/
  mayRun : Bool
  /-- Does the pipe listen to the destination? -/
  taps : Bool
  /-- May the destination be at work? -/
  mayDeliver : Bool
  /-- May there be a clock? -/
  mayTick : Bool
  /-- Could no clock be started for the request? -/
  denied : Bool

namespace Facts

/-- The pipe misses nothing of a source and a destination that may be at work. -/
structure Safe (f : Facts) : Prop where
  hears : f.mayRun = true → f.listens = true
  feels : f.mayDeliver = true → f.taps = true

/-- The pipe is off the source, and the source is not at work. -/
structure Apart (f : Facts) : Prop where
  listens : f.listens = false
  mayRun : f.mayRun = false

/-- What is known at the end of a request with its result: the pipe is off a source that is not at
work after it was stopped and after it could not be started, unless for want of a clock, and after
it was stopped there is no clock. -/
structure Ends (f : Facts) (r : Except Error Unit) : Prop where
  safe : f.Safe
  apart : f.request = some .stop ∨
    f.request = some .start ∧ r.isOk = false ∧ f.denied = false → f.Apart
  quiet : f.request = some .stop → f.mayTick = false

/-- The facts once something is asked for. -/
def ask (f : Facts) (q : Request) : Facts := { f with request := some q, denied := false }

/-- The facts after an act. -/
def after (f : Facts) : (a : Act) → a.Reply → Facts
  | .part .addListener, _ => { f with listens := true }
  | .part .removeListener, _ => { f with listens := false }
  | .part .openSource, r => { f with mayRun := r.isOk }
  | .part .closeSource, _ => { f with mayRun := false }
  | .part .sourceStarted, b => { f with mayRun := f.mayRun && b }
  | .addTap, _ => { f with taps := true }
  | .removeTap, _ => { f with taps := false }
  | .part .openDestination, r => { f with mayDeliver := r.isOk }
  | .part .closeDestination, _ => { f with mayDeliver := false }
  | .part .destinationStarted, b => { f with mayDeliver := f.mayDeliver && b }
  | .startClock _, r => { f with mayTick := f.mayTick || r.isOk, denied := !r.isOk }
  | .stopClock, _ => { f with mayTick := false }
  | _, _ => f

/-- The facts after a step of an act, which may still owe a reply. -/
def next (f : Facts) (a : Act) : Option a.Reply → Facts
  | some r => f.after a r
  | none => f

theorem request_next (f : Facts) (a : Act) (o : Option a.Reply) :
    (f.next a o).request = f.request := by
  cases o with
  | none => rfl
  | some r =>
    cases a with
    | part c => cases c <;> rfl
    | _ => rfl

/-- A call to a part has nothing to do with clocks. -/
theorem next_part (f : Facts) (c : PartCall) (o : Option (Act.part c).Reply) :
    (f.next (.part c) o).mayTick = f.mayTick ∧ (f.next (.part c) o).denied = f.denied := by
  cases o with
  | none => exact ⟨rfl, rfl⟩
  | some r => cases c <;> exact ⟨rfl, rfl⟩

theorem Safe.and_mayRun {f : Facts} (hf : f.Safe) (b : Bool) :
    Safe { f with mayRun := f.mayRun && b } where
  hears := fun h => hf.hears (Bool.and_eq_true_iff.1 h).1
  feels := hf.feels

theorem Safe.and_mayDeliver {f : Facts} (hf : f.Safe) (b : Bool) :
    Safe { f with mayDeliver := f.mayDeliver && b } where
  hears := hf.hears
  feels := fun h => hf.feels (Bool.and_eq_true_iff.1 h).1

end Facts

/-- May the act be done? Nothing is missed while it goes on, unless it is what ends the source or
the destination. The source is closed when the pipe is off it. Only in a stop may the destination be
at work then. Nothing is sent but what the listeners of the pipe send. -/
def Act.Allowed (f : Facts) : Act → Prop
  | .part .closeSource => f.listens = false ∧
      (f.mayDeliver = true → f.taps = true ∧ f.request = some .stop)
  | .part .closeDestination => f.mayRun = false
  | .part (.send _) => False
  | .startClock _ => f.Safe ∧ f.mayTick = false
  | _ => f.Safe

/-- Every act is allowed when it is done, and the end is as it should be. -/
def Routine.Keeps (f : Facts) : Routine (Except Error Unit) → Prop
  | done r => f.Ends r
  | ask a next => a.Allowed f ∧ ∀ r, (next r).Keeps (f.after a r)

namespace Routine

variable {α : Type} {f : Facts} {k : Routine (Except Error Unit)}

/-- Is the source closed next? -/
def closesSource : Routine α → Bool
  | ask (.part .closeSource) _ => true
  | _ => false

/-- Is the destination closed next? -/
def closesDestination : Routine α → Bool
  | ask (.part .closeDestination) _ => true
  | _ => false

/-- A source that may be at work is listened to, unless it is closed next. -/
theorem Keeps.hears (hk : k.Keeps f) (hc : k.closesSource = false) (hr : f.mayRun = true) :
    f.listens = true := by
  cases k with
  | done a => exact hk.safe.hears hr
  | ask a next =>
    obtain ⟨ha, -⟩ := hk
    cases a with
    | part c =>
      cases c with
      | closeSource => cases hc
      | closeDestination => cases hr.symm.trans ha
      | send ms => exact ha.elim
      | _ => exact Facts.Safe.hears ha hr
    | startClock n => exact ha.1.hears hr
    | _ => exact Facts.Safe.hears ha hr

/-- If both may be at work, the destination is listened to. -/
theorem Keeps.feels (hk : k.Keeps f) (hr : f.mayRun = true) (hd : f.mayDeliver = true) :
    f.taps = true := by
  cases k with
  | done a => exact hk.safe.feels hd
  | ask a next =>
    obtain ⟨ha, -⟩ := hk
    cases a with
    | part c =>
      cases c with
      | closeSource => exact (ha.2 hd).1
      | closeDestination => cases hr.symm.trans ha
      | send ms => exact ha.elim
      | _ => exact Facts.Safe.feels ha hd
    | startClock n => exact ha.1.feels hd
    | _ => exact Facts.Safe.feels ha hd

/-- The pipe is off the source when this is closed next. -/
theorem Keeps.off_source (hk : k.Keeps f) (hc : k.closesSource = true) :
    f.listens = false ∧ (f.mayDeliver = true → f.taps = true ∧ f.request = some .stop) := by
  cases k with
  | done a => cases hc
  | ask a next =>
    obtain ⟨ha, -⟩ := hk
    cases a with
    | part c =>
      cases c with
      | closeSource => exact ha
      | _ => cases hc
    | _ => cases hc

theorem eq_of_closesDestination {a : Act} {next : a.Reply → Routine α}
    (hc : (ask a next).closesDestination = true) : a = .part .closeDestination := by
  cases a with
  | part c => cases c <;> first | rfl | cases hc
  | _ => cases hc

/-- The destination is closed only while the source is not at work. -/
theorem Keeps.not_running (hk : k.Keeps f) (hc : k.closesDestination = true) :
    f.mayRun = false := by
  cases k with
  | done a => cases hc
  | ask a next =>
    obtain rfl := eq_of_closesDestination hc
    exact hk.1

end Routine

/-- Does the act tell nothing of the wiring and change nothing of it? -/
def Act.isQuiet : Act → Bool
  | .part .lastPublished | .part (.checkpointSource _) | .tally _ => true
  | _ => false

/-- All acts are quiet. -/
def Routine.Quiet {α : Type} : Routine α → Prop
  | done _ => True
  | ask a next => a.isQuiet = true ∧ ∀ r, (next r).Quiet

theorem Facts.next_of_isQuiet {a : Act} (ha : a.isQuiet = true) (f : Facts) (o : Option a.Reply) :
    f.next a o = f := by
  cases o with
  | none => rfl
  | some r =>
    cases a with
    | part c => cases c <;> first | rfl | cases ha
    | tally t => rfl
    | _ => cases ha

namespace Pipe

variable {f : Facts}

theorem keeps_isStarted_bind {k : Bool → Routine (Except Error Unit)} (hf : f.Safe)
    (hk : ∀ (started : Bool) (f' : Facts), f'.Safe → f'.request = f.request →
      f'.denied = f.denied → (k started).Keeps f') :
    ((isStarted Routine.parts).bind k).Keeps f := by
  refine ⟨hf, fun source => ?_⟩
  have hsource := hf.and_mayRun source
  cases source with
  | false => exact hk false _ hsource rfl rfl
  | true =>
    refine ⟨hsource, fun destination => ?_⟩
    exact hk destination _ (hsource.and_mayDeliver destination) rfl rfl

theorem keeps_checkpoint_bind {k : Except Error Unit → Routine (Except Error Unit)} (hf : f.Safe)
    (hk : ∀ r, (k r).Keeps f) : ((checkpoint Routine.parts).bind k).Keeps f := by
  refine ⟨hf, fun last => ⟨hf, fun saved => ?_⟩⟩
  cases saved with
  | error e => exact hk _
  | ok u =>
    cases last with
    | none => exact hk _
    | some m => exact ⟨hf, fun _ => hk _⟩

theorem keeps_checkpoint (hf : f.Safe) (hq : f.request = some .checkpoint) :
    (checkpoint Routine.parts).Keeps f := by
  rw [← Routine.bind_done (checkpoint Routine.parts)]
  apply keeps_checkpoint_bind hf
  intro r
  exact ⟨hf, by simp [hq], by simp [hq]⟩

theorem quiet_checkpoint : (checkpoint Routine.parts).Quiet := by
  refine ⟨rfl, fun last => ⟨rfl, fun saved => ?_⟩⟩
  cases saved with
  | error e => trivial
  | ok u =>
    cases last with
    | none => trivial
    | some m => exact ⟨rfl, fun _ => trivial⟩

theorem keeps_stop (hf : f.Safe) (hq : f.request = some .stop) :
    (stop Routine.parts).Keeps f := by
  refine ⟨hf, fun _ => ?_⟩
  have hquiet : Facts.Safe { f with mayTick := false } := ⟨hf.hears, hf.feels⟩
  refine keeps_checkpoint_bind hquiet fun saved => ?_
  -- Between these two acts a source may be at work that the pipe does not listen to.
  refine ⟨hquiet, fun _ => ⟨⟨rfl, fun hd => ⟨hf.feels hd, hq⟩⟩, fun source => ?_⟩⟩
  refine ⟨⟨by exact nofun, hf.feels⟩, fun _ => ⟨rfl, fun destination => ?_⟩⟩
  refine ⟨⟨by exact nofun, by exact nofun⟩, fun _ => ?_⟩
  exact ⟨⟨by exact nofun, by exact nofun⟩, fun _ => ⟨rfl, rfl⟩, fun _ => rfl⟩

/-- A start that came back with success is at its end. -/
theorem ends_of_started (hf : f.Safe) (hq : f.request = some .start) : f.Ends (.ok ()) :=
  ⟨hf, by simp [hq, Except.isOk, Except.toBool], by simp [hq]⟩

theorem keeps_start (p : Pipe) (hf : f.Safe) (hq : f.request = some .start) :
    (p.start Routine.parts).Keeps f := by
  apply keeps_isStarted_bind hf
  intro started f' hf hq' _
  rw [hq] at hq'
  cases started with
  | true => exact ends_of_started hf hq'
  | false =>
    have hstart : ¬f'.request = some .stop := by simp [hq']
    refine ⟨hf, fun _ => ⟨⟨fun _ => rfl, hf.feels⟩, fun source => ?_⟩⟩
    cases source with
    | error e =>
      refine ⟨⟨by exact nofun, hf.feels⟩, fun _ => ?_⟩
      exact ⟨⟨by exact nofun, hf.feels⟩, fun _ => ⟨rfl, rfl⟩, fun h => absurd h hstart⟩
    | ok u =>
      refine ⟨⟨fun _ => rfl, hf.feels⟩, fun _ => ?_⟩
      refine ⟨⟨fun _ => rfl, fun _ => rfl⟩, fun destination => ?_⟩
      cases destination with
      | error e =>
        -- The destination is not at work, so the pipe may be off both before the source is closed.
        refine ⟨⟨fun _ => rfl, by exact nofun⟩, fun _ => ?_⟩
        refine ⟨⟨fun _ => rfl, by exact nofun⟩, fun _ => ?_⟩
        refine ⟨⟨rfl, by exact nofun⟩, fun _ => ?_⟩
        exact ⟨⟨by exact nofun, by exact nofun⟩, fun _ => ⟨rfl, rfl⟩, fun h => absurd h hstart⟩
      | ok u =>
        have hboth : ∀ tick denied, Facts.Safe ⟨f'.request, true, true, true, true, tick, denied⟩ :=
          fun _ _ => ⟨fun _ => rfl, fun _ => rfl⟩
        refine ⟨hboth _ _, fun _ => ⟨hboth _ _, fun _ => ?_⟩⟩
        cases p.period with
        | none => exact ends_of_started (hboth _ _) hq'
        | some n =>
          refine ⟨⟨hboth _ _, rfl⟩, fun clock => ?_⟩
          cases clock with
          | ok u => exact ends_of_started (hboth _ _) hq'
          | error e =>
            -- Both are at work, and the pipe keeps listening to them.
            refine ⟨hboth _ _, fun h => ?_, fun h => absurd h hstart⟩
            rcases h with h | ⟨-, -, h⟩
            · exact absurd h hstart
            · cases h

/-- Every request keeps the pipe wired up. -/
theorem keeps_routine (p : Pipe) (q : Request) (hf : f.Safe) (hq : f.request = some q) :
    (q.routine p).Keeps f := by
  cases q with
  | start => exact keeps_start p hf hq
  | stop => exact keeps_stop hf hq
  | checkpoint => exact keeps_checkpoint hf hq

end Pipe

end ChangeFeed
