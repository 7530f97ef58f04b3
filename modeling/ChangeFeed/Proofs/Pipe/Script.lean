import ChangeFeed.Pipe.Basic
import Mathlib.Tactic.Common

/-!
# The calls of a pipe, step by step

What a pipe does between two calls to its parts takes no time that matters, so a call to the pipe is
the list of calls to its parts, each of which depends on what was replied before.

**Scripts** (`Script`). A call to a part and what comes after each reply, or the end.

**Order** (`Script.Orderly`). The pipe begins to listen only if it cannot have missed anything
(`Stance.ready`, `Stance.listening`, `Stance.quiet`), it closes the destination only if the source
is not at work (`Stance.quiet`), and it saves nothing but what the destination gave it.

Main results: `orderly_start`, `orderly_stop` and `orderly_checkpoint`.
-/

namespace ChangeFeed

/-- What a pipe asks of its source and its destination. -/
inductive PartCall where
  | addListener
  | removeListener
  | openSource
  | closeSource
  | sourceStarted
  | checkpointSource (m? : Option Mutation)
  | openDestination
  | closeDestination
  | destinationStarted
  | send (ms : List Mutation)
  | lastPublished

/-- What a call to a part gives back. -/
def PartCall.Reply : PartCall → Type
  | addListener | removeListener => Unit
  | sourceStarted | destinationStarted => Bool
  | lastPublished => Option Mutation
  | openSource | closeSource | checkpointSource _ | openDestination | closeDestination | send _ =>
    Except Error Unit

/-- Calls one after the other, and the result of all of them. -/
inductive Script (α : Type) where
  | done (a : α)
  | call (c : PartCall) (next : c.Reply → Script α)

namespace Script

variable {α β : Type}

/-- One script after the other. -/
def bind : Script α → (α → Script β) → Script β
  | done a, f => f a
  | call c next, f => call c fun r => (next r).bind f

instance : Monad Script where
  pure := done
  bind := bind

/-- A single call. -/
def ask (c : PartCall) : Script c.Reply := call c done

theorem bind_done (s : Script α) : s.bind done = s := by
  induction s with
  | done a => rfl
  | call c next ih =>
    show call c (fun r => (next r).bind done) = call c next
    congr 1
    funext r
    exact ih r

/-- The parts of a pipe, as far as they matter for what is published. Metrics, the listener that
feeds them and the clock of the checkpoints are left out. -/
def parts : PipeParts Script where
  addSourceListener := ask .addListener
  removeSourceListener := ask .removeListener
  openSource := ask .openSource
  closeSource := ask .closeSource
  sourceStarted := ask .sourceStarted
  checkpointSource m? := ask (.checkpointSource m?)
  addDestinationListener := pure ()
  removeDestinationListener := pure ()
  openDestination := ask .openDestination
  closeDestination := ask .closeDestination
  destinationStarted := ask .destinationStarted
  send ms := ask (.send ms)
  lastPublished := ask .lastPublished
  openMetrics := pure ()
  closeMetrics := pure ()
  countReceived _ := pure ()
  countPublished _ := pure ()
  countError _ := pure ()
  countCheckpoint := pure ()
  startCheckpointer _ := pure (.ok ())
  stopCheckpointer := pure (.ok ())

/-- What the pipe does with mutations of its source is to send them on, and to pass on a failure. -/
theorem onMutations_parts (ms : List Mutation) : parts.onMutations ms = call (.send ms) done := by
  show call (.send ms) _ = call (.send ms) done
  congr 1
  funext r
  cases r <;> rfl

end Script

/-! ## Order -/

/-- How the one who runs a script stands to the source. -/
inductive Stance where
  /-- Somebody else has the source. -/
  | apart
  /-- The pipe may have missed something. -/
  | loose
  /-- The pipe listens, or the source is not at work. -/
  | ready
  | listening
  /-- The source is not at work. -/
  | quiet
  deriving DecidableEq

/-- May the call be made in a stance, when `known` are mutations that the destination gave as the
last safe ones? -/
def PartCall.Allowed (known : List Mutation) (st : Stance) : PartCall → Prop
  | sourceStarted | destinationStarted | lastPublished => True
  | checkpointSource m? => ∀ m ∈ m?, m ∈ known
  | removeListener | closeSource | openDestination => st ≠ .apart
  | addListener => st = .ready ∨ st = .listening ∨ st = .quiet
  | openSource => st = .listening
  | closeDestination => st = .quiet
  | send _ => False

/-- The stance after a call. -/
def Stance.after (st : Stance) : (c : PartCall) → c.Reply → Stance
  | .addListener, _ => .listening
  | .removeListener, _ => if st = .quiet then .quiet else .loose
  | .openSource, .error _ => .quiet
  | .closeSource, _ => .quiet
  | _, _ => st

/-- The mutations that are known after a call. -/
def PartCall.learn (known : List Mutation) : (c : PartCall) → c.Reply → List Mutation
  | .lastPublished, some m => m :: known
  | _, _ => known

/-- Every call is made in a stance that allows it, and in the end the pipe is ready. -/
def Script.Orderly {α : Type} (known : List Mutation) (st : Stance) : Script α → Prop
  | done _ => st ≠ .loose
  | call c next => c.Allowed known st ∧ ∀ r, (next r).Orderly (c.learn known r) (st.after c r)

theorem Stance.after_apart {known : List Mutation} {c : PartCall} (hc : c.Allowed known .apart)
    (r : c.Reply) : Stance.apart.after c r = .apart := by
  cases c with
  | addListener => simp [PartCall.Allowed] at hc
  | removeListener => exact absurd rfl hc
  | openSource => cases hc
  | closeSource => exact absurd rfl hc
  | _ => rfl

theorem Stance.after_ne_apart {st : Stance} (hst : st ≠ .apart) (c : PartCall) (r : c.Reply) :
    st.after c r ≠ .apart := by
  cases c with
  | removeListener =>
    show (if st = .quiet then .quiet else .loose) ≠ Stance.apart
    split <;> exact nofun
  | openSource =>
    cases r with
    | error e => exact nofun
    | ok u => exact hst
  | addListener => exact nofun
  | closeSource => exact nofun
  | _ => exact hst

namespace Pipe

theorem mem_learn (known : List Mutation) (last : Option Mutation) :
    ∀ m ∈ last, m ∈ PartCall.learn known .lastPublished last := by
  intro m hm
  obtain rfl := Option.mem_def.1 hm
  exact List.mem_cons_self

/-- What comes after a checkpoint is in order if it is so whatever became of the checkpoint. -/
theorem orderly_checkpoint_bind {α : Type} {known : List Mutation} {st : Stance}
    {f : Except Error Unit → Script α} (hf : ∀ known r, (f r).Orderly known st) :
    ((checkpoint Script.parts).bind f).Orderly known st := by
  refine ⟨trivial, fun last => ⟨mem_learn known last, fun r => ?_⟩⟩
  cases r with
  | error e => exact hf _ _
  | ok u =>
    cases last with
    | none => exact hf _ _
    | some m => exact hf _ _

theorem orderly_checkpoint (known : List Mutation) {st : Stance} (hst : st ≠ .loose) :
    (checkpoint Script.parts).Orderly known st := by
  rw [← Script.bind_done (checkpoint Script.parts)]
  exact orderly_checkpoint_bind fun _ _ => hst

theorem orderly_stop (known : List Mutation) : (stop Script.parts).Orderly known .ready := by
  refine orderly_checkpoint_bind fun known saved => ?_
  refine ⟨by exact nofun, fun _ => ⟨by exact nofun, fun source => ?_⟩⟩
  -- The source is closed by now, so the destination may be.
  refine ⟨rfl, fun destination => ?_⟩
  exact nofun

theorem orderly_isStarted_bind {α : Type} {known : List Mutation} {st : Stance}
    {f : Bool → Script α} (hf : ∀ started, (f started).Orderly known st) :
    ((isStarted Script.parts).bind f).Orderly known st := by
  refine ⟨trivial, fun source => ?_⟩
  cases source with
  | false => exact hf false
  | true => exact ⟨trivial, hf⟩

theorem orderly_start (p : Pipe) (known : List Mutation) :
    (p.start Script.parts).Orderly known .ready := by
  refine orderly_isStarted_bind fun started => ?_
  cases started with
  | true => exact nofun
  | false =>
    refine ⟨Or.inl rfl, fun _ => ⟨rfl, fun source => ?_⟩⟩
    cases source with
    | error e => exact ⟨by exact nofun, fun _ => by exact nofun⟩
    | ok u =>
      refine ⟨by exact nofun, fun destination => ?_⟩
      cases destination with
      | error e =>
        -- The pipe stops to listen before the source is closed.
        exact ⟨by exact nofun, fun _ => ⟨by exact nofun, fun _ => by exact nofun⟩⟩
      | ok u =>
        obtain ⟨name, period⟩ := p
        cases period with
        | none => exact nofun
        | some n => exact nofun

end Pipe

end ChangeFeed
