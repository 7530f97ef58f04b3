import ChangeFeed.Proofs.Pipe.Upkeep
import ChangeFeed.Source.Plan

/-!
# The wiring of a pipe

**Wired** (`Rig.Wired`). A pipe at work listens to its source and to its destination, once, except
that a stop takes the pipe off the source before it closes it. So the destination is asked to send
every batch of the source once, but for those that come in between and those that another listener
keeps from the pipe. After a stop, and after a start for which the source or the destination could
not be opened, the pipe is off the source, and the source is not at work. There is one clock at
most, and none after a stop.

**Others** (`Rig.Move.others`). Who else listens to the source and to the destination, and in which
order, is up to them alone.

Main result: `stays_wired`.
-/

namespace ChangeFeed

namespace Rig

variable {σ : Type} {store : Store σ} {s : Rig σ}

/-! ## Others -/

theorem others_turn (store : Store σ) (answer : Except Error Unit) {α : Type} (k : Routine α)
    (s : Rig σ) (side : Side) :
    ((s.turn store answer k).2.plant.ears side).remove .pipe =
      (s.plant.ears side).remove .pipe := by
  cases k with
  | done r => rfl
  | ask a next =>
    have hstill := still_perform store answer a s
    rcases hp : s.perform store answer a with ⟨_ | r, s'⟩
    · rw [hp] at hstill
      rw [turn_of_none hp]
      exact hstill.others side
    · rw [hp] at hstill
      rw [turn_of_reply hp]
      exact hstill.others side

/-- Others listen as they would if the pipe never did. -/
theorem others_step (store : Store σ) (log : List LogEvent) (h : s.Kept) (m : Move) (side : Side) :
    ((s.step store log m).plant.ears side).remove .pipe =
      m.others side ((s.plant.ears side).remove .pipe) := by
  cases m with
  | order q =>
    simp only [step]
    split <;> rfl
  | call answer => exact others_turn store answer s.call s side
  | tick n =>
    show ((s.tick store n).plant.ears side).remove .pipe = (s.plant.ears side).remove .pipe
    unfold tick
    split
    · rfl
    · rfl
    · exact others_turn store (.ok ()) _ s side
  | free m =>
    simp only [step]
    split
    · rename_i hm
      exact congrArg _ ((Plant.steady_step store log h.tidy.engaged hm).ears side)
    · rfl
  | join side' name =>
    simp only [step, Plant.ears_rewire, Move.others]
    split
    · exact Listeners.remove_add_of_ne _ (by simp)
    · rfl
  | part side' name =>
    simp only [step, Plant.ears_rewire, Move.others]
    split
    · exact Listeners.remove_comm _ _ _
    · rfl

/-! ## Runs -/

/-- The wiring is as it should be. -/
structure Wired (s : Rig σ) : Prop where
  /-- A pipe at work listens to its destination, once. -/
  taps : s.isStarted = true → (s.plant.ears .destination).members.count .pipe = 1
  /-- A pipe at work listens to its source, once. In a stop it does not any more when the next thing
  that happens is that the source is closed. -/
  hears : s.isStarted = true → (s.plant.ears .source).members.count .pipe = 1 ∨
    (s.plant.ears .source).members.count .pipe = 0 ∧ s.request = some .stop ∧
      s.call.closesSource = true
  fair : ∀ r ∈ s.rounds, r.Fair
  past : ∀ r ∈ s.plant.hand.past s.rounds, r.Over
  /-- The destination was asked to send what the record has, and nothing else. -/
  calls : s.plant.depot.calls = (s.rounds.reverse.map (·.given)).flatten
  sent : s.plant.depot.sent = (s.rounds.reverse.map (·.tracked)).flatten
  /-- After a stop and after a start that failed, the pipe is off the source, which is not at work.
  Nothing is said of a start that failed for want of a thread for its clock. -/
  off : ∀ r, s.call = .done r →
    s.request = some .stop ∨ s.request = some .start ∧ r.isOk = false ∧ s.denied = false →
      .pipe ∉ (s.plant.ears .source).members ∧ s.plant.source.isStarted = false
  clocks : s.clocks.length ≤ 1
  quiet : ∀ r, s.call = .done r → s.request = some .stop → s.clocks = []

theorem Kept.wired (h : s.Kept) : s.Wired := by
  obtain ⟨f, hf, hk⟩ := h.owner
  refine ⟨fun hs => Listeners.count_eq_one _ (h.taps hs), fun hs => ?_, h.tidy.told.fair,
    h.tidy.told.past, h.tidy.told.calls, h.tidy.told.sent, fun r hr hend => ?_, ?_,
    fun r hr hstop => ?_⟩
  · have hcount := h.count (Bool.and_eq_true_iff.1 hs).1
    cases hc : s.call.closesSource with
    | false => exact Or.inl (by rw [hcount, hc]; rfl)
    | true => exact Or.inr ⟨by rw [hcount, hc]; rfl, (h.leaves hc).2 hs, rfl⟩
  · rw [hr] at hk
    have hapart : f.Apart := by
      apply hk.apart
      rw [hf.request, hf.denied]
      exact hend
    refine ⟨fun hm => ?_, Bool.eq_false_iff.2 fun hs => ?_⟩
    · cases hapart.listens.symm.trans (hf.parts.listens.1 hm)
    · cases hapart.mayRun.symm.trans (hf.parts.runs hs)
  · rcases hf.clocks with ⟨-, hnil⟩ | ⟨-, -, c, hone⟩
    · simp [hnil]
    · simp [hone]
  · rw [hr] at hk
    rw [← hf.request] at hstop
    rcases hf.clocks with ⟨-, hnil⟩ | ⟨-, htick, -⟩
    · exact hnil
    · cases (hk.quiet hstop).symm.trans htick

/-- A pipe that was just built is off both sides, which are at rest. -/
theorem kept_start {p : SourcePlan} {q : DestinationPlan} {stored : σ} {source : Source Ear σ}
    {dest : Destination Ear} (hp : p.build store stored = .ok source) (hq : q.build = .ok dest)
    (pipe : Pipe) : (start pipe source dest).Kept ∧
      ∀ side, (start pipe source dest).plant.ears side = .empty := by
  obtain ⟨hears, hidle⟩ : source.listeners = .empty ∧ source.isStarted = false := by
    obtain ⟨g, -, hs⟩ := bind_eq_ok.1 hp
    cases hs
    exact ⟨rfl, rfl⟩
  obtain ⟨htaps, hrest⟩ : dest.listeners = .empty ∧ dest.started = false := by
    unfold DestinationPlan.build at hq
    split at hq
    · cases hq
    · cases hq
      exact ⟨rfl, rfl⟩
  have hempty : ∀ side, (start pipe source dest).plant.ears side = .empty := by
    intro side
    cases side with
    | source => exact hears
    | destination => exact htaps
  have hpipe : ∀ side, .pipe ∉ ((start pipe source dest).plant.ears side).members := by
    intro side hm
    rw [hempty] at hm
    cases hm
  have hfits : Fits ⟨none, false, false, false, false, false, false⟩ (start pipe source dest) := by
    refine ⟨rfl, rfl, ⟨?_, ?_, fun hs => ?_, fun hd => ?_⟩, Or.inl ⟨rfl, rfl⟩⟩
    · exact iff_of_false (hpipe .source) (by exact nofun)
    · exact iff_of_false (hpipe .destination) (by exact nofun)
    · cases hidle.symm.trans hs
    · cases hrest.symm.trans hd
  have htold : Told (start pipe source dest).plant [] :=
    ⟨by exact nofun, by exact nofun, rfl, rfl, fun hne => absurd rfl hne⟩
  refine ⟨⟨⟨by exact nofun, Plant.engaged_of_free rfl rfl, htold⟩, ⟨_, hfits, ?_⟩, by exact nofun⟩,
    hempty⟩
  exact ⟨⟨by exact nofun, by exact nofun⟩, by simp, by exact nofun⟩

theorem kept_run (store : Store σ) (log : List LogEvent) (h : s.Kept) (ms : List Move) :
    (s.run store log ms).Kept ∧ ∀ side, ((s.run store log ms).plant.ears side).remove .pipe =
      ms.foldl (Move.others side) ((s.plant.ears side).remove .pipe) := by
  induction ms generalizing s with
  | nil => exact ⟨h, fun _ => rfl⟩
  | cons m ms ih =>
    obtain ⟨hkept, hothers⟩ := ih (kept_step store log h m)
    refine ⟨hkept, fun side => ?_⟩
    rw [List.foldl_cons, ← others_step store log h m side]
    exact hothers side

/-- **Wiring.** A pipe over a source and a destination that only it starts and stops, with any
failures of either: whatever is asked of it and whatever comes in between, it is wired up as it
should be, and others listen to both sides as they would without it. -/
theorem stays_wired {p : SourcePlan} {q : DestinationPlan} {stored : σ} {source : Source Ear σ}
    {dest : Destination Ear} (hp : p.build store stored = .ok source) (hq : q.build = .ok dest)
    (pipe : Pipe) (log : List LogEvent) (ms : List Move) :
    ((start pipe source dest).run store log ms).Wired ∧
      ∀ side, (((start pipe source dest).run store log ms).plant.ears side).remove .pipe =
        ms.foldl (Move.others side) .empty := by
  obtain ⟨hkept, hempty⟩ := kept_start hp hq pipe
  obtain ⟨hrun, hothers⟩ := kept_run store log hkept ms
  refine ⟨hrun.wired, fun side => ?_⟩
  rw [hothers side, hempty side]
  rfl

/-- A row is inserted. -/
def oneRow : List LogEvent :=
  let header (i : Int64) (n : UInt64) : EventHeader :=
    ⟨i, 0, 1, .plain "mysql-bin.000001" n (n + 1)⟩
  [.tableMap (header 1 4) ⟨1, "orders", "shop", [], []⟩, .writeRows (header 2 5) 1 [[]]]

/-- The source of a pipe stops by itself, and the pipe is started again on top of what is left: the
destination is at work, and a checkpoint is being made. Then a row comes. -/
def restart : List Move :=
  .join .source "audit" :: .order .start :: List.replicate 8 (.call (.ok ())) ++
    [.free (.arrive (.failed (.source "connection lost"))), .tick 0, .order .start] ++
    List.replicate 6 (.call (.ok ())) ++ [.tick 0, .tick 0] ++
    List.replicate 2 (.call (.ok ())) ++
    [.free (.arrive (.event 0)), .free (.arrive (.event 1)), .free (.ask .accepted),
      .free (.ask .accepted)] ++
    List.replicate 4 (.free .offer) ++ [.free (.ask .accepted)]

/-- The pipe is at work again, and the destination was given the row. -/
theorem stays_wired_restarted :
    ∃ (source : Source Ear Memory) (dest : Destination Ear),
      SourcePlan.build { name := "shop" } .memory .empty = .ok source ∧
        DestinationPlan.build { name := "shop" } = .ok dest ∧
          ∃ s, s = (start ⟨"shop", some 1000⟩ source dest).run .memory oneRow restart ∧
            s.isStarted = true ∧ s.rounds.map (·.left) = [[]] ∧
            s.plant.depot.calls.map (·.length) = [1] ∧ s.Wired ∧
              ∀ side, (s.plant.ears side).remove .pipe = restart.foldl (Move.others side) .empty :=
  ⟨_, _, rfl, rfl, _, rfl, by decide +kernel, by decide +kernel, by decide +kernel,
    stays_wired (p := { name := "shop" }) (q := { name := "shop" })
      (show SourcePlan.build _ Store.memory .empty = .ok _ from rfl) rfl ⟨"shop", some 1000⟩ oneRow
      restart⟩

/-- The pipe is started up to its clock, if it has one. -/
def setUp : List Move := .order .start :: List.replicate 7 (.call (.ok ()))

/-- The row comes. -/
def row : List Move := [.free (.arrive (.event 0)), .free (.arrive (.event 1))]

/-- The pipe is stopped, and the row comes just before the source is closed. -/
def leaving : List Move :=
  setUp ++ .order .stop :: List.replicate 4 (.call (.ok ())) ++ row ++ [.free (.ask .accepted)]

/-- Somebody who listened before the pipe does not take the row. -/
def spoiled : List Move :=
  .join .source "audit" :: setUp ++ row ++ [.free (.ask (.refused (.source "full")))]

/-- There is no thread for the clock. -/
def clockless : List Move := setUp ++ [.call (.error (.other "no thread"))]

/-- The exceptions are there. A pipe at work may be off its source, which hands over a row that the
destination is never asked to send; so it is when somebody else keeps a row from the pipe; and a
start may fail that leaves the pipe at work. -/
theorem wired_exceptions :
    ∃ (source : Source Ear Memory) (dest : Destination Ear),
      SourcePlan.build { name := "shop" } .memory .empty = .ok source ∧
        DestinationPlan.build { name := "shop" } = .ok dest ∧
          (∃ s, s = (start ⟨"shop", none⟩ source dest).run .memory oneRow leaving ∧
            s.isStarted = true ∧ (s.plant.ears .source).members = [] ∧
              s.rounds.map (·.batch.length) = [1] ∧ s.plant.depot.calls = []) ∧
          (∃ s, s = (start ⟨"shop", none⟩ source dest).run .memory oneRow spoiled ∧
            s.rounds.map (fun r => (r.batch.length, r.ears)) = [(1, [.other "audit", .pipe])] ∧
              s.plant.depot.calls = []) ∧
          ∃ s, s = (start ⟨"shop", some 1000⟩ source dest).run .memory oneRow clockless ∧
            s.request = some .start ∧ (∃ e, s.call = .done (.error e)) ∧
              s.plant.source.isStarted = true ∧ .pipe ∈ (s.plant.ears .source).members := by
  refine ⟨_, _, rfl, rfl, ⟨_, rfl, ?_⟩, ⟨_, rfl, ?_⟩, ⟨_, rfl, ?_, ⟨_, rfl⟩, ?_⟩⟩
  all_goals decide +kernel

end Rig

end ChangeFeed
