import ChangeFeed.Proofs.Pipe.Effects
import ChangeFeed.Proofs.Pipe.Rounds

/-!
# Upkeep of the wiring

Every move of a rig keeps the pipe wired up.

**The invariant** (`Rig.Kept`). What can be told from the replies that the owner's call had fits the
rig, and with what is left of it the call keeps to the rules of `Routine.Keeps`. There is at most
one clock, the one that the pipe knows, and it does nothing but make checkpoints. The record of the
rounds is that of the parts (`Told`).

Main result: `kept_step`.
-/

namespace ChangeFeed

namespace Rig

variable {σ : Type} {store : Store σ} {log : List LogEvent} {answer : Except Error Unit}
  {s : Rig σ} {f : Facts} {a : Act}

/-- What is known fits the parts and the clocks. -/
structure Fits (f : Facts) (s : Rig σ) : Prop where
  request : f.request = s.request
  denied : f.denied = s.denied
  parts : s.plant.Reflects f
  clocks : s.held = false ∧ s.clocks = [] ∨ s.held = true ∧ f.mayTick = true ∧ ∃ c, s.clocks = [c]

/-- What holds whatever the owner's call is about. -/
structure Tidy (s : Rig σ) : Prop where
  clocks : ∀ c ∈ s.clocks, c.saving.Quiet
  engaged : s.plant.Engaged
  told : Told s.plant s.rounds

/-- What holds after every move. -/
structure Kept (s : Rig σ) : Prop where
  tidy : s.Tidy
  owner : ∃ f, s.Fits f ∧ s.call.Keeps f
  closing : s.plant.depot.caller.isClosing = true → s.call.closesDestination = true

theorem Kept.listens (h : s.Kept) (hc : s.call.closesSource = false)
    (hs : s.plant.source.isStarted = true) : .pipe ∈ (s.plant.ears .source).members := by
  obtain ⟨f, hf, hk⟩ := h.owner
  exact hf.parts.listens.2 (hk.hears hc (hf.parts.runs hs))

theorem Kept.taps (h : s.Kept) (hs : s.isStarted = true) :
    .pipe ∈ (s.plant.ears .destination).members := by
  obtain ⟨f, hf, hk⟩ := h.owner
  obtain ⟨hsource, hdest⟩ := Bool.and_eq_true_iff.1 hs
  exact hf.parts.taps.2 (hk.feels (hf.parts.runs hsource) (hf.parts.delivers hdest))

/-- The pipe is off the source when this is closed next. If the pipe is at work, that is a stop. -/
theorem Kept.leaves (h : s.Kept) (hc : s.call.closesSource = true) :
    .pipe ∉ (s.plant.ears .source).members ∧
      (s.isStarted = true → s.request = some .stop) := by
  obtain ⟨f, hf, hk⟩ := h.owner
  obtain ⟨hlistens, hstop⟩ := hk.off_source hc
  refine ⟨fun hm => ?_, fun hs => ?_⟩
  · cases hlistens.symm.trans (hf.parts.listens.1 hm)
  · rw [← hf.request]
    exact (hstop (hf.parts.delivers (Bool.and_eq_true_iff.1 hs).2)).2

/-- How often the pipe is among those who listen to a source at work. -/
theorem Kept.count (h : s.Kept) (hs : s.plant.source.isStarted = true) :
    (s.plant.ears .source).members.count .pipe = if s.call.closesSource then 0 else 1 := by
  cases hc : s.call.closesSource with
  | false => exact Listeners.count_eq_one _ (h.listens hc hs)
  | true => exact List.count_eq_zero.2 (h.leaves hc).1

/-- Nobody closes the destination while the reading thread is about something. -/
theorem Kept.not_closing (h : s.Kept) (hne : s.plant.hand ≠ .free) :
    s.plant.depot.caller.isClosing = false := by
  obtain ⟨f, hf, hk⟩ := h.owner
  rw [Bool.eq_false_iff]
  intro hc
  have hread := h.tidy.engaged.busy hne
  have hrun : f.mayRun = true := hf.parts.runs (by simp [Source.isStarted, hread])
  cases hrun.symm.trans (hk.not_running (h.closing hc))

/-! ## Acts -/

/-- The owner, what it was asked and the other listeners are left alone. -/
structure Still (s s' : Rig σ) : Prop where
  call : s'.call = s.call
  request : s'.request = s.request
  others : ∀ side, (s'.plant.ears side).remove .pipe = (s.plant.ears side).remove .pipe

theorem Still.refl (s : Rig σ) : Still s s := ⟨rfl, rfl, fun _ => rfl⟩

theorem still_perform (store : Store σ) (answer : Except Error Unit) (a : Act) (s : Rig σ) :
    Still s (s.perform store answer a).2 := by
  cases a with
  | part c =>
    exact ⟨rfl, rfl, Plant.others_perform s.plant c⟩
  | addTap =>
    refine ⟨rfl, rfl, fun side => ?_⟩
    simp only [perform, Plant.ears_rewire]
    split <;> simp
  | removeTap =>
    refine ⟨rfl, rfl, fun side => ?_⟩
    simp only [perform, Plant.ears_rewire]
    split <;> simp
  | tally t => exact .refl s
  | startClock n => cases answer <;> exact ⟨rfl, rfl, fun _ => rfl⟩
  | stopClock =>
    simp only [perform]
    split
    · exact ⟨rfl, rfl, fun _ => rfl⟩
    · exact ⟨rfl, rfl, fun _ => rfl⟩
    · exact .refl s
    · exact .refl s

/-- What is known after a step of an act fits. A clock is started only when there is none. -/
theorem Fits.perform (h : s.Fits f) (store : Store σ) (answer : Except Error Unit)
    (ha : ∀ n, a = .startClock n → f.mayTick = false) :
    (s.perform store answer a).2.Fits (f.next a (s.perform store answer a).1) := by
  have hrequest : (f.next a (s.perform store answer a).1).request =
      (s.perform store answer a).2.request := by
    rw [Facts.request_next, (still_perform store answer a s).request, h.request]
  obtain ⟨-, hdenied, hparts, hclocks⟩ := h
  cases a with
  | part c =>
    obtain ⟨htick, hdeny⟩ := f.next_part c (s.perform store answer (.part c)).1
    refine ⟨hrequest, hdeny.trans hdenied, hparts.perform store answer c, ?_⟩
    rw [htick]
    exact hclocks
  | addTap =>
    refine ⟨hrequest, hdenied, ⟨hparts.listens, ?_, hparts.runs, hparts.delivers⟩, hclocks⟩
    simp [Rig.perform, Plant.rewire, Plant.ears, Facts.next, Facts.after]
  | removeTap =>
    refine ⟨hrequest, hdenied, ⟨hparts.listens, ?_, hparts.runs, hparts.delivers⟩, hclocks⟩
    simp [Rig.perform, Plant.rewire, Plant.ears, Facts.next, Facts.after]
  | tally t => exact ⟨hrequest, hdenied, hparts, hclocks⟩
  | startClock n =>
    have htick := ha n rfl
    cases answer with
    | error e =>
      refine ⟨hrequest, rfl, ⟨hparts.listens, hparts.taps, hparts.runs, hparts.delivers⟩, ?_⟩
      rcases hclocks with hnone | ⟨-, hmay, -⟩
      · exact Or.inl hnone
      · cases hmay.symm.trans htick
    | ok u =>
      refine ⟨hrequest, rfl, ⟨hparts.listens, hparts.taps, hparts.runs, hparts.delivers⟩, ?_⟩
      -- There is no clock yet, so the new one is the only one.
      rcases hclocks with ⟨-, hnil⟩ | ⟨-, hmay, -⟩
      · refine Or.inr ⟨rfl, Bool.or_true _, ⟨n, .done (.ok ())⟩, ?_⟩
        show _ :: s.clocks = _
        rw [hnil]
      · cases hmay.symm.trans htick
  | stopClock =>
    have hquiet : s.plant.Reflects { f with mayTick := false } :=
      ⟨hparts.listens, hparts.taps, hparts.runs, hparts.delivers⟩
    rcases hclocks with ⟨hheld, hnil⟩ | ⟨hheld, htick, ⟨period, saving⟩, hc⟩
    · simp only [Rig.perform, hheld] at hrequest ⊢
      exact ⟨hrequest, hdenied, hquiet, Or.inl ⟨hheld, hnil⟩⟩
    · cases answer with
      | error e =>
        simp only [Rig.perform, hheld, hc] at hrequest ⊢
        exact ⟨hrequest, hdenied, hquiet, Or.inl ⟨rfl, rfl⟩⟩
      | ok u =>
        cases saving with
        | done r =>
          simp only [Rig.perform, hheld, hc] at hrequest ⊢
          exact ⟨hrequest, hdenied, hquiet, Or.inl ⟨rfl, rfl⟩⟩
        | ask a next =>
          -- The clock is about a checkpoint, and is waited for.
          simp only [Rig.perform, hheld, hc] at hrequest ⊢
          exact ⟨hrequest, hdenied, hparts, Or.inr ⟨hheld, htick, _, hc⟩⟩

/-- The pipe begins or ceases to listen to the destination. -/
theorem Tidy.rewire (h : s.Tidy) (g : Listeners Ear → Listeners Ear) (side : Side) :
    Tidy { s with plant := s.plant.rewire g side } := by
  obtain ⟨hclocks, hengaged, htold⟩ := h
  cases side with
  | source =>
    exact ⟨hclocks, ⟨hengaged.busy, hengaged.nodup, hengaged.passesOn, hengaged.calling⟩,
      htold.idle rfl (.refl _)⟩
  | destination =>
    exact ⟨hclocks, ⟨hengaged.busy, hengaged.nodup, hengaged.passesOn, hengaged.calling⟩,
      htold.idle rfl ⟨rfl, rfl, rfl⟩⟩

theorem Tidy.perform (h : s.Tidy) (store : Store σ) (answer : Except Error Unit)
    (ha : a = .part .closeDestination → s.plant.hand = .free) :
    (s.perform store answer a).2.Tidy := by
  cases a with
  | part c =>
    exact ⟨h.clocks, Plant.engaged_perform h.engaged fun hc => ha (by rw [hc]),
      h.told.idle (Plant.hand_perform s.plant c) (s.plant.accounts_perform store answer c)⟩
  | addTap => exact h.rewire (·.add .pipe) .destination
  | removeTap => exact h.rewire (·.remove .pipe) .destination
  | tally t => exact h
  | startClock n =>
    cases answer with
    | error e => exact ⟨h.clocks, h.engaged, h.told⟩
    | ok u =>
      refine ⟨fun c hc => ?_, h.engaged, h.told⟩
      rcases List.mem_cons.1 hc with rfl | hc
      · trivial
      · exact h.clocks c hc
  | stopClock =>
    simp only [Rig.perform]
    split
    · rename_i clock clocks e hheld hc
      refine ⟨fun c hmem => h.clocks c ?_, h.engaged, h.told⟩
      rw [hc]
      exact List.mem_cons_of_mem _ hmem
    · rename_i period r clocks hheld hc
      refine ⟨fun c hmem => h.clocks c ?_, h.engaged, h.told⟩
      rw [hc]
      exact List.mem_cons_of_mem _ hmem
    · exact h
    · exact h

/-- Only to close the destination makes it be closed, until the reply. -/
theorem closing_perform (store : Store σ) (answer : Except Error Unit) (a : Act) (s : Rig σ)
    (hc : (s.perform store answer a).2.plant.depot.caller.isClosing = true) :
    a = .part .closeDestination ∧ (s.perform store answer a).1 = none ∨
      a ≠ .part .closeDestination ∧ s.plant.depot.caller.isClosing = true := by
  cases a with
  | part c =>
    rcases Plant.closing_perform (s := s.plant) hc with ⟨rfl, hr⟩ | ⟨hne, hc⟩
    · exact Or.inl ⟨rfl, hr⟩
    · exact Or.inr ⟨fun heq => hne (Act.part.inj heq), hc⟩
  | startClock n =>
    refine Or.inr ⟨by exact nofun, ?_⟩
    cases answer <;> exact hc
  | stopClock =>
    refine Or.inr ⟨by exact nofun, ?_⟩
    simp only [Rig.perform] at hc
    split at hc <;> exact hc
  | _ => exact Or.inr ⟨by exact nofun, hc⟩

/-! ## Moves -/

theorem turn_of_reply {α : Type} {next : a.Reply → Routine α} {r : a.Reply} {s' : Rig σ}
    (h : s.perform store answer a = (some r, s')) :
    s.turn store answer (.ask a next) = (next r, s') := by
  simp only [turn, h]

theorem turn_of_none {α : Type} {next : a.Reply → Routine α} {s' : Rig σ}
    (h : s.perform store answer a = (none, s')) :
    s.turn store answer (.ask a next) = (.ask a next, s') := by
  simp only [turn, h]

/-- A request is begun after the last one. -/
theorem Kept.order (h : s.Kept) {r : Except Error Unit} (hr : s.call = .done r) (q : Request) :
    Kept { s with call := q.routine s.plant.pipe, request := some q, denied := false } where
  tidy := ⟨h.tidy.clocks, h.tidy.engaged, h.tidy.told⟩
  owner := by
    obtain ⟨f, hf, hk⟩ := h.owner
    rw [hr] at hk
    have hsafe : (f.ask q).Safe := ⟨hk.safe.hears, hk.safe.feels⟩
    have hparts : s.plant.Reflects (f.ask q) :=
      ⟨hf.parts.listens, hf.parts.taps, hf.parts.runs, hf.parts.delivers⟩
    exact ⟨f.ask q, ⟨rfl, rfl, hparts, hf.clocks⟩, Pipe.keeps_routine s.plant.pipe q hsafe rfl⟩
  closing := by
    intro hc
    have hcloses := h.closing hc
    rw [hr] at hcloses
    cases hcloses

/-- What the owner's call goes on with keeps what is known. -/
theorem kept_of_call (htidy : s.Tidy) (hfits : s.Fits f) {call : Routine (Except Error Unit)}
    (hk : call.Keeps f)
    (hclosing : s.plant.depot.caller.isClosing = true → call.closesDestination = true) :
    Kept { s with call } where
  tidy := ⟨htidy.clocks, htidy.engaged, htidy.told⟩
  owner := ⟨f, ⟨hfits.request, hfits.denied, hfits.parts, hfits.clocks⟩, hk⟩
  closing := hclosing

/-- The owner's call takes a step. -/
theorem Kept.call (h : s.Kept) (store : Store σ) (answer : Except Error Unit) :
    Kept { (s.turn store answer s.call).2 with call := (s.turn store answer s.call).1 } := by
  obtain ⟨f, hf, hk⟩ := h.owner
  cases hcall : s.call with
  | done r =>
    show Kept { s with call := .done r }
    rw [← hcall]
    exact h
  | ask a next =>
    rw [hcall] at hk
    obtain ⟨ha, hnext⟩ := hk
    have hstart : ∀ n, a = .startClock n → f.mayTick = false := by
      rintro n rfl
      exact ha.2
    -- The owner closes the destination only when the source is not at work.
    have hfree : a = .part .closeDestination → s.plant.hand = .free := by
      rintro rfl
      apply h.tidy.engaged.free
      rw [Bool.eq_false_iff]
      intro hs
      cases (hf.parts.runs hs).symm.trans ha
    have htidy := h.tidy.perform store answer hfree
    have hfits := hf.perform store answer hstart
    have hclosing := closing_perform store answer a s
    rcases hp : s.perform store answer a with ⟨_ | r, s'⟩
    · rw [hp] at htidy hfits hclosing
      rw [turn_of_none hp]
      refine kept_of_call htidy hfits ⟨ha, hnext⟩ fun hc => ?_
      rcases hclosing hc with ⟨rfl, -⟩ | ⟨-, hc⟩
      · rfl
      · have hcloses := h.closing hc
        rwa [hcall] at hcloses
    · rw [hp] at htidy hfits hclosing
      rw [turn_of_reply hp]
      refine kept_of_call htidy hfits (hnext r) fun hc => ?_
      rcases hclosing hc with ⟨-, hr⟩ | ⟨hne, hc⟩
      · cases hr
      · have hcloses := h.closing hc
        rw [hcall] at hcloses
        exact absurd (Routine.eq_of_closesDestination hcloses) hne

/-- A quiet routine takes a step. -/
theorem Kept.quietTurn (h : s.Kept) (store : Store σ) (answer : Except Error Unit) {α : Type}
    {k : Routine α} (hq : k.Quiet) :
    (s.turn store answer k).2.Kept ∧ (s.turn store answer k).1.Quiet := by
  cases k with
  | done r => exact ⟨h, hq⟩
  | ask a next =>
    obtain ⟨ha, hnext⟩ := hq
    obtain ⟨f, hf, hk⟩ := h.owner
    -- A quiet routine neither starts a clock nor closes the destination.
    have hstart : ∀ n, a = .startClock n → f.mayTick = false := by
      rintro n rfl
      cases ha
    have hne : a ≠ .part .closeDestination := by
      rintro rfl
      cases ha
    have htidy := h.tidy.perform store answer fun hc => absurd hc hne
    have hstill := still_perform store answer a s
    have hfits := hf.perform store answer hstart
    rw [Facts.next_of_isQuiet ha] at hfits
    have hkept : (s.perform store answer a).2.Kept := by
      refine ⟨htidy, ⟨f, hfits, ?_⟩, fun hc => ?_⟩
      · rw [hstill.call]
        exact hk
      · rw [hstill.call]
        rcases closing_perform store answer a s hc with ⟨heq, -⟩ | ⟨-, hc⟩
        · exact absurd heq hne
        · exact h.closing hc
    rcases hp : s.perform store answer a with ⟨_ | r, s'⟩
    · rw [hp] at hkept
      rw [turn_of_none hp]
      exact ⟨hkept, ha, hnext⟩
    · rw [hp] at hkept
      rw [turn_of_reply hp]
      exact ⟨hkept, hnext r⟩

theorem Kept.setClock (h : s.Kept) (n : Nat) {c : Clock} (hc : c.saving.Quiet) :
    Kept { s with clocks := s.clocks.set n c } where
  tidy := by
    refine ⟨fun c' hc' => ?_, h.tidy.engaged, h.tidy.told⟩
    rcases List.mem_or_eq_of_mem_set hc' with hc' | rfl
    · exact h.tidy.clocks c' hc'
    · exact hc
  owner := by
    obtain ⟨f, hf, hk⟩ := h.owner
    refine ⟨f, ⟨hf.request, hf.denied, hf.parts, ?_⟩, hk⟩
    rcases hf.clocks with ⟨hheld, hnil⟩ | ⟨hheld, htick, c', hone⟩
    · refine Or.inl ⟨hheld, ?_⟩
      rw [hnil, List.set_nil]
    · refine Or.inr ⟨hheld, htick, ?_⟩
      rw [hone]
      cases n with
      | zero => exact ⟨c, rfl⟩
      | succ n => exact ⟨c', rfl⟩
  closing := h.closing

theorem Kept.tick (h : s.Kept) (store : Store σ) (n : Nat) : (s.tick store n).Kept := by
  unfold Rig.tick
  split
  · exact h
  · exact h.setClock n Pipe.quiet_checkpoint
  · rename_i period saving hne hn
    have hquiet : saving.Quiet := h.tidy.clocks _ (List.mem_of_getElem? hn)
    obtain ⟨hkept, hquiet⟩ := h.quietTurn store (.ok ()) hquiet
    exact hkept.setClock n hquiet

/-- What comes without a call keeps the pipe wired up. -/
theorem Kept.free (h : s.Kept) (store : Store σ) (log : List LogEvent) {m : Plant.Move}
    (hm : m.isFree = true) :
    Kept { s with
      plant := s.plant.step store log m
      rounds := Round.record s.call.closesSource s.plant (s.plant.step store log m) s.rounds } := by
  have hsteady := Plant.steady_step store log h.tidy.engaged hm
  have hcount : s.plant.source.connection = .reading →
      s.plant.source.listeners.members.count .pipe = if s.call.closesSource then 0 else 1 :=
    fun hread => h.count (by simp [Source.isStarted, hread])
  refine ⟨⟨h.tidy.clocks, ?_, ?_⟩, ?_, fun hc => h.closing (hsteady.closing hc)⟩
  · exact Plant.engaged_step store log h.tidy.engaged h.not_closing hm
  · exact h.tidy.told.step h.tidy.engaged h.not_closing hcount store log hm
  · obtain ⟨f, hf, hk⟩ := h.owner
    exact ⟨f, ⟨hf.request, hf.denied, hf.parts.steady hsteady, hf.clocks⟩, hk⟩

/-- Others come and go. -/
theorem Kept.rewire (h : s.Kept) {g : Listeners Ear → Listeners Ear}
    (hg : ∀ l, .pipe ∈ (g l).members ↔ .pipe ∈ l.members) (side : Side) :
    Kept { s with plant := s.plant.rewire g side } := by
  obtain ⟨f, hf, hk⟩ := h.owner
  have hfits : Fits f { s with plant := s.plant.rewire g side } :=
    ⟨hf.request, hf.denied, hf.parts.others hg side, hf.clocks⟩
  refine ⟨h.tidy.rewire g side, ⟨f, hfits, hk⟩, fun hc => h.closing ?_⟩
  cases side <;> exact hc

/-- Whatever happens next, the pipe is kept wired up. -/
theorem kept_step (store : Store σ) (log : List LogEvent) (h : s.Kept) (m : Move) :
    (s.step store log m).Kept := by
  cases m with
  | order q =>
    simp only [step]
    split
    · rename_i r hr
      exact h.order hr q
    · exact h
  | call answer => exact h.call store answer
  | tick n => exact h.tick store n
  | free m =>
    simp only [step]
    split
    · rename_i hm
      exact h.free store log hm
    · exact h
  | join side name => exact h.rewire (by simp) side
  | part side name => exact h.rewire (by simp) side

end Rig

end ChangeFeed
