import ChangeFeed.Proofs.Pipe.Routine
import ChangeFeed.Proofs.Pipe.Status
import ChangeFeed.Proofs.Pipe.Steady

/-!
# Calls and wiring

What a call to a part does to who listens to both sides, and to whether they are at work.

**Knowledge** (`Plant.Reflects`). What the one who makes the calls knows fits the source, the
destination and those who listen to them.

Main results: `Reflects.perform`, `others_perform` and `engaged_perform`.
-/

namespace ChangeFeed

namespace Destination

variable {ι : Type} {d : Destination ι}

/-- A destination that could not be opened was not at work, and it is not. -/
theorem not_started_of_openPool {e : Error} (h : d.openPool.1 = .error e) :
    d.started = false ∧ d.openPool.2.started = false := by
  unfold openPool at h ⊢
  split at h
  · cases h
  · rename_i hs
    refine ⟨Bool.eq_false_iff.2 hs, ?_⟩
    rw [if_neg hs]
    simp only at h
    simp [h, Except.toOption]

theorem not_started_closePool (d : Destination ι) : d.closePool.2.started = false := by
  unfold closePool
  split <;> rfl

end Destination

namespace Depot

variable {ι : Type}

theorem not_started_of_openPool {s : Depot ι} {e : Error} (h : s.dest.openPool.1 = .error e) :
    (s.step .openPool).dest.started = false := by
  obtain ⟨hs, hopen⟩ := Destination.not_started_of_openPool h
  simp only [step]
  split
  · exact hs
  · unfold openPool
    split
    · exact hs
    · split
      · rename_i hx
        rw [hx] at h
        cases h
      · rename_i hx
        rw [hx] at hopen
        exact hopen

end Depot

namespace Plant

variable {σ : Type} {store : Store σ} {answer : Except Error Unit} {s s' : Plant σ} {f : Facts}
  {c : PartCall}

/-- What is known fits the wiring and the two sides. -/
structure Reflects (f : Facts) (s : Plant σ) : Prop where
  listens : .pipe ∈ (s.ears .source).members ↔ f.listens = true
  taps : .pipe ∈ (s.ears .destination).members ↔ f.taps = true
  runs : s.source.isStarted = true → f.mayRun = true
  delivers : s.depot.dest.started = true → f.mayDeliver = true

theorem Reflects.steady (h : s.Reflects f) (hs : Steady s s') : s'.Reflects f where
  listens := by
    rw [hs.ears]
    exact h.listens
  taps := by
    rw [hs.ears]
    exact h.taps
  runs := fun hr => h.runs (hs.runs hr)
  delivers := fun hd => h.delivers (hs.delivers hd)

/-- Nothing that the pipe knows of changes when somebody else comes or goes. -/
theorem Reflects.others (h : s.Reflects f) {g : Listeners Ear → Listeners Ear}
    (hg : ∀ l, .pipe ∈ (g l).members ↔ .pipe ∈ l.members) (side : Side) :
    (s.rewire g side).Reflects f := by
  cases side with
  | source => exact ⟨(hg _).trans h.listens, h.taps, h.runs, h.delivers⟩
  | destination => exact ⟨h.listens, (hg _).trans h.taps, h.runs, h.delivers⟩

theorem Reflects.openSource (h : s.Reflects f) (store : Store σ) (answer : Except Error Unit) :
    (s.openSource store answer).2.Reflects
      { f with mayRun := (s.openSource store answer).1.isOk } := by
  have hears := Source.listeners_openFeed (server answer) store s.source s.feed
  rcases hx : s.source.openFeed (server answer) store s.feed with ⟨r, source, feed⟩
  rw [hx] at hears
  have hopen : s.openSource store answer = (r, { s with source, feed }) := by
    simp only [Plant.openSource, hx]
  rw [hopen]
  refine ⟨?_, h.taps, fun hr => ?_, h.delivers⟩
  · show .pipe ∈ source.listeners.members ↔ _
    rw [hears]
    exact h.listens
  · cases r with
    | error e =>
      rw [Source.not_started_of_openFeed hx] at hr
      cases hr
    | ok u => rfl

theorem Reflects.closeSource (h : s.Reflects f) (answer : Except Error Unit) :
    (∃ r s', s.closeSource answer = (some r, s') ∧ s'.Reflects { f with mayRun := false }) ∨
      s.closeSource answer = (none, s) := by
  unfold Plant.closeSource
  split
  · rename_i hh
    obtain ⟨c, -, hs⟩ := s.source.closeFeed_snd (server answer) s.feed
    have hrest := Source.not_started_closeFeed (server answer) s.source s.feed
    rcases hx : s.source.closeFeed (server answer) s.feed with ⟨r, source, feed⟩
    rw [hx] at hs hrest
    obtain rfl : source = { s.source with connection := c } := hs
    refine Or.inl ⟨r, _, rfl, h.listens, h.taps, fun hr => ?_, h.delivers⟩
    rw [hrest] at hr
    cases hr
  · exact Or.inr rfl

/-- The destination takes a step that leaves it at rest, or no more at work than it was. -/
theorem Reflects.depot (h : s.Reflects f) (m : Depot.Move) {b : Bool}
    (hb : (s.depot.step m).dest.started = true → b = true) :
    Reflects { f with mayDeliver := b } { s with depot := s.depot.step m } where
  listens := h.listens
  taps := by
    show .pipe ∈ (s.depot.step m).dest.listeners.members ↔ _
    rw [Depot.listeners_step (Depot.step_of_move s.depot m)]
    exact h.taps
  runs := h.runs
  delivers := hb

theorem Reflects.closeDestination (h : s.Reflects f) :
    (∃ r s', s.closeDestination = (some r, s') ∧ s'.Reflects { f with mayDeliver := false }) ∨
      ∃ s', s.closeDestination = (none, s') ∧ s'.Reflects f := by
  unfold Plant.closeDestination
  split
  · rename_i hc
    split
    · rename_i hq
      refine Or.inl ⟨_, _, rfl, h.depot .closePool fun hd => ?_⟩
      have hstep : s.depot.step .closePool = s.depot.closePool := by
        simp only [Depot.step, hc, if_pos hq]
      rw [hstep, Depot.closePool, Destination.not_started_closePool] at hd
      cases hd
    · exact Or.inr ⟨s, rfl, h⟩
  · refine Or.inr ⟨_, rfl, h.depot .stopAll fun hd => h.delivers ?_⟩
    simp only [Depot.step] at hd
    split at hd
    · cases hd
    · exact hd

/-- What is known after a step of a call fits. -/
theorem Reflects.perform (h : s.Reflects f) (store : Store σ) (answer : Except Error Unit)
    (c : PartCall) : (s.perform store answer c).2.Reflects
      (f.next (.part c) (s.perform store answer c).1) := by
  cases c with
  | addListener =>
    refine ⟨?_, h.taps, h.runs, h.delivers⟩
    simp [Plant.perform, listen, ears, Facts.next, Facts.after]
  | removeListener =>
    refine ⟨?_, h.taps, h.runs, h.delivers⟩
    simp [Plant.perform, listen, ears, Facts.next, Facts.after]
  | openSource => exact h.openSource store answer
  | closeSource =>
    show (s.closeSource answer).2.Reflects (f.next (.part .closeSource) (s.closeSource answer).1)
    rcases h.closeSource answer with ⟨r, s', heq, hrefl⟩ | heq
    · rw [heq]
      exact hrefl
    · rw [heq]
      exact h
  | sourceStarted =>
    exact ⟨h.listens, h.taps, fun hr => Bool.and_eq_true_iff.2 ⟨h.runs hr, hr⟩, h.delivers⟩
  | checkpointSource m? =>
    obtain ⟨g, t, q, n, hs⟩ := Source.checkpoint_eq store m? s.source
    show Reflects f { s with source := (s.source.checkpoint store m?).2 }
    rw [hs]
    exact ⟨h.listens, h.taps, h.runs, h.delivers⟩
  | openDestination =>
    refine h.depot .openPool fun hd => ?_
    cases hr : s.depot.dest.openPool.1 with
    | error e =>
      rw [Depot.not_started_of_openPool hr] at hd
      cases hd
    | ok u => rfl
  | closeDestination =>
    show s.closeDestination.2.Reflects (f.next (.part .closeDestination) s.closeDestination.1)
    rcases h.closeDestination with ⟨r, s', heq, hrefl⟩ | ⟨s', heq, hrefl⟩
    · rw [heq]
      exact hrefl
    · rw [heq]
      exact hrefl
  | destinationStarted =>
    exact ⟨h.listens, h.taps, h.runs, fun hd => Bool.and_eq_true_iff.2 ⟨h.delivers hd, hd⟩⟩
  | send ms => exact h
  | lastPublished => exact h

/-- A call leaves the other listeners alone. -/
theorem others_perform (s : Plant σ) (c : PartCall) (side : Side) :
    ((s.perform store answer c).2.ears side).remove .pipe = (s.ears side).remove .pipe := by
  have hdepot : ∀ {depot : Depot Ear}, s.depot.Step depot →
      (ears { s with depot } side).remove .pipe = (s.ears side).remove .pipe := by
    intro depot hst
    cases side with
    | source => rfl
    | destination => exact congrArg _ (Depot.listeners_step hst)
  cases c with
  | addListener => cases side <;> simp [perform, listen, ears]
  | removeListener => cases side <;> simp [perform, listen, ears]
  | openSource =>
    cases side with
    | source => exact congrArg _ (Source.listeners_openFeed (server answer) store s.source s.feed)
    | destination => rfl
  | closeSource =>
    show ((s.closeSource answer).2.ears side).remove .pipe = _
    rcases s.closeSource_cases answer with ⟨r, c, feed, -, -, heq⟩ | heq
    · rw [heq]
      cases side <;> rfl
    · rw [heq]
  | checkpointSource m? =>
    obtain ⟨g, t, q, n, hs⟩ := Source.checkpoint_eq store m? s.source
    show (ears { s with source := (s.source.checkpoint store m?).2 } side).remove .pipe = _
    rw [hs]
    cases side <;> rfl
  | openDestination => exact hdepot (Depot.step_of_move s.depot .openPool)
  | closeDestination =>
    show (s.closeDestination.2.ears side).remove .pipe = _
    rcases s.closeDestination_cases with ⟨r, depot, heq, hst, -⟩ | ⟨depot, heq, hst, -⟩
    · rw [heq]
      exact hdepot hst
    · rw [heq]
      exact hdepot hst
  | _ => rfl

/-- A call has no part in what the reading thread is about. -/
theorem hand_perform (s : Plant σ) (c : PartCall) : (s.perform store answer c).2.hand = s.hand := by
  cases c with
  | closeSource =>
    show (s.closeSource answer).2.hand = s.hand
    rcases s.closeSource_cases answer with ⟨r, c, feed, -, -, heq⟩ | heq <;> rw [heq]
  | closeDestination =>
    show s.closeDestination.2.hand = s.hand
    rcases s.closeDestination_cases with ⟨r, depot, heq, -, -⟩ | ⟨depot, heq, -, -⟩ <;> rw [heq]
  | _ => rfl

/-- The reading thread is as engaged after a call as before, if the destination is not closed under
its hand. -/
theorem engaged_perform (h : s.Engaged) (hc : c = .closeDestination → s.hand = .free) :
    (s.perform store answer c).2.Engaged := by
  cases c with
  | openSource =>
    refine ⟨fun hne => ?_, h.nodup, h.passesOn, h.calling⟩
    have hread : s.source.connection = .reading := h.busy hne
    -- The source is at work, so opening it does nothing.
    have hopen : s.source.openFeed (server answer) store s.feed = (.ok (), s.source, s.feed) := by
      simp only [Source.openFeed, hread]
    show (s.source.openFeed (server answer) store s.feed).2.1.connection = .reading
    rw [hopen]
    exact hread
  | closeSource =>
    show (s.closeSource answer).2.Engaged
    rcases s.closeSource_cases answer with ⟨r, c, feed, -, hh, heq⟩ | heq
    · rw [heq]
      have hcalling := h.calling
      rw [hh] at hcalling
      exact engaged_of_free hh hcalling
    · rw [heq]
      exact h
  | checkpointSource m? =>
    obtain ⟨g, t, q, n, hs⟩ := Source.checkpoint_eq store m? s.source
    show Engaged { s with source := (s.source.checkpoint store m?).2 }
    rw [hs]
    exact ⟨h.busy, h.nodup, h.passesOn, h.calling⟩
  | openDestination =>
    refine ⟨h.busy, h.nodup, h.passesOn, ?_⟩
    show (s.depot.step .openPool).caller.isSending = _
    rw [Depot.caller_openPool]
    exact h.calling
  | closeDestination =>
    have hh := hc rfl
    have hcalling := h.calling
    rw [hh] at hcalling
    show s.closeDestination.2.Engaged
    rcases s.closeDestination_cases with ⟨r, depot, heq, -, hcall⟩ | ⟨depot, heq, -, hcall⟩
    · rw [heq]
      refine engaged_of_free (s := { s with depot }) hh ?_
      rw [hcall]
      rfl
    · rw [heq]
      exact engaged_of_free hh (hcall hcalling)
  | _ => exact ⟨h.busy, h.nodup, h.passesOn, h.calling⟩

end Plant

end ChangeFeed
