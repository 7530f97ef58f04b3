import ChangeFeed.Proofs.Pipe.Arrivals

/-!
# What calls do

A call to a part that is allowed keeps what holds of the pipe and its parts, whoever makes it.

**Stances** (`Plant.Fits`). What each stance says of the source.

**Trust** (`Plant.Trusts`). Mutations that the destination gave as the last safe ones are safe
to resume after.

**Calm** (`Plant.Calm`). What everybody but the owner of the pipe may do: the pipe listens as
before, and the source does not begin to read.

Main results: `core_perform`, `fits_perform`, `trusts_perform` and `calm_perform`.
-/

namespace ChangeFeed

/-- Closing leaves a source that does not read. -/
theorem Source.closeFeed_snd {ι σ ω : Type} (client : LogClient ω) (s : Source ι σ) (w : ω) :
    ∃ c ≠ Connection.reading, (s.closeFeed client w).2.1 = { s with connection := c } := by
  unfold Source.closeFeed
  cases hc : s.connection with
  | reading => exact ⟨.idle, by exact nofun, rfl⟩
  | ended => exact ⟨.idle, by exact nofun, rfl⟩
  | crashed => exact ⟨.lost, by exact nofun, rfl⟩
  | idle => exact ⟨s.connection, by rw [hc]; exact nofun, rfl⟩
  | lost => exact ⟨s.connection, by rw [hc]; exact nofun, rfl⟩

/-- To open a destination is no concern of its caller. -/
theorem Depot.caller_openPool {ι : Type} (s : Depot ι) : (s.step .openPool).caller = s.caller := by
  simp only [Depot.step]
  split
  · rfl
  · unfold Depot.openPool
    split
    · rfl
    · split <;> rfl

namespace Plant

variable {σ : Type} {store : Store σ} {d : Duty} {s s' : Plant σ} {known : List Mutation}
  {st : Stance} {answer : Except Error Unit} {c : PartCall}

/-! ## Closing -/

/-- Closing the source leaves it at rest, or waits for the reading thread. -/
theorem closeSource_cases (answer : Except Error Unit) (s : Plant σ) :
    (∃ r c feed, c ≠ Connection.reading ∧ s.hand = .free ∧ s.closeSource answer =
        (some r, { s with source := { s.source with connection := c }, feed })) ∨
      s.closeSource answer = (none, s) := by
  unfold closeSource
  cases hh : s.hand with
  | free =>
    obtain ⟨c, hc, hs⟩ := s.source.closeFeed_snd (server answer) s.feed
    rcases hx : s.source.closeFeed (server answer) s.feed with ⟨r, source, feed⟩
    rw [hx] at hs
    obtain rfl : source = { s.source with connection := c } := hs
    exact Or.inl ⟨r, c, feed, hc, rfl, rfl⟩
  | asking ms ears => exact Or.inr rfl
  | sending ms next ears => exact Or.inr rfl

/-- Closing the destination comes back, or goes on to wait for the workers. -/
theorem closeDestination_cases (s : Plant σ) :
    (∃ r depot, s.closeDestination = (some r, { s with depot }) ∧ s.depot.Step depot ∧
        depot.caller = .done r) ∨
      ∃ depot, s.closeDestination = (none, { s with depot }) ∧ s.depot.Step depot ∧
        (s.depot.caller.isSending = false → depot.caller.isSending = false) := by
  unfold closeDestination
  split
  · rename_i hc
    split
    · rename_i hq
      refine Or.inl ⟨_, _, rfl, Depot.step_of_move s.depot .closePool, ?_⟩
      simp only [Depot.step, hc, if_pos hq, Depot.closePool]
    · exact Or.inr ⟨s.depot, rfl, .same, id⟩
  · refine Or.inr ⟨_, rfl, Depot.step_of_move s.depot .stopAll, fun hs => ?_⟩
    simp only [Depot.step]
    split
    · rfl
    · exact hs

/-! ## Stances and trust -/

/-- What a stance says of the source. -/
def Fits (s : Plant σ) : Stance → Prop
  | .apart | .loose => True
  | .ready => .pipe ∈ s.source.listeners.members ∨ s.source.connection ≠ .reading
  | .listening => .pipe ∈ s.source.listeners.members
  | .quiet => s.source.connection ≠ .reading

/-- All that lies before the point after each of the mutations is published. -/
def Trusts (d : Duty) (s : Plant σ) (known : List Mutation) : Prop :=
  ∀ m, .row m ∈ known → d.Done (Published s.depot.published) (ResumePoint.after m).position

theorem trusts_nil (d : Duty) (s : Plant σ) : s.Trusts d [] := by
  intro m hm
  cases hm

theorem Trusts.mono (h : s.Trusts d known) (hpub : s.depot.published ⊆ s'.depot.published) :
    s'.Trusts d known :=
  fun m hm => (h m hm).mono fun _ hc => hc.mono hpub

/-- Nothing happened that the owner of the pipe would have to know, and no call went on. -/
structure Calm (s s' : Plant σ) : Prop where
  call : s'.call = s.call
  savers : s'.savers = s.savers
  listens : .pipe ∈ s'.source.listeners.members ↔ .pipe ∈ s.source.listeners.members
  reading : s'.source.connection = .reading → s.source.connection = .reading
  published : s.depot.published ⊆ s'.depot.published
  closing : s'.depot.caller.isClosing = true → s.depot.caller.isClosing = true

theorem Calm.refl (s : Plant σ) : Calm s s :=
  ⟨rfl, rfl, Iff.rfl, id, List.Subset.refl _, id⟩

theorem Calm.trans {s₁ s₂ s₃ : Plant σ} (h : Calm s₁ s₂) (h' : Calm s₂ s₃) : Calm s₁ s₃ where
  call := h'.call.trans h.call
  savers := h'.savers.trans h.savers
  listens := h'.listens.trans h.listens
  reading := fun hr => h.reading (h'.reading hr)
  published := List.Subset.trans h.published h'.published
  closing := fun hc => h.closing (h'.closing hc)

theorem Calm.fits (h : Calm s s') (hst : s.Fits st) : s'.Fits st := by
  cases st with
  | apart => trivial
  | loose => trivial
  | ready => exact hst.imp h.listens.2 fun hn hr => hn (h.reading hr)
  | listening => exact h.listens.2 hst
  | quiet => exact fun hr => hst (h.reading hr)

theorem calm_alike {source : Source Ear σ} (ha : s.source.Alike source) :
    Calm s { s with source } where
  call := rfl
  savers := rfl
  listens := by
    show .pipe ∈ source.listeners.members ↔ _
    rw [ha.listeners]
  reading := fun hr => ha.connection ▸ hr
  published := List.Subset.refl _
  closing := id

/-! ## The parts after a call -/

theorem Core.free (h : Core store d s) (hconn : s.source.connection ≠ .reading) :
    s.hand = .free := by
  by_contra hne
  exact hconn (h.busy hne)

theorem Core.not_sending (h : Core store d s) (hhand : s.hand = .free) :
    s.depot.caller.isSending = false := by
  rw [h.calling, hhand]
  rfl

/-- The progress of the source changes at most. -/
theorem core_alike (h : Core store d s) {source : Source Ear σ} (ha : s.source.Alike source)
    (hk : source.Keeps store (d.Done (Published s.depot.published))) :
    Core store d { s with source } where
  sound := h.sound
  backed := h.backed
  keeps := hk
  tables := ha.tables.trans h.tables
  origin := by
    rw [ha.reader]
    exact h.origin
  intact := by
    intro hread hears
    rw [ha.connection] at hread
    refine (h.intact hread ?_).same ha.reader rfl (List.Subset.refl _) (fun _ hc => hc) rfl
    unfold Hears at hears
    rwa [ha.listeners] at hears
  busy := by
    rw [ha.connection]
    exact h.busy
  ears := h.ears
  passesOn := h.passesOn
  calling := h.calling
  resting := by
    rw [ha.connection]
    exact h.resting

theorem core_openSource (hf : store.Faithful) (h : Core store d s)
    (hclosing : s.depot.caller.isClosing = false) :
    Core store d (s.openSource store answer).2 := by
  have hopening := Source.opening_openFeed (server answer) hf h.keeps s.feed
  unfold openSource
  generalize s.source.openFeed (server answer) store s.feed = x at hopening
  cases hopening with
  | going hs => exact h
  | failed hs hc ha hk =>
    refine core_of_ended h.sound h.backed hk (ha.tables.trans h.tables) ?_ ?_ (h.free hs)
      (h.not_sending (h.free hs))
    · show _ = d.origin
      rw [ha.reader]
      exact h.origin
    · show _ ≠ Connection.reading
      rw [ha.connection]
      exact hc
  | @begun p source hs hp ha hk =>
    have hhand := h.free hs
    exact {
      sound := h.sound
      backed := h.backed
      keeps := hk
      tables := ha.tables.trans h.tables
      origin := by
        show source.reader.mapper.dataSource = d.origin
        rw [ha.reader]
        exact h.origin
      intact := by
        intro _ _
        -- The attempt has read nothing, so it has missed nothing.
        have hreader : source.reader = .start s.source.tables p s.source.reader.mapper := ha.reader
        refine ⟨hp, ?_, ?_, ?_, Feed.complete_start d.log p, ?_, ?_⟩
        · show source.reader.duplicates.resumedFrom = p
          rw [hreader]
          rfl
        · show source.reader.tables.tables = _
          rw [hreader, ← h.tables]
          rfl
        · show source.reader.Tracks []
          rw [hreader]
          exact Reader.tracks_start _ _ _
        · intro i hi
          cases hi
        · intro m hm
          unfold todo at hm
          rw [hhand] at hm
          cases hm
      busy := fun hne => absurd hhand hne
      ears := h.ears
      passesOn := h.passesOn
      calling := h.calling
      resting := by
        intro hc
        rw [hclosing] at hc
        cases hc }

theorem core_closeSource (h : Core store d s) :
    Core store d (s.closeSource answer).2 := by
  rcases s.closeSource_cases answer with ⟨r, c, feed, hc, hhand, heq⟩ | heq
  · rw [heq]
    exact core_of_ended h.sound h.backed (h.keeps.of_eq rfl rfl rfl) h.tables h.origin hc hhand
      (h.not_sending hhand)
  · rw [heq]
    exact h

/-- The destination is called while the source does not read. -/
theorem core_quiet (hlog : d.Ordered) (h : Core store d s) (hconn : s.source.connection ≠ .reading)
    {depot : Depot Ear} (hst : s.depot.Step depot) (hcall : depot.caller.isSending = false) :
    Core store d { s with depot } :=
  core_of_ended (Depot.sound_step h.sound hst)
    (Depot.backed_step h.sound h.backed (h.ready hlog) hst)
    (h.keeps.mono fun _ hp => hp.mono fun _ hc => hc.mono (Depot.published_step hst)) h.tables
    h.origin hconn (h.free hconn) hcall

theorem core_closeDestination (hlog : d.Ordered) (h : Core store d s)
    (hconn : s.source.connection ≠ .reading) :
    Core store d s.closeDestination.2 := by
  rcases s.closeDestination_cases with ⟨r, depot, heq, hst, hc⟩ | ⟨depot, heq, hst, hc⟩
  · rw [heq]
    refine core_quiet hlog h hconn hst ?_
    rw [hc]
    rfl
  · rw [heq]
    exact core_quiet hlog h hconn hst (hc (h.not_sending (h.free hconn)))

/-- A call that is allowed in a stance that fits keeps what holds of the pipe and its parts. -/
theorem core_perform (hlog : d.Ordered) (hf : store.Faithful) (h : Core store d s)
    (hknown : s.Trusts d known) (hst : s.Fits st) (hc : c.Allowed known st)
    (hopen : c = .openSource → s.depot.caller.isClosing = false) :
    Core store d (s.perform store answer c).2 := by
  cases c with
  | addListener =>
    refine core_listen h fun _ => ?_
    rcases hc with rfl | rfl | rfl
    · exact hst
    · exact Or.inl hst
    · exact Or.inr hst
  | removeListener => exact core_listen h fun hm => absurd rfl (Listeners.mem_remove.1 hm).1
  | openSource => exact core_openSource hf h (hopen rfl)
  | closeSource => exact core_closeSource h
  | checkpointSource m? =>
    have hkeeps := Source.keeps_checkpoint hf h.keeps fun m hm => hknown m (hc _ hm)
    exact core_alike h hkeeps.1 hkeeps.2
  | openDestination =>
    exact core_depot hlog h (Depot.step_of_move s.depot .openPool) (Depot.caller_openPool s.depot)
  | closeDestination =>
    obtain rfl : st = .quiet := hc
    exact core_closeDestination hlog h hst
  | send ms => exact absurd hc id
  | sourceStarted => exact h
  | destinationStarted => exact h
  | lastPublished => exact h

/-! ## What the caller knows after a call -/

/-- What is published stays so. -/
theorem published_perform : s.depot.published ⊆ (s.perform store answer c).2.depot.published := by
  cases c with
  | closeSource =>
    show _ ⊆ (s.closeSource answer).2.depot.published
    rcases s.closeSource_cases answer with ⟨r, c, feed, -, -, heq⟩ | heq
    · rw [heq]
      exact List.Subset.refl _
    · rw [heq]
      exact List.Subset.refl _
  | openDestination => exact Depot.published_step (Depot.step_of_move s.depot .openPool)
  | closeDestination =>
    show _ ⊆ s.closeDestination.2.depot.published
    rcases s.closeDestination_cases with ⟨r, depot, heq, hst, -⟩ | ⟨depot, heq, hst, -⟩
    · rw [heq]
      exact Depot.published_step hst
    · rw [heq]
      exact Depot.published_step hst
  | _ => exact List.Subset.refl _

/-- The destination is being closed only by the call that closes it. -/
theorem closing_perform
    (hc : (s.perform store answer c).2.depot.caller.isClosing = true) :
    c = .closeDestination ∧ (s.perform store answer c).1 = none ∨
      c ≠ .closeDestination ∧ s.depot.caller.isClosing = true := by
  cases c with
  | closeSource =>
    change (s.closeSource answer).2.depot.caller.isClosing = true at hc
    refine Or.inr ⟨PartCall.noConfusion, ?_⟩
    rcases s.closeSource_cases answer with ⟨r, c, feed, -, -, heq⟩ | heq
    · rwa [heq] at hc
    · rwa [heq] at hc
  | openDestination =>
    refine Or.inr ⟨PartCall.noConfusion, ?_⟩
    rwa [← Depot.caller_openPool s.depot]
  | closeDestination =>
    refine Or.inl ⟨rfl, ?_⟩
    change s.closeDestination.2.depot.caller.isClosing = true at hc
    show s.closeDestination.1 = none
    rcases s.closeDestination_cases with ⟨r, depot, heq, -, hcall⟩ | ⟨depot, heq, -, -⟩
    · rw [heq] at hc
      rw [show depot.caller.isClosing = false by rw [hcall]; rfl] at hc
      cases hc
    · rw [heq]
  | _ => exact Or.inr ⟨PartCall.noConfusion, hc⟩

theorem fits_closeDestination (hst : s.Fits st) : s.closeDestination.2.Fits st := by
  rcases s.closeDestination_cases with ⟨r, depot, heq, -, -⟩ | ⟨depot, heq, -, -⟩
  · rw [heq]
    exact hst
  · rw [heq]
    exact hst

/-- A call that waits for threads to end changes nothing that the stance is about. -/
theorem fits_wait (hst : s.Fits st) (hr : (s.perform store answer c).1 = none) :
    (s.perform store answer c).2.Fits st := by
  cases c with
  | closeSource =>
    change (s.closeSource answer).1 = none at hr
    show (s.closeSource answer).2.Fits st
    rcases s.closeSource_cases answer with ⟨r, c, feed, -, -, heq⟩ | heq
    · rw [heq] at hr
      cases hr
    · rw [heq]
      exact hst
  | closeDestination => exact fits_closeDestination hst
  | send ms => exact hst
  | _ => cases hr

/-- The stance after a call fits. -/
theorem fits_perform (hf : store.Faithful) (h : Core store d s) (hknown : s.Trusts d known)
    (hst : s.Fits st) (hc : c.Allowed known st) {r : c.Reply}
    (hr : (s.perform store answer c).1 = some r) :
    (s.perform store answer c).2.Fits (st.after c r) := by
  cases c with
  | addListener => exact Listeners.mem_add.2 (Or.inl rfl)
  | removeListener =>
    show Fits _ (if st = .quiet then .quiet else .loose)
    split
    · rename_i hq
      rw [hq] at hst
      exact hst
    · trivial
  | openSource =>
    obtain rfl : st = .listening := hc
    have hopening := Source.opening_openFeed (server answer) hf h.keeps s.feed
    change some (s.openSource store answer).1 = some r at hr
    show (s.openSource store answer).2.Fits _
    unfold openSource at hr ⊢
    generalize s.source.openFeed (server answer) store s.feed = x at hopening hr ⊢
    cases hopening with
    | going hs =>
      cases hr
      exact hst
    | failed hs hc ha hk =>
      cases hr
      show _ ≠ Connection.reading
      rw [ha.connection]
      exact hc
    | begun hs hp ha hk =>
      cases hr
      show Ear.pipe ∈ _
      rw [ha.listeners]
      exact hst
  | closeSource =>
    change (s.closeSource answer).1 = some r at hr
    show (s.closeSource answer).2.Fits .quiet
    rcases s.closeSource_cases answer with ⟨r, c, feed, hc, -, heq⟩ | heq
    · rw [heq]
      exact hc
    · rw [heq] at hr
      cases hr
  | checkpointSource m? =>
    have hkeeps := Source.keeps_checkpoint hf h.keeps fun m hm => hknown m (hc _ hm)
    exact (calm_alike hkeeps.1).fits hst
  | closeDestination => exact fits_closeDestination hst
  | send ms => exact absurd hc id
  | _ => exact hst

/-- What the destination gives as the last safe mutation is safe to resume after. -/
theorem trusts_perform (h : Core store d s) (hknown : s.Trusts d known) {r : c.Reply}
    (hr : (s.perform store answer c).1 = some r) :
    (s.perform store answer c).2.Trusts d (c.learn known r) := by
  cases c with
  | lastPublished =>
    cases hr
    show s.Trusts d (PartCall.learn known .lastPublished s.depot.dest.tracker.last)
    cases hl : s.depot.dest.tracker.last with
    | none => exact hknown
    | some last =>
      intro m hm
      rcases List.mem_cons.1 hm with rfl | hm
      · exact h.backed.last m hl
      · exact hknown m hm
  | _ => exact hknown.mono published_perform

/-- Those who leave the source alone keep calm. -/
theorem calm_perform (hf : store.Faithful) (h : Core store d s) (hknown : s.Trusts d known)
    (hc : c.Allowed known .apart) : Calm s (s.perform store answer c).2 := by
  cases c with
  | checkpointSource m? =>
    have hkeeps := Source.keeps_checkpoint hf h.keeps fun m hm => hknown m (hc _ hm)
    exact calm_alike hkeeps.1
  | sourceStarted => exact .refl s
  | destinationStarted => exact .refl s
  | lastPublished => exact .refl s
  | addListener => simp [PartCall.Allowed] at hc
  | openSource => cases hc
  | closeDestination => cases hc
  | send ms => exact absurd hc id
  | _ => exact absurd rfl hc

end Plant

end ChangeFeed
