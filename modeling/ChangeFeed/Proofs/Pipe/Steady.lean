import ChangeFeed.Proofs.Pipe.Calls
import ChangeFeed.Proofs.Source.Calls

/-!
# What comes without a call

What the reading thread and the workers of a pipe do by themselves leaves its wiring alone.

**Sides** (`Side`). A pipe listens to its source and to its destination.

**Steady changes** (`Plant.Steady`). The same listen to both sides as before, and neither side began
to work or to close.

**The reading thread** (`Plant.Engaged`). It hands a batch to listeners only while the source reads,
to each of them once, and it is what sends to the destination.

Main results: `steady_step` and `engaged_step`.
-/

namespace ChangeFeed

/-! ## What leaves the listeners alone -/

namespace Source

variable {ι σ ω : Type}

theorem listeners_openFeed (client : LogClient ω) (keeper : Store σ) (s : Source ι σ) (w : ω) :
    (s.openFeed client keeper w).2.1.listeners = s.listeners := by
  obtain ⟨g, t, hpoint⟩ := startPoint_eq keeper { s with connection := .idle }
  rcases hx : s.openFeed client keeper w with ⟨r, s', w'⟩
  cases hx ▸ opened_openFeed client keeper s w with
  | going hs => rfl
  | stranded hs => rfl
  | unprepared hs hstart =>
    rw [hstart] at hpoint
    obtain rfl : s' = _ := hpoint
    rfl
  | @refused p e s₁ w₁ hs hstart hconnect =>
    rw [hstart] at hpoint
    obtain rfl : s₁ = _ := hpoint
    obtain ⟨n, hn⟩ := countFailure_eq e
      { { s with connection := .idle } with history := g, stored := t }
    rw [hn]
  | @begun p s₁ w₁ hs hstart hconnect =>
    rw [hstart] at hpoint
    obtain rfl : s₁ = _ := hpoint
    rfl

theorem store_eq (keeper : Store σ) (p : ResumePoint) (s : Source ι σ) :
    ∃ g t q n, (s.store keeper p).2 =
      { s with history := g, stored := t, saved := q, failures := n } := by
  unfold store
  rcases keeper.savePoint p s.stored with ⟨_ | u, t⟩
  · exact ⟨_, _, _, _, rfl⟩
  · rcases hadd : s.history.add keeper p t with ⟨_ | u, g, t'⟩
    · simp only [hadd]
      exact ⟨_, _, _, _, rfl⟩
    · simp only [hadd]
      exact ⟨_, _, _, _, rfl⟩

/-- A checkpoint is about progress and nothing else. -/
theorem checkpoint_eq (keeper : Store σ) (m? : Option Mutation) (s : Source ι σ) :
    ∃ g t q n, (s.checkpoint keeper m?).2 =
      { s with history := g, stored := t, saved := q, failures := n } := by
  rcases checkpoint_cases keeper m? s with ⟨h, -⟩ | ⟨m, -, h, -⟩
  · exact ⟨_, _, _, _, h⟩
  · rw [h]
    exact store_eq keeper _ s

end Source

namespace Depot

variable {ι : Type} {s s' : Depot ι}

theorem listeners_step (h : s.Step s') : s'.dest.listeners = s.dest.listeners := by
  cases h <;> rfl

/-- Only opening and closing have a say in whether the destination is at work. -/
theorem started_of_isWork {m : Move} (hm : m.isWork = true) (s : Depot ι) :
    (s.step m).dest.started = s.dest.started := by
  cases m with
  | pull i => rfl
  | begin i =>
    simp only [step, begin]
    split <;> rfl
  | answer i v =>
    simp only [step, answer]
    split
    · cases v <;> rfl
    · rfl
  | report i =>
    simp only [step, report]
    split
    · rename_i e he
      simp only [Destination.report, he]
      rfl
    · rfl
  | crash i =>
    simp only [step, crash]
    split <;> rfl
  | confirm i =>
    simp only [step, Destination.confirm]
    split
    · split <;> rfl
    · rfl
  | leave i => rfl
  | _ => cases hm

/-- To begin to send is not to close. -/
theorem started_send (s : Depot ι) (ms : List Mutation) :
    (s.step (.send ms)).dest.started = s.dest.started ∧
      ((s.step (.send ms)).caller.isClosing = true → s.caller.isClosing = true) := by
  cases hc : s.caller with
  | done r => simp [step, hc, Caller.isClosing]
  | _ => simp [step, hc]

theorem started_proceed (s : Depot ι) : s.proceed.dest.started = s.dest.started := by
  unfold proceed
  split
  · rfl
  · split <;> rfl
  · rfl
  · rename_i i x ms hc
    rcases hp : s.dest.place i x with ⟨o, dest⟩
    have hdest : dest.started = s.dest.started := by
      unfold Destination.place at hp
      split at hp
      · split at hp
        · cases hp
          rfl
        · split at hp <;> cases hp <;> rfl
      · cases hp
        rfl
    cases o with
    | placed => exact hdest
    | refused e => exact hdest
    | waits j y => rfl
  · rfl

end Depot

/-- The two that a pipe listens to. -/
inductive Side where
  | source
  | destination
  deriving DecidableEq, Repr

/-- May the move come without any call? -/
def Plant.Move.isFree : Plant.Move → Bool
  | arrive _ | ask _ | offer | work _ => true
  | _ => false

namespace Plant

variable {σ : Type} {s : Plant σ}

/-- Who listens to a side. -/
def ears (s : Plant σ) : Side → Listeners Ear
  | .source => s.source.listeners
  | .destination => s.depot.dest.listeners

/-- Changes who listens to a side. -/
def rewire (f : Listeners Ear → Listeners Ear) (s : Plant σ) : Side → Plant σ
  | .source => s.listen f
  | .destination =>
    { s with depot := { s.depot with
        dest := { s.depot.dest with listeners := f s.depot.dest.listeners } } }

theorem ears_rewire (f : Listeners Ear → Listeners Ear) (s : Plant σ) (side side' : Side) :
    (s.rewire f side').ears side = if side' = side then f (s.ears side) else s.ears side := by
  cases side <;> cases side' <;> rfl

/-! ### The reading thread -/

/-- The reading thread and the caller of the destination are about the same, which is the business
of a source that reads. -/
structure Engaged (s : Plant σ) : Prop where
  busy : s.hand ≠ .free → s.source.connection = .reading
  nodup : s.hand.ears.Nodup
  passesOn : s.hand.PassesOn
  calling : s.depot.caller.isSending = s.hand.isSending

theorem Engaged.free (h : s.Engaged) (hs : s.source.isStarted = false) : s.hand = .free := by
  by_contra hne
  rw [Source.isStarted, h.busy hne] at hs
  cases hs

theorem Engaged.sending (h : s.Engaged) {ms : List Mutation} {ears : List Ear}
    {next : Except Error Unit → Script (Except Error Unit)} (hh : s.hand = .sending ms next ears) :
    s.depot.caller.isSending = true ∧ next = .done := by
  have hpasses := h.passesOn
  rw [hh] at hpasses
  rw [h.calling, hh]
  exact ⟨rfl, hpasses⟩

/-- When the reading thread is done with a batch, or was about none, it is engaged in nothing. -/
theorem engaged_of_free (hh : s.hand = .free) (hc : s.depot.caller.isSending = false) :
    s.Engaged where
  busy := fun hne => absurd hh hne
  nodup := by
    rw [hh]
    exact List.nodup_nil
  passesOn := by
    rw [hh]
    trivial
  calling := by
    rw [hh, hc]
    rfl

/-- The wiring is as it was, and nothing began to work or to close. -/
structure Steady (s s' : Plant σ) : Prop where
  pipe : s'.pipe = s.pipe
  ears : ∀ side, s'.ears side = s.ears side
  runs : s'.source.isStarted = true → s.source.isStarted = true
  delivers : s'.depot.dest.started = true → s.depot.dest.started = true
  closing : s'.depot.caller.isClosing = true → s.depot.caller.isClosing = true

theorem Steady.refl (s : Plant σ) : Steady s s := ⟨rfl, fun _ => rfl, id, id, id⟩

theorem Steady.trans {s₁ s₂ s₃ : Plant σ} (h : Steady s₁ s₂) (h' : Steady s₂ s₃) :
    Steady s₁ s₃ where
  pipe := h'.pipe.trans h.pipe
  ears := fun side => (h'.ears side).trans (h.ears side)
  runs := fun hr => h.runs (h'.runs hr)
  delivers := fun hd => h.delivers (h'.delivers hd)
  closing := fun hc => h.closing (h'.closing hc)

theorem steady_hand (s : Plant σ) (hand : Hand) : Steady s { s with hand } :=
  ⟨rfl, fun side => by cases side <;> rfl, id, id, id⟩

theorem steady_depot {depot : Depot Ear} (hst : s.depot.Step depot)
    (hs : depot.dest.started = s.depot.dest.started)
    (hc : depot.caller.isClosing = true → s.depot.caller.isClosing = true) :
    Steady s { s with depot } where
  pipe := rfl
  ears := by
    intro side
    cases side with
    | source => rfl
    | destination => exact Depot.listeners_step hst
  runs := id
  delivers := hs ▸ id
  closing := hc

theorem steady_crash (h : s.source.connection = .reading) : Steady s s.crash :=
  ⟨rfl, fun side => by cases side <;> rfl, fun _ => by simp [Source.isStarted, h], id, id⟩

theorem steady_fail (e : Error) (s : Plant σ) : Steady s (s.fail e) := by
  obtain ⟨n, hn⟩ := s.source.fail_eq e
  unfold fail
  rw [hn]
  exact ⟨rfl, fun side => by cases side <;> rfl, by exact nofun, id, id⟩

theorem steady_hear (h : s.source.connection = .reading) (v : Verdict) (ms : List Mutation)
    (ears : List Ear) : Steady s (s.hear v ms ears) := by
  cases v with
  | accepted => exact steady_hand s _
  | refused e => exact steady_fail e s
  | crashed => exact steady_crash h

theorem steady_receive (e : LogEvent) (s : Plant σ) : Steady s (s.receive e) := by
  have hheed : Steady s { s with source := (s.source.heed e).2 } :=
    ⟨rfl, fun side => by cases side <;> rfl, id, id, id⟩
  unfold receive
  simp only
  split
  · exact hheed
  · split
    · exact hheed.trans (steady_fail _ _)
    · exact hheed
    · exact hheed.trans (steady_hand _ _)

theorem steady_arrive (h : s.source.connection = .reading) (log : List LogEvent) (a : Arrival) :
    Steady s (s.arrive log a) := by
  cases a with
  | event n =>
    have hadd : Steady s { s with feed := s.feed.add n } :=
      ⟨rfl, fun side => by cases side <;> rfl, id, id, id⟩
    simp only [arrive]
    split
    · split
      · exact hadd.trans (steady_receive _ _)
      · exact .refl s
    · exact .refl s
  | nothing => exact .refl s
  | failed e => exact steady_fail e s
  | crashed => exact steady_crash h

theorem steady_follow (h : s.source.connection = .reading) (k : Script (Except Error Unit))
    (ms : List Mutation) (ears : List Ear) : Steady s (s.follow k ms ears) := by
  unfold follow
  split
  · exact steady_hear h _ ms ears
  · exact steady_hear h _ ms ears
  · rename_i sent next
    have hsend : Steady s { s with depot := s.depot.step (.send sent) } := by
      obtain ⟨hstarted, hclosing⟩ := s.depot.started_send sent
      exact steady_depot (Depot.step_of_move _ _) hstarted hclosing
    exact hsend.trans (steady_hand _ _)
  · exact .refl s

theorem steady_ask (h : s.Engaged) (v : Verdict) : Steady s (s.ask v) := by
  unfold ask
  split
  · exact steady_hand s _
  · rename_i ms ears hh
    exact steady_follow (h.busy (by simp [hh])) _ ms ears
  · rename_i ms name ears hh
    exact steady_hear (h.busy (by simp [hh])) v ms ears
  · exact .refl s

theorem steady_offer (h : s.Engaged) : Steady s s.offer := by
  unfold offer
  split
  · rename_i ms next ears hh
    have hread := h.busy (by simp [hh])
    have hgo : Steady s { s with depot := s.depot.step .proceed } := by
      apply steady_depot (Depot.step_of_move s.depot .proceed) (Depot.started_proceed s.depot)
      intro hc
      exact absurd hc (Bool.eq_false_iff.1 (s.depot.not_closing_proceed (h.sending hh).1))
    simp only
    split
    · exact hgo.trans
        (steady_follow (s := { s with depot := s.depot.step .proceed }) hread _ ms ears)
    · exact hgo
  · exact .refl s

/-- What comes without a call leaves the wiring alone. -/
theorem steady_step (store : Store σ) (log : List LogEvent) (h : s.Engaged) {m : Move}
    (hm : m.isFree = true) : Steady s (s.step store log m) := by
  cases m with
  | arrive a =>
    simp only [step]
    split
    · rename_i hread
      split
      · exact steady_arrive hread log a
      · exact .refl s
    · exact .refl s
  | ask v => exact steady_ask h v
  | offer => exact steady_offer h
  | work m =>
    simp only [step]
    split
    · rename_i hw
      apply steady_depot (Depot.step_of_move _ _) (Depot.started_of_isWork hw _)
      rw [caller_of_isWork hw]
      exact id
    · exact .refl s
  | _ => cases hm

/-! ### The hand of the reading thread -/

theorem engaged_fail (e : Error) (hc : s.depot.caller.isSending = false) : (s.fail e).Engaged :=
  engaged_of_free rfl hc

theorem engaged_hear (hread : s.source.connection = .reading) (v : Verdict) (ms : List Mutation)
    {ears : List Ear} (hears : ears.Nodup) (hc : s.depot.caller.isSending = false) :
    (s.hear v ms ears).Engaged := by
  cases v with
  | accepted => exact ⟨fun _ => hread, hears, trivial, hc⟩
  | refused e => exact engaged_fail e hc
  | crashed => exact engaged_of_free rfl hc

theorem engaged_receive (e : LogEvent) (hread : s.source.connection = .reading)
    (hh : s.hand = .free) (hc : s.depot.caller.isSending = false) : (s.receive e).Engaged := by
  unfold receive
  simp only
  split
  · exact engaged_of_free hh hc
  · split
    · exact engaged_fail _ hc
    · exact engaged_of_free hh hc
    · exact ⟨fun _ => hread, s.source.listeners.nodup, trivial, hc⟩

theorem engaged_arrive (log : List LogEvent) (a : Arrival) (hread : s.source.connection = .reading)
    (hh : s.hand = .free) (hc : s.depot.caller.isSending = false) : (s.arrive log a).Engaged := by
  have hs : s.Engaged := engaged_of_free hh hc
  cases a with
  | event n =>
    simp only [arrive]
    split
    · split
      · exact engaged_receive _ hread hh hc
      · exact hs
    · exact hs
  | nothing => exact hs
  | failed e => exact engaged_fail e hc
  | crashed => exact engaged_of_free rfl hc

theorem engaged_ask (h : s.Engaged) (hclosing : s.hand ≠ .free → s.depot.caller.isClosing = false)
    (v : Verdict) : (s.ask v).Engaged := by
  have hnodup := h.nodup
  have hcalling := h.calling
  unfold ask
  split
  · rename_i ms hh
    rw [hh] at hcalling
    exact engaged_of_free rfl hcalling
  · rename_i ms ears hh
    rw [hh] at hcalling hnodup
    obtain ⟨r, hr⟩ := Caller.exists_done hcalling (hclosing (by simp [hh]))
    rw [Script.onMutations_parts]
    refine ⟨fun _ => h.busy (by simp [hh]), hnodup, rfl, ?_⟩
    simp only [follow, Depot.step, hr]
    rfl
  · rename_i ms name ears hh
    rw [hh] at hcalling hnodup
    exact engaged_hear (h.busy (by simp [hh])) v ms (List.nodup_cons.1 hnodup).2 hcalling
  · exact h

theorem engaged_offer (h : s.Engaged) : s.offer.Engaged := by
  cases hh : s.hand with
  | sending ms next ears =>
    obtain ⟨hsending, rfl⟩ := h.sending hh
    have hread := h.busy (by simp [hh])
    have hnodup := h.nodup
    rw [hh] at hnodup
    have hears : ears.Nodup := (List.nodup_cons.1 hnodup).2
    have hheard : ∀ (v : Verdict) {r : Except Error Unit}, s.depot.proceed.caller = .done r →
        (hear v ms ears { s with depot := s.depot.step .proceed }).Engaged := by
      intro v r hr
      refine engaged_hear (s := { s with depot := s.depot.step .proceed }) hread v ms hears ?_
      rw [show (s.depot.step .proceed).caller = _ from hr]
      rfl
    rcases s.depot.proceed_cases hsending with ⟨hgo, -⟩ | ⟨hdone, -⟩ | ⟨e, herror⟩
    · rw [offer_of_going hh (Caller.not_done_of_sending hgo)]
      refine ⟨fun _ => hread, h.nodup, h.passesOn, ?_⟩
      rw [hh]
      exact hgo
    · rw [offer_of_sent hh hdone]
      exact hheard _ hdone
    · rw [offer_of_failed hh herror]
      exact hheard _ herror
  | free => simpa only [offer, hh] using h
  | asking ms ears => simpa only [offer, hh] using h

theorem engaged_step (store : Store σ) (log : List LogEvent) (h : s.Engaged)
    (hclosing : s.hand ≠ .free → s.depot.caller.isClosing = false) {m : Move}
    (hm : m.isFree = true) : (s.step store log m).Engaged := by
  cases m with
  | arrive a =>
    simp only [step]
    split
    · rename_i hread
      split
      · rename_i hh
        have hcalling := h.calling
        rw [hh] at hcalling
        exact engaged_arrive log a hread hh hcalling
      · exact h
    · exact h
  | ask v => exact engaged_ask h hclosing v
  | offer => exact engaged_offer h
  | work m =>
    simp only [step]
    split
    · rename_i hw
      refine ⟨h.busy, h.nodup, h.passesOn, ?_⟩
      rw [caller_of_isWork hw]
      exact h.calling
    · exact h
  | _ => cases hm

theorem hand_receive (e : LogEvent) (hh : s.hand = .free) : (s.receive e).hand = .free ∨
    ∃ ms, (s.receive e).hand = .asking ms s.source.listeners.members := by
  unfold receive
  simp only
  split
  · exact Or.inl hh
  · split
    · exact Or.inl rfl
    · exact Or.inl hh
    · exact Or.inr ⟨_, rfl⟩

/-- What comes from the client leaves the hand as it is, or it is a batch for all who listen. -/
theorem hand_arrive (store : Store σ) (log : List LogEvent) (a : Arrival) (s : Plant σ) :
    (s.step store log (.arrive a)).hand = s.hand ∨
      s.hand = .free ∧ s.source.connection = .reading ∧
        ∃ ms, (s.step store log (.arrive a)).hand = .asking ms s.source.listeners.members := by
  simp only [step]
  split
  · rename_i hread
    split
    · rename_i hh
      cases a with
      | event n =>
        simp only [arrive]
        split
        · split
          · rcases hand_receive (s := { s with feed := s.feed.add n }) _ hh with hfree | hasking
            · exact Or.inl (hfree.trans hh.symm)
            · exact Or.inr ⟨hh, hread, hasking⟩
          · exact Or.inl rfl
        · exact Or.inl rfl
      | nothing => exact Or.inl rfl
      | failed e => exact Or.inl hh.symm
      | crashed => exact Or.inl hh.symm
    · exact Or.inl rfl
  · exact Or.inl rfl

end Plant

end ChangeFeed
