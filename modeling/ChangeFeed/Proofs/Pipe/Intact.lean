import ChangeFeed.Proofs.Pipe.Backing
import ChangeFeed.Proofs.Pipe.Plant
import ChangeFeed.Proofs.Source.Progress

/-!
# Nothing is missed while the pipe listens

**The attempt** (`Plant.Intact`). While the source reads and the pipe listens, every change that
came and is owed is published, pending, or on its way to the destination. Only changes of the last
event are still on their way.

**The parts** (`Plant.Core`). All points that the source may resume at are safe, so are those that
the destination would give it, and the attempt is intact.

Main results: what the reading thread and the workers do keeps this (`core_arrive`, `core_ask`,
`core_offer`, `core_depot`).
-/

namespace ChangeFeed

/-- What a caller has still to send. -/
def Caller.rest : Caller → List Mutation
  | sending ms => ms
  | assigned _ m ms => m :: ms
  | placing _ _ ms => ms
  | _ => []

/-- Does the caller send? -/
def Caller.isSending : Caller → Bool
  | sending _ | assigned .. | placing .. => true
  | _ => false

theorem Caller.not_closing_of_sending {c : Caller} (h : c.isSending = true) :
    c.isClosing = false := by
  cases c <;> first | rfl | cases h

theorem Caller.not_done_of_sending {c : Caller} (h : c.isSending = true) (r : Except Error Unit) :
    c ≠ .done r := by
  rintro rfl
  cases h

theorem Caller.exists_done {c : Caller} (hs : c.isSending = false) (hc : c.isClosing = false) :
    ∃ r, c = .done r := by
  cases c with
  | done r => exact ⟨r, rfl⟩
  | closing => cases hc
  | _ => cases hs

namespace Hand

/-- The listeners that the reading thread has not finished with. -/
def ears : Hand → List Ear
  | free => []
  | asking _ ears => ears
  | sending _ _ ears => .pipe :: ears

/-- Does the pipe send? -/
def isSending : Hand → Bool
  | sending .. => true
  | _ => false

/-- The pipe answers what the destination replies. -/
def PassesOn : Hand → Prop
  | sending _ next _ => next = .done
  | _ => True

end Hand

/-! ## Sending -/

namespace Depot

variable {ι : Type}

/-- What one step of sending leads to: what was to be sent is still to be sent or is pending, or all
of it is done, or it failed. -/
theorem proceed_cases (s : Depot ι) (hs : s.caller.isSending = true) :
    (s.proceed.caller.isSending = true ∧ s.proceed.caller.rest ⊆ s.caller.rest ∧
        ∀ m ∈ s.caller.rest, m ∈ s.proceed.caller.rest ∨
          ∃ p ∈ s.proceed.dest.tracker.pending, p.item = m) ∨
      s.proceed.caller = .done (.ok ()) ∧ s.caller.rest = [] ∨
      ∃ e, s.proceed.caller = .done (.error e) := by
  cases hc : s.caller with
  | done r =>
    rw [hc] at hs
    cases hs
  | closing =>
    rw [hc] at hs
    cases hs
  | sending ms =>
    cases ms with
    | nil =>
      refine Or.inr (Or.inl ⟨?_, rfl⟩)
      simp only [proceed, hc]
    | cons m ms =>
      cases ha : s.dest.assign m with
      | error e =>
        refine Or.inr (Or.inr ⟨e, ?_⟩)
        simp only [proceed, hc, ha]
      | ok i =>
        refine Or.inl ?_
        simp only [proceed, hc, ha]
        exact ⟨rfl, List.Subset.refl _, fun x hx => Or.inl hx⟩
  | assigned i m ms =>
    refine Or.inl ?_
    simp only [proceed, hc]
    refine ⟨rfl, List.subset_cons_self m ms, fun x hx => ?_⟩
    rcases List.mem_cons.1 hx with rfl | hx
    · exact Or.inr ⟨_, List.mem_append_right _ List.mem_cons_self, rfl⟩
    · exact Or.inl hx
  | placing i x ms =>
    simp only [proceed, hc]
    rcases hp : s.dest.place i x with ⟨o, dest⟩
    cases o with
    | placed => exact Or.inl ⟨rfl, List.Subset.refl _, fun x hx => Or.inl hx⟩
    | refused e => exact Or.inr (Or.inr ⟨e, rfl⟩)
    | waits j y =>
      refine Or.inl ?_
      simp only [hc]
      exact ⟨rfl, List.Subset.refl _, fun x hx => Or.inl hx⟩

theorem not_closing_proceed (s : Depot ι) (hs : s.caller.isSending = true) :
    s.proceed.caller.isClosing = false := by
  rcases s.proceed_cases hs with ⟨hgo, -⟩ | ⟨hdone, -⟩ | ⟨e, herror⟩
  · exact Caller.not_closing_of_sending hgo
  · rw [hdone]
    rfl
  · rw [herror]
    rfl

end Depot

namespace Plant

variable {σ : Type} {store : Store σ} {d : Duty} {s s' : Plant σ}

/-! ## The invariant -/

/-- The pipe listens, or is still asked to take what came. -/
def Hears (s : Plant σ) : Prop := .pipe ∈ s.source.listeners.members ∨ .pipe ∈ s.hand.ears

/-- What is on its way from the reading thread to the destination. -/
def todo (s : Plant σ) : List Mutation :=
  match s.hand with
  | .free => []
  | .asking ms ears => if .pipe ∈ ears then ms else []
  | .sending .. => s.depot.caller.rest

/-- Nothing that came since the source connected is missed. -/
structure Intact (d : Duty) (s : Plant σ) : Prop where
  begun : d.Done (Published s.depot.published) s.feed.start
  resumed : s.source.reader.duplicates.resumedFrom = s.feed.start
  tables : s.source.reader.tables.tables = d.tables.map Text.trim
  tracks : s.source.reader.Tracks (s.feed.events d.log)
  complete : s.feed.Complete d.log
  carried : ∀ i ∈ s.feed.yielded, ∀ e c, d.log[i]? = some e → d.Owes i c →
    s.feed.start.rank ≤ e.position.rank →
      s.depot.Carries c ∨ s.feed.yielded.getLast? = some i ∧ Published s.todo c
  points : ∀ m ∈ s.todo, ∃ x n e, m = .row x ∧ s.feed.yielded.getLast? = some n ∧
    d.log[n]? = some e ∧ (ResumePoint.after x).position.rank ≤ e.position.rank

/-- What holds of a pipe and its parts, whatever calls go on. -/
structure Core (store : Store σ) (d : Duty) (s : Plant σ) : Prop where
  sound : s.depot.Sound
  backed : s.depot.Backed d
  keeps : s.source.Keeps store (d.Done (Published s.depot.published))
  tables : s.source.tables = d.tables
  origin : s.source.reader.mapper.dataSource = d.origin
  intact : s.source.connection = .reading → s.Hears → s.Intact d
  busy : s.hand ≠ .free → s.source.connection = .reading
  ears : s.hand.ears.Nodup
  passesOn : s.hand.PassesOn
  calling : s.depot.caller.isSending = s.hand.isSending
  resting : s.depot.caller.isClosing = true → s.source.connection ≠ .reading

/-! ## What follows from it -/

/-- When a mutation is about to be tracked, all that lies before the point after it is published or
pending. -/
theorem Intact.ready (hlog : d.Ordered) (h : s.Intact d) {m : RowMutation} (hm : .row m ∈ s.todo) :
    d.Done s.depot.Carries (ResumePoint.after m).position := by
  obtain ⟨x, n, e', hx, hn, he', hle⟩ := h.points _ hm
  cases hx
  intro i e c he howes hfrom hto
  have hlt : i < n := hlog.lt_of_rank_lt he he' (Nat.lt_of_lt_of_le hto hle)
  by_cases hstart : s.feed.start.rank ≤ e.position.rank
  · have hi := h.complete.whole n (List.mem_of_getLast? hn) i hlt e he hstart
    rcases h.carried i hi e c he howes hstart with hc | ⟨hlast, -⟩
    · exact hc
    · rw [hn] at hlast
      cases hlast
      exact absurd hlt (Nat.lt_irrefl _)
  · exact ⟨0, Or.inl (h.begun i e c he howes hfrom (Nat.lt_of_not_le hstart))⟩

/-- What was on its way is under way, or still on its way, and nothing else changed for the worse.
-/
theorem Intact.mono (h : s.Intact d) (hr : s'.source.reader = s.source.reader)
    (hf : s'.feed = s.feed) (hpub : s.depot.published ⊆ s'.depot.published)
    (hcar : ∀ c, s.depot.Carries c → s'.depot.Carries c) (htodo : s'.todo ⊆ s.todo)
    (hgone : ∀ c, Published s.todo c → s'.depot.Carries c ∨ Published s'.todo c) :
    s'.Intact d where
  begun := by
    rw [hf]
    exact h.begun.mono fun c hc => hc.mono hpub
  resumed := by rw [hr, hf, h.resumed]
  tables := by rw [hr, h.tables]
  tracks := by
    rw [hr, hf]
    exact h.tracks
  complete := hf ▸ h.complete
  carried := by
    intro i hi e c he howes hstart
    rw [hf] at hi hstart ⊢
    rcases h.carried i hi e c he howes hstart with hc | ⟨hlast, hc⟩
    · exact Or.inl (hcar c hc)
    · exact (hgone c hc).imp_right fun hc => ⟨hlast, hc⟩
  points := by
    rw [hf]
    exact fun m hm => h.points m (htodo hm)

/-- The same is on its way as before. -/
theorem Intact.same (h : s.Intact d) (hr : s'.source.reader = s.source.reader)
    (hf : s'.feed = s.feed) (hpub : s.depot.published ⊆ s'.depot.published)
    (hcar : ∀ c, s.depot.Carries c → s'.depot.Carries c) (htodo : s'.todo = s.todo) :
    s'.Intact d :=
  h.mono hr hf hpub hcar (htodo ▸ List.Subset.refl _) fun _ hc => Or.inr (htodo ▸ hc)

theorem Core.sending (h : Core store d s) (hs : s.depot.caller.isSending = true) :
    s.source.connection = .reading ∧ .pipe ∈ s.hand.ears ∧ s.todo = s.depot.caller.rest := by
  rw [h.calling] at hs
  have hbusy := h.busy
  unfold todo
  cases hh : s.hand with
  | sending ms next ears =>
    rw [hh] at hbusy
    exact ⟨hbusy (by exact nofun), List.mem_cons_self, rfl⟩
  | _ =>
    rw [hh] at hs
    cases hs

theorem Core.ready (hlog : d.Ordered) (h : Core store d s) :
    ∀ i m ms, s.depot.caller = .assigned i (.row m) ms →
      d.Done s.depot.Carries (ResumePoint.after m).position := by
  intro i m ms hc
  obtain ⟨hread, hears, htodo⟩ := h.sending (by rw [hc]; rfl)
  refine (h.intact hread (Or.inr hears)).ready hlog ?_
  rw [htodo, hc]
  exact List.mem_cons_self

/-- As long as the source reads nobody closes the destination. -/
theorem Core.not_closing (h : Core store d s) (hread : s.source.connection = .reading) :
    s.depot.caller.isClosing = false :=
  Bool.eq_false_iff.2 fun hc => h.resting hc hread

/-! ## The end of an attempt -/

/-- When the source does not read, there is nothing to be missed. -/
theorem core_of_ended (hsound : s.depot.Sound) (hbacked : s.depot.Backed d)
    (hkeeps : s.source.Keeps store (d.Done (Published s.depot.published)))
    (htables : s.source.tables = d.tables)
    (horigin : s.source.reader.mapper.dataSource = d.origin)
    (hconn : s.source.connection ≠ .reading) (hhand : s.hand = .free)
    (hcall : s.depot.caller.isSending = false) : Core store d s where
  sound := hsound
  backed := hbacked
  keeps := hkeeps
  tables := htables
  origin := horigin
  intact := fun hread => absurd hread hconn
  busy := fun hne => absurd hhand hne
  ears := by
    rw [hhand]
    exact List.nodup_nil
  passesOn := by
    rw [hhand]
    trivial
  calling := by
    rw [hhand, hcall]
    rfl
  resting := fun _ => hconn

theorem core_fail (e : Error) (hsound : s.depot.Sound) (hbacked : s.depot.Backed d)
    (hkeeps : s.source.Keeps store (d.Done (Published s.depot.published)))
    (htables : s.source.tables = d.tables)
    (horigin : s.source.reader.mapper.dataSource = d.origin)
    (hcall : s.depot.caller.isSending = false) : Core store d (s.fail e) := by
  obtain ⟨n, hn⟩ := s.source.countFailure_eq e
  have hs : s.fail e = { s with
      source := { s.source with failures := n, connection := .ended }
      hand := .free } := by
    unfold fail Source.fail
    rw [hn]
  rw [hs]
  exact core_of_ended hsound hbacked (hkeeps.of_eq rfl rfl rfl) htables horigin (by exact nofun)
    rfl hcall

theorem core_crash (h : Core store d s) (hcall : s.depot.caller.isSending = false) :
    Core store d s.crash :=
  core_of_ended h.sound h.backed (h.keeps.of_eq rfl rfl rfl) h.tables h.origin (by exact nofun)
    rfl hcall

/-! ## Workers and listeners -/

/-- The destination takes a step that its caller has no part in. -/
theorem core_depot (hlog : d.Ordered) (h : Core store d s) {depot : Depot Ear}
    (hst : s.depot.Step depot) (hc : depot.caller = s.depot.caller) :
    Core store d { s with depot } where
  sound := Depot.sound_step h.sound hst
  backed := Depot.backed_step h.sound h.backed (h.ready hlog) hst
  keeps := h.keeps.mono fun p hp => hp.mono fun c hc => hc.mono (Depot.published_step hst)
  tables := h.tables
  origin := h.origin
  intact := by
    intro hread hears
    refine (h.intact hread hears).same rfl rfl (Depot.published_step hst) (fun c hcar => ?_) ?_
    · refine Depot.carries_step h.sound hst (h.not_closing hread) (fun i x ms e hp hd => ?_) hcar
      rw [hc, hp] at hd
      cases hd
    · unfold todo
      rw [hc]
  busy := h.busy
  ears := h.ears
  passesOn := h.passesOn
  calling := by rw [hc, h.calling]
  resting := by
    rw [hc]
    exact h.resting

theorem caller_of_isWork {m : Depot.Move} (hm : m.isWork = true) (s : Depot Ear) :
    (s.step m).caller = s.caller := by
  cases m with
  | pull i => rfl
  | begin i =>
    simp only [Depot.step, Depot.begin]
    split <;> rfl
  | answer i v =>
    simp only [Depot.step, Depot.answer]
    split <;> rfl
  | report i =>
    simp only [Depot.step, Depot.report]
    split <;> rfl
  | crash i =>
    simp only [Depot.step, Depot.crash]
    split <;> rfl
  | confirm i => rfl
  | leave i => rfl
  | _ => cases hm

/-- Who listens changes. The pipe begins to listen only while the source does not read. -/
theorem core_listen (h : Core store d s) {f : Listeners Ear → Listeners Ear}
    (hf : .pipe ∈ (f s.source.listeners).members →
      .pipe ∈ s.source.listeners.members ∨ s.source.connection ≠ .reading) :
    Core store d (s.listen f) where
  sound := h.sound
  backed := h.backed
  keeps := h.keeps.of_eq rfl rfl rfl
  tables := h.tables
  origin := h.origin
  intact := by
    intro hread hears
    refine (h.intact hread ?_).same rfl rfl (List.Subset.refl _) (fun _ hc => hc) rfl
    rcases hears with hears | hears
    · exact Or.inl ((hf hears).resolve_right fun hne => hne hread)
    · exact Or.inr hears
  busy := h.busy
  ears := h.ears
  passesOn := h.passesOn
  calling := h.calling
  resting := h.resting

/-! ## The reading thread -/

/-- The reading thread goes on to the listeners after one that is not the pipe. -/
theorem core_pass (h : Core store d s) {ms : List Mutation} {ears ears' : List Ear}
    (hh : s.hand = .asking ms ears) {hand : Hand}
    (hhand : hand = .asking ms ears' ∨ ears' = [] ∧ hand = .free) (hsub : ears'.Sublist ears)
    (hpipe : .pipe ∈ ears → .pipe ∈ ears') : Core store d { s with hand } := by
  have hread : s.source.connection = .reading := h.busy (by rw [hh]; exact nofun)
  have hears : hand.ears = ears' := by
    rcases hhand with rfl | ⟨rfl, rfl⟩ <;> rfl
  have hsending : hand.isSending = false := by
    rcases hhand with rfl | ⟨rfl, rfl⟩ <;> rfl
  have htodo : todo { s with hand } = s.todo := by
    -- The pipe is to be asked as before, so what it will have to send is the same.
    have hiff : .pipe ∈ ears' ↔ .pipe ∈ ears := ⟨fun hm => hsub.subset hm, hpipe⟩
    unfold todo
    rw [hh]
    rcases hhand with rfl | ⟨rfl, rfl⟩
    · simp only [hiff]
    · simp only [← hiff, List.not_mem_nil, if_false]
  exact {
    sound := h.sound
    backed := h.backed
    keeps := h.keeps
    tables := h.tables
    origin := h.origin
    intact := by
      intro _ hhears
      refine (h.intact hread ?_).same rfl rfl (List.Subset.refl _) (fun _ hc => hc) htodo
      rcases hhears with hm | hm
      · exact Or.inl hm
      · rw [hears] at hm
        refine Or.inr ?_
        rw [hh]
        exact hsub.subset hm
    busy := fun _ => hread
    ears := by
      have hnodup := h.ears
      rw [hh] at hnodup
      rw [hears]
      exact hnodup.sublist hsub
    passesOn := by
      rcases hhand with rfl | ⟨-, rfl⟩ <;> trivial
    calling := by
      rw [hsending, h.calling, hh]
      rfl
    resting := h.resting }

/-- The pipe is asked, and begins to send. -/
theorem core_send (h : Core store d s) {ms : List Mutation} {ears : List Ear}
    (hh : s.hand = .asking ms (.pipe :: ears)) :
    Core store d { s with depot := s.depot.step (.send ms), hand := .sending ms .done ears } := by
  have hread : s.source.connection = .reading := h.busy (by rw [hh]; exact nofun)
  have hcall : s.depot.caller.isSending = false := by
    rw [h.calling, hh]
    rfl
  obtain ⟨r, hr⟩ := Caller.exists_done hcall (h.not_closing hread)
  have hstep : s.depot.step (.send ms) =
      { s.depot with caller := .sending ms, calls := s.depot.calls ++ [ms] } := by
    simp only [Depot.step, hr]
  have hst : s.depot.Step { s.depot with caller := .sending ms, calls := s.depot.calls ++ [ms] } :=
    .asked (by rw [hr]; rfl)
  have hhears : s.Hears := by
    refine Or.inr ?_
    rw [hh]
    exact List.mem_cons_self
  rw [hstep]
  exact {
    sound := Depot.sound_step h.sound hst
    backed := h.backed.same (List.Subset.refl _) rfl (Or.inr fun i x ms hcall => by cases hcall)
    keeps := h.keeps
    tables := h.tables
    origin := h.origin
    intact := by
      intro _ _
      refine (h.intact hread hhears).same rfl rfl (List.Subset.refl _) (fun _ hc => hc) ?_
      unfold todo
      rw [hh]
      exact (if_pos List.mem_cons_self).symm
    busy := fun _ => hread
    ears := by
      have hnodup := h.ears
      rw [hh] at hnodup
      exact hnodup
    passesOn := rfl
    calling := rfl
    resting := by
      intro hc
      cases hc }

theorem core_ask (h : Core store d s) (v : Verdict) : Core store d (s.ask v) := by
  unfold ask
  split
  · rename_i ms hh
    exact core_pass h hh (Or.inr ⟨rfl, rfl⟩) (List.Sublist.refl _) fun hm => hm
  · rename_i ms ears hh
    have hsend := core_send h hh
    rwa [← ask_pipe hh v, ask, hh] at hsend
  · rename_i ms name ears hh
    have hcall : s.depot.caller.isSending = false := by
      rw [h.calling, hh]
      rfl
    cases v with
    | accepted =>
      refine core_pass h hh (Or.inl rfl) (List.sublist_cons_self _ _) fun hm => ?_
      exact (List.mem_cons.1 hm).resolve_left (by simp)
    | refused e => exact core_fail e h.sound h.backed h.keeps h.tables h.origin hcall
    | crashed => exact core_crash h hcall
  · exact h

/-- The pipe goes on to send. -/
theorem core_proceed (hlog : d.Ordered) (h : Core store d s) {ms : List Mutation} {ears : List Ear}
    (hh : s.hand = .sending ms .done ears) {hand : Hand}
    (hhand : hand = s.hand ∨ hand = .asking ms ears)
    (hcall : (s.depot.step .proceed).caller.isSending = hand.isSending)
    (hne : ∀ e, (s.depot.step .proceed).caller ≠ .done (.error e))
    (hrest : ∀ m ∈ s.depot.caller.rest, m ∈ todo { s with depot := s.depot.step .proceed, hand } ∨
      ∃ p ∈ (s.depot.step .proceed).dest.tracker.pending, p.item = m)
    (hsub : todo { s with depot := s.depot.step .proceed, hand } ⊆ s.depot.caller.rest) :
    Core store d { s with depot := s.depot.step .proceed, hand } := by
  have hsending : s.depot.caller.isSending = true := by
    rw [h.calling, hh]
    rfl
  obtain ⟨hread, hmem, htodo⟩ := h.sending hsending
  have hst := Depot.step_of_move s.depot .proceed
  have hpub := Depot.published_step hst
  have hnodup := h.ears
  rw [hh] at hnodup
  exact {
    sound := Depot.sound_step h.sound hst
    backed := Depot.backed_step h.sound h.backed (h.ready hlog) hst
    keeps := h.keeps.mono fun p hp => hp.mono fun c hc => hc.mono hpub
    tables := h.tables
    origin := h.origin
    intact := by
      intro _ _
      refine (h.intact hread (Or.inr hmem)).mono rfl rfl hpub (fun c hc => ?_) ?_ ?_
      · exact Depot.carries_step h.sound hst (Caller.not_closing_of_sending hsending)
          (fun _ _ _ e _ => hne e) hc
      · rw [htodo]
        exact hsub
      · -- What was to be sent still is, or it is pending now.
        rintro c ⟨m, hm, hc⟩
        rw [htodo] at hm
        rcases hrest m hm with hm | ⟨p, hp, rfl⟩
        · exact Or.inr ⟨m, hm, hc⟩
        · exact Or.inl ⟨p.seq, Or.inr ⟨p, hp, Nat.le_refl _, hc⟩⟩
    busy := fun _ => hread
    ears := by
      rcases hhand with rfl | rfl
      · exact h.ears
      · exact (List.nodup_cons.1 hnodup).2
    passesOn := by
      rcases hhand with rfl | rfl
      · exact h.passesOn
      · trivial
    calling := hcall
    resting := by
      intro hc
      exact absurd hc (Bool.eq_false_iff.1 (s.depot.not_closing_proceed hsending)) }

theorem core_offer (hlog : d.Ordered) (h : Core store d s) : Core store d s.offer := by
  cases hh : s.hand with
  | sending ms next ears =>
    obtain rfl : next = .done := by
      have hnext := h.passesOn
      rwa [hh] at hnext
    have hsending : s.depot.caller.isSending = true := by
      rw [h.calling, hh]
      rfl
    have hears := h.ears
    rw [hh] at hears
    have hst := Depot.step_of_move s.depot .proceed
    have hpub := Depot.published_step hst
    -- The call goes on, it comes back, or it fails.
    rcases s.depot.proceed_cases hsending with ⟨hgo, hsub, hrest⟩ | ⟨hdone, hnil⟩ | ⟨e, herror⟩
    · have hgoing : ∀ r, (s.depot.step .proceed).caller ≠ .done r :=
        Caller.not_done_of_sending hgo
      have hs : s.offer = { s with depot := s.depot.step .proceed, hand := s.hand } :=
        offer_of_going hh hgoing
      have htodo : todo { s with depot := s.depot.step .proceed, hand := s.hand } =
          s.depot.proceed.caller.rest := by
        unfold todo
        rw [hh]
        rfl
      rw [hs]
      refine core_proceed hlog h hh (Or.inl rfl) ?_ ?_ ?_ ?_
      · rw [hh]
        exact hgo
      · exact fun e => hgoing _
      · rw [htodo]
        exact hrest
      · rw [htodo]
        exact hsub
    · have hs : s.offer = { s with depot := s.depot.step .proceed, hand := .asking ms ears } :=
        offer_of_sent hh hdone
      have htodo : todo { s with depot := s.depot.step .proceed, hand := .asking ms ears } = [] :=
        if_neg (List.nodup_cons.1 hears).1
      rw [hs]
      refine core_proceed hlog h hh (Or.inr rfl) ?_ ?_ ?_ ?_
      · rw [show (s.depot.step .proceed).caller = _ from hdone]
        rfl
      · intro e he
        cases hdone.symm.trans he
      · rw [hnil]
        simp
      · rw [htodo]
        exact List.nil_subset _
    · have hs : s.offer = fail e { s with depot := s.depot.step .proceed } :=
        offer_of_failed hh herror
      rw [hs]
      refine core_fail e (Depot.sound_step h.sound hst)
        (Depot.backed_step h.sound h.backed (h.ready hlog) hst)
        (h.keeps.mono fun p hp => hp.mono fun c hc => hc.mono hpub) h.tables h.origin ?_
      rw [show (s.depot.step .proceed).caller = _ from herror]
      rfl
  | free =>
    unfold offer
    rw [hh]
    exact h
  | asking ms ears =>
    unfold offer
    rw [hh]
    exact h

end Plant

end ChangeFeed
