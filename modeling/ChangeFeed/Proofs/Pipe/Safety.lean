import ChangeFeed.Proofs.Pipe.Calls

/-!
# No change is lost

Whatever happens to a pipe, all that lies before the point that its source would resume from has
been published.

**The invariant** (`Plant.Safe`). What holds of the parts (`Plant.Core`); the destination is being
closed only by a call of the owner; and what is left of all calls is in order.

Main result: `published_before_point`, after every run all changes that lie before the stored point
are published.
-/

namespace ChangeFeed

namespace Plant

variable {σ : Type} {store : Store σ} {d : Duty} {s s' : Plant σ} {known : List Mutation}
  {st : Stance}

/-! ## The invariant -/

/-- A script that goes on is in order for one who trusts what the destination gave and stands to the
source as told. -/
structure Proper {α : Type} (d : Duty) (s : Plant σ) (st : Stance) (k : Script α) : Prop where
  known : ∃ known, s.Trusts d known ∧ k.Orderly known st
  fits : s.Fits st

/-- What holds at all times. -/
structure Safe (store : Store σ) (d : Duty) (s : Plant σ) : Prop where
  core : Core store d s
  closing : s.depot.caller.isClosing = true → ∃ next, s.call = .call .closeDestination next
  owner : ∃ st ≠ Stance.apart, s.Proper d st s.call
  savers : ∀ k ∈ s.savers, s.Proper d .apart k

theorem Proper.calm {α : Type} {k : Script α} (h : s.Proper d st k) (hc : Calm s s') :
    s'.Proper d st k where
  known := by
    obtain ⟨known, hknown, hk⟩ := h.known
    exact ⟨known, hknown.mono hc.published, hk⟩
  fits := hc.fits h.fits

/-- Whoever has no part in a call is not hurt by it. -/
theorem Proper.apart {α : Type} {k : Script α} (h : s.Proper d .apart k)
    (hpub : s.depot.published ⊆ s'.depot.published) : s'.Proper d .apart k where
  known := by
    obtain ⟨known, hknown, hk⟩ := h.known
    exact ⟨known, hknown.mono hpub, hk⟩
  fits := trivial

/-- What calls are left does not matter for the parts. -/
theorem core_calls (h : Core store d s) (call : Script (Except Error Unit))
    (savers : List (Script (Except Error Unit))) : Core store d { s with call, savers } where
  sound := h.sound
  backed := h.backed
  keeps := h.keeps
  tables := h.tables
  origin := h.origin
  intact := fun hread hears =>
    (h.intact hread hears).same rfl rfl (List.Subset.refl _) (fun _ hc => hc) rfl
  busy := h.busy
  ears := h.ears
  passesOn := h.passesOn
  calling := h.calling
  resting := h.resting

theorem Safe.calm (h : Safe store d s) (hcore : Core store d s') (hc : Calm s s') :
    Safe store d s' where
  core := hcore
  closing := by
    rw [hc.call]
    exact fun hclosing => h.closing (hc.closing hclosing)
  owner := by
    obtain ⟨st, hst, hp⟩ := h.owner
    rw [hc.call]
    exact ⟨st, hst, hp.calm hc⟩
  savers := by
    rw [hc.savers]
    exact fun k hk => (h.savers k hk).calm hc

/-! ## Calls -/

theorem savers_perform (store : Store σ) (answer : Except Error Unit) (s : Plant σ)
    (c : PartCall) : (s.perform store answer c).2.savers = s.savers := by
  cases c with
  | closeSource =>
    show (s.closeSource answer).2.savers = s.savers
    rcases s.closeSource_cases answer with ⟨r, c, feed, -, -, heq⟩ | heq <;> rw [heq]
  | closeDestination =>
    show s.closeDestination.2.savers = s.savers
    rcases s.closeDestination_cases with ⟨r, depot, heq, -, -⟩ | ⟨depot, heq, -, -⟩ <;> rw [heq]
  | _ => rfl

/-- The owner makes a new call. -/
theorem safe_call (h : Safe store d s) {r : Except Error Unit} (hr : s.call = .done r)
    {k : Script (Except Error Unit)} (hk : k.Orderly [] .ready) : Safe store d { s with call := k }
    where
  core := core_calls h.core k s.savers
  closing := by
    intro hclosing
    obtain ⟨next, hnext⟩ := h.closing hclosing
    rw [hr] at hnext
    cases hnext
  owner := by
    obtain ⟨st, hst, ⟨known, -, hdone⟩, hfits⟩ := h.owner
    refine ⟨.ready, by exact nofun, ⟨[], trusts_nil d s, hk⟩, ?_⟩
    rw [hr] at hdone
    cases st with
    | apart => exact absurd rfl hst
    | loose => exact absurd rfl hdone
    | ready => exact hfits
    | listening => exact Or.inl hfits
    | quiet => exact Or.inr hfits
  savers := fun k hk => (h.savers k hk).apart (List.Subset.refl _)

theorem turn_of_reply {α : Type} {answer : Except Error Unit} {c : PartCall}
    (next : c.Reply → Script α) {r : c.Reply} (hr : (s.perform store answer c).1 = some r) :
    s.turn store answer (.call c next) = (next r, (s.perform store answer c).2) := by
  rcases hx : s.perform store answer c with ⟨r?, s'⟩
  rw [hx] at hr
  obtain rfl : r? = some r := hr
  simp only [turn, hx]

theorem turn_of_wait {α : Type} {answer : Except Error Unit} {c : PartCall}
    (next : c.Reply → Script α) (hr : (s.perform store answer c).1 = none) :
    s.turn store answer (.call c next) = (.call c next, (s.perform store answer c).2) := by
  rcases hx : s.perform store answer c with ⟨r?, s'⟩
  rw [hx] at hr
  obtain rfl : r? = none := hr
  simp only [turn, hx]

/-- Whether a call comes back or not, the parts are as the call left them. -/
theorem turn_snd {α : Type} {answer : Except Error Unit} {c : PartCall}
    (next : c.Reply → Script α) :
    (s.turn store answer (.call c next)).2 = (s.perform store answer c).2 := by
  cases hr : (s.perform store answer c).1 with
  | none => rw [turn_of_wait next hr]
  | some r => rw [turn_of_reply next hr]

/-- One step of a call to the pipe keeps what holds of the parts, and what is left of the call is in
order again. -/
theorem proper_turn {α : Type} (hlog : d.Ordered) (hf : store.Faithful) (h : Core store d s)
    (answer : Except Error Unit) {k : Script α} (hk : s.Proper d st k)
    (hopen : ∀ next, k = .call .openSource next → s.depot.caller.isClosing = false) :
    Core store d (s.turn store answer k).2 ∧ ∃ st', (st' = .apart ↔ st = .apart) ∧
      (s.turn store answer k).2.Proper d st' (s.turn store answer k).1 := by
  cases k with
  | done a => exact ⟨h, st, Iff.rfl, hk⟩
  | call c next =>
    obtain ⟨⟨known, hknown, hc, hnext⟩, hst⟩ := hk
    have hcore : Core store d (s.perform store answer c).2 := by
      refine core_perform hlog hf h hknown hst hc fun hc' => ?_
      subst hc'
      exact hopen next rfl
    cases hr : (s.perform store answer c).1 with
    | none =>
      rw [turn_of_wait next hr]
      refine ⟨hcore, st, Iff.rfl, ⟨known, hknown.mono published_perform, hc, hnext⟩, ?_⟩
      exact fits_wait hst hr
    | some r =>
      rw [turn_of_reply next hr]
      refine ⟨hcore, st.after c r, ⟨fun ha => ?_, fun ha => ?_⟩,
        ⟨_, trusts_perform h hknown hr, hnext r⟩, fits_perform hf h hknown hst hc hr⟩
      · by_contra hne
        exact Stance.after_ne_apart hne c r ha
      · subst ha
        exact Stance.after_apart hc r

theorem published_turn {α : Type} (store : Store σ) (answer : Except Error Unit) (s : Plant σ)
    (k : Script α) : s.depot.published ⊆ (s.turn store answer k).2.depot.published := by
  cases k with
  | done a => exact List.Subset.refl _
  | call c next =>
    rw [turn_snd next]
    exact published_perform

theorem savers_turn {α : Type} (store : Store σ) (answer : Except Error Unit) (s : Plant σ)
    (k : Script α) : (s.turn store answer k).2.savers = s.savers := by
  cases k with
  | done a => rfl
  | call c next =>
    rw [turn_snd next]
    exact savers_perform store answer s c

/-- The destination is being closed only if this is what is left of a call. -/
theorem closing_turn {α : Type} {answer : Except Error Unit} {k : Script α}
    (hclosing : (s.turn store answer k).2.depot.caller.isClosing = true) :
    (∃ next, (s.turn store answer k).1 = .call .closeDestination next) ∨
      s.depot.caller.isClosing = true ∧ ∀ next, k ≠ .call .closeDestination next := by
  cases k with
  | done a => exact Or.inr ⟨hclosing, by exact nofun⟩
  | call c next =>
    cases hr : (s.perform store answer c).1 with
    | none =>
      rw [turn_of_wait next hr] at hclosing ⊢
      rcases closing_perform hclosing with ⟨rfl, -⟩ | ⟨hne, hclosing⟩
      · exact Or.inl ⟨next, rfl⟩
      · refine Or.inr ⟨hclosing, fun next' hnext => ?_⟩
        cases hnext
        exact hne rfl
    | some r =>
      rw [turn_of_reply next hr] at hclosing
      rcases closing_perform hclosing with ⟨-, hnone⟩ | ⟨hne, hclosing⟩
      · rw [hr] at hnone
        cases hnone
      · refine Or.inr ⟨hclosing, fun next' hnext => ?_⟩
        cases hnext
        exact hne rfl

/-- A call of one who leaves the source alone keeps calm. -/
theorem calm_turn {α : Type} (hf : store.Faithful) (h : Core store d s)
    (answer : Except Error Unit) {k : Script α} (hk : s.Proper d .apart k) :
    Calm s (s.turn store answer k).2 := by
  cases k with
  | done a => exact .refl s
  | call c next =>
    obtain ⟨known, hknown, hc, -⟩ := hk.known
    rw [turn_snd next]
    exact calm_perform hf h hknown hc

/-- The owner's call takes a step. -/
theorem safe_turn (hlog : d.Ordered) (hf : store.Faithful) (h : Safe store d s)
    (answer : Except Error Unit) :
    Safe store d { (s.turn store answer s.call).2 with
      call := (s.turn store answer s.call).1 } := by
  obtain ⟨st, hst, hp⟩ := h.owner
  obtain ⟨hcore, st', hiff, hp'⟩ := proper_turn hlog hf h.core answer hp fun next hnext => by
    refine Bool.eq_false_iff.2 fun hclosing => ?_
    obtain ⟨next', hcall⟩ := h.closing hclosing
    rw [hnext] at hcall
    cases hcall
  refine ⟨core_calls hcore _ _, fun hclosing => ?_, ⟨st', fun ha => hst (hiff.1 ha), ?_⟩,
    fun k hk => ?_⟩
  · rcases closing_turn hclosing with hnext | ⟨hclosing, hne⟩
    · exact hnext
    · obtain ⟨next, hcall⟩ := h.closing hclosing
      exact absurd hcall (hne next)
  · exact ⟨hp'.known, hp'.fits⟩
  · refine (h.savers k ?_).apart (published_turn store answer s s.call)
    rw [← savers_turn store answer s s.call]
    exact hk

/-! ## Checkpoints -/

/-- Other checkpoints are being made. -/
theorem Safe.save (h : Safe store d s) {savers : List (Script (Except Error Unit))}
    (hs : ∀ k ∈ savers, s.Proper d .apart k) : Safe store d { s with savers } where
  core := core_calls h.core s.call savers
  closing := h.closing
  owner := by
    obtain ⟨st, hst, hp⟩ := h.owner
    exact ⟨st, hst, hp.known, hp.fits⟩
  savers := fun k hk => ⟨(hs k hk).known, (hs k hk).fits⟩

/-- A checkpoint takes a step. -/
theorem safe_save (hlog : d.Ordered) (hf : store.Faithful) (h : Safe store d s)
    (answer : Except Error Unit) {n : Nat} {k : Script (Except Error Unit)}
    (hk : s.savers[n]? = some k) :
    Safe store d { (s.turn store answer k).2 with
      savers := (s.turn store answer k).2.savers.set n (s.turn store answer k).1 } := by
  have hp := h.savers k (List.mem_of_getElem? hk)
  obtain ⟨known, hknown, horder⟩ := hp.known
  obtain ⟨hcore, st', hiff, hp'⟩ := proper_turn hlog hf h.core answer hp fun next hnext => by
    rw [hnext] at horder
    cases horder.1
  obtain rfl := hiff.2 rfl
  refine (h.calm hcore (calm_turn hf h.core answer hp)).save fun k' hk' => ?_
  rw [savers_turn] at hk'
  rcases List.mem_or_eq_of_mem_set hk' with hk' | rfl
  · exact (h.savers k' hk').apart (published_turn store answer s k)
  · exact hp'

/-! ## The other threads -/

theorem calm_listen {f : Listeners Ear → Listeners Ear}
    (hf : ∀ l, .pipe ∈ (f l).members ↔ .pipe ∈ l.members) (s : Plant σ) : Calm s (s.listen f) where
  call := rfl
  savers := rfl
  listens := hf s.source.listeners
  reading := id
  published := List.Subset.refl _
  closing := id

theorem calm_hand (s : Plant σ) (hand : Hand) : Calm s { s with hand } :=
  ⟨rfl, rfl, Iff.rfl, id, List.Subset.refl _, id⟩

theorem calm_depot {depot : Depot Ear} (hpub : s.depot.published ⊆ depot.published)
    (hclosing : depot.caller.isClosing = true → s.depot.caller.isClosing = true) :
    Calm s { s with depot } :=
  ⟨rfl, rfl, Iff.rfl, id, hpub, hclosing⟩

theorem calm_crash (s : Plant σ) : Calm s s.crash :=
  ⟨rfl, rfl, Iff.rfl, by exact nofun, List.Subset.refl _, id⟩

theorem calm_fail (e : Error) (s : Plant σ) : Calm s (s.fail e) where
  call := rfl
  savers := rfl
  listens := by
    obtain ⟨n, hn⟩ := s.source.countFailure_eq e
    unfold fail Source.fail
    rw [hn]
  reading := by exact nofun
  published := List.Subset.refl _
  closing := id

theorem calm_receive (e : LogEvent) (s : Plant σ) : Calm s (s.receive e) := by
  have hheed : Calm s { s with source := (s.source.heed e).2 } :=
    ⟨rfl, rfl, Iff.rfl, id, List.Subset.refl _, id⟩
  unfold receive
  simp only
  split
  · exact hheed
  · split
    · exact hheed.trans (calm_fail _ _)
    · exact hheed
    · exact hheed.trans (calm_hand _ _)

theorem calm_arrive (log : List LogEvent) (a : Arrival) (s : Plant σ) :
    Calm s (s.arrive log a) := by
  cases a with
  | event n =>
    simp only [arrive]
    split
    · split
      · have hadd : Calm s { s with feed := s.feed.add n } :=
          ⟨rfl, rfl, Iff.rfl, id, List.Subset.refl _, id⟩
        exact hadd.trans (calm_receive _ _)
      · exact .refl s
    · exact .refl s
  | nothing => exact .refl s
  | failed e => exact calm_fail e s
  | crashed => exact calm_crash s

theorem calm_hear (v : Verdict) (ms : List Mutation) (ears : List Ear) (s : Plant σ) :
    Calm s (s.hear v ms ears) := by
  cases v with
  | accepted => exact calm_hand s _
  | refused e => exact calm_fail e s
  | crashed => exact calm_crash s

theorem calm_follow (k : Script (Except Error Unit)) (ms : List Mutation) (ears : List Ear)
    (s : Plant σ) : Calm s (s.follow k ms ears) := by
  unfold follow
  split
  · exact calm_hear _ ms ears s
  · exact calm_hear _ ms ears s
  · rename_i sent next
    have hsend : Calm s { s with depot := s.depot.step (.send sent) } := by
      refine calm_depot (Depot.published_step (Depot.step_of_move _ _)) fun hc => ?_
      simp only [Depot.step] at hc
      split at hc
      · cases hc
      · exact hc
    exact hsend.trans (calm_hand _ _)
  · exact .refl s

theorem calm_ask (v : Verdict) (s : Plant σ) : Calm s (s.ask v) := by
  unfold ask
  split
  · exact calm_hand s _
  · exact calm_follow _ _ _ s
  · exact calm_hear v _ _ s
  · exact .refl s

theorem calm_offer (h : Core store d s) : Calm s s.offer := by
  unfold offer
  split
  · rename_i ms next ears hh
    have hsending : s.depot.caller.isSending = true := by
      rw [h.calling, hh]
      rfl
    have hproceed : Calm s { s with depot := s.depot.step .proceed } := by
      refine calm_depot (Depot.published_step (Depot.step_of_move _ _)) fun hc => ?_
      exact absurd hc (Bool.eq_false_iff.1 (s.depot.not_closing_proceed hsending))
    simp only
    split
    · exact hproceed.trans (calm_follow _ ms ears _)
    · exact hproceed
  · exact .refl s

/-! ## Steps and runs -/

/-- The invariant is kept whatever happens next. -/
theorem safe_step (hlog : d.Ordered) (hf : store.Faithful) (h : Safe store d s) (m : Move) :
    Safe store d (s.step store d.log m) := by
  cases m with
  | start =>
    simp only [step]
    split
    · rename_i hr
      exact safe_call h hr (Pipe.orderly_start s.pipe [])
    · exact h
  | stop =>
    simp only [step]
    split
    · rename_i hr
      exact safe_call h hr (Pipe.orderly_stop [])
    · exact h
  | call answer => exact safe_turn hlog hf h answer
  | checkpoint =>
    refine h.save fun k hk => ?_
    rcases List.mem_append.1 hk with hk | hk
    · exact h.savers k hk
    · obtain rfl := List.mem_singleton.1 hk
      exact ⟨⟨[], trusts_nil d s, Pipe.orderly_checkpoint [] (by exact nofun)⟩, trivial⟩
  | save n =>
    simp only [step]
    split
    · rename_i k hk
      exact safe_save hlog hf h (.ok ()) hk
    · exact h
  | arrive a =>
    simp only [step]
    split
    · rename_i hread
      split
      · rename_i hhand
        exact h.calm (core_arrive hlog h.core hread hhand a) (calm_arrive d.log a s)
      · exact h
    · exact h
  | ask v => exact h.calm (core_ask h.core v) (calm_ask v s)
  | offer => exact h.calm (core_offer hlog h.core) (calm_offer h.core)
  | work m =>
    simp only [step]
    split
    · rename_i hm
      have hst := Depot.step_of_move s.depot m
      have hcaller := caller_of_isWork hm s.depot
      refine h.calm (core_depot hlog h.core hst hcaller) ?_
      refine calm_depot (Depot.published_step hst) fun hc => ?_
      rwa [hcaller] at hc
    · exact h
  | join name =>
    have hpipe : ∀ l : Listeners Ear,
        .pipe ∈ (l.add (.other name)).members ↔ .pipe ∈ l.members := by simp
    exact h.calm (core_listen h.core fun hm => Or.inl ((hpipe _).1 hm)) (calm_listen hpipe s)
  | part name =>
    have hpipe : ∀ l : Listeners Ear,
        .pipe ∈ (l.remove (.other name)).members ↔ .pipe ∈ l.members := by simp
    exact h.calm (core_listen h.core fun hm => Or.inl ((hpipe _).1 hm)) (calm_listen hpipe s)

/-- A pipe that was just built has nothing to answer for, with a store that nothing was saved to. -/
theorem safe_start {p : SourcePlan} {q : DestinationPlan} {stored : σ} {source : Source Ear σ}
    {dest : Destination Ear} (hpoint : store.readPoint stored = .ok none)
    (hhistory : store.readHistory stored = .ok []) (hp : p.build store stored = .ok source)
    (hq : q.build = .ok dest) (log : List LogEvent) (pipe : Pipe) :
    Safe store ⟨log, p.tables, p.startPosition, source.dataSource⟩ (start pipe source dest) := by
  obtain ⟨htables, hidle, hkeeps⟩ := Source.keeps_build hp hpoint hhistory
    (Duty.done_initial ⟨log, p.tables, p.startPosition, source.dataSource⟩ (Published []))
  have hrest : source.connection ≠ .reading := by
    rw [hidle]
    exact nofun
  exact {
    core := core_of_ended (Depot.sound_start hq) (Depot.backed_start _ hq) hkeeps htables rfl hrest
      rfl rfl
    closing := by exact nofun
    owner := ⟨.ready, by exact nofun, ⟨[], trusts_nil _ _, by exact nofun⟩, Or.inr hrest⟩
    savers := by
      intro k hk
      cases hk }

/-- **No change is lost.** A pipe over a log whose events are in order of their positions: whatever
is done and whatever happens to it, all changes of followed tables that lie between the initial
position and the stored resume point are published. -/
theorem published_before_point {store : Store σ} (hf : store.Faithful) {p : SourcePlan}
    {q : DestinationPlan} {stored : σ} {source : Source Ear σ} {dest : Destination Ear}
    (hpoint : store.readPoint stored = .ok none) (hhistory : store.readHistory stored = .ok [])
    (hp : p.build store stored = .ok source) (hq : q.build = .ok dest) {log : List LogEvent}
    (hlog : log.Pairwise fun e e' => e.position.rank ≤ e'.position.rank) (pipe : Pipe)
    (ms : List Move) {point : ResumePoint}
    (hread : store.readPoint ((start pipe source dest).run store log ms).source.stored =
      .ok (some point)) :
    Duty.Done ⟨log, p.tables, p.startPosition, source.dataSource⟩
      (Published ((start pipe source dest).run store log ms).depot.published) point.position := by
  have hordered : Duty.Ordered ⟨log, p.tables, p.startPosition, source.dataSource⟩ := hlog
  have hsafe : Safe store ⟨log, p.tables, p.startPosition, source.dataSource⟩
      ((start pipe source dest).run store log ms) :=
    run_induction (safe_start hpoint hhistory hp hq log pipe)
      (fun s m h => safe_step hordered hf h m) ms
  exact hsafe.core.keeps.point point hread

/-! ### Two transactions -/

/-- A transaction that inserts a row into each of two tables. -/
def twoRows (offset : Int64) (position : UInt64) : List LogEvent :=
  let header (i : Int64) (n : UInt64) : EventHeader :=
    ⟨offset + i, 0, 1, .plain "mysql-bin.000001" (position + n) (position + n + 1)⟩
  [.query (header 0 0) "shop" "BEGIN",
    .tableMap (header 1 1) ⟨1, "orders", "shop", [], []⟩, .writeRows (header 2 2) 1 [[]],
    .tableMap (header 3 3) ⟨2, "carts", "shop", [], []⟩, .writeRows (header 4 4) 2 [[]],
    .xid (header 5 5) 1]

/-- Two such transactions, and what is to be brought over of one of the tables. -/
def orders : Duty :=
  { log := twoRows 1 4 ++ twoRows 7 10
    tables := ["shop.orders"]
    initial := .plain "mysql-bin.000001" 4 4
    origin := ⟨"127.0.0.1", 3306, "shop"⟩ }

/-- An event comes and its row is sent. -/
def bring (n : Nat) : List Move :=
  [.arrive (.event n), .ask .accepted, .offer, .offer, .offer, .offer, .ask .accepted]

/-- A batch of one row is published and acknowledged. -/
def publish : List Move :=
  [.work (.pull 0), .work (.begin 0), .work (.answer 0 .accepted), .work (.confirm 0),
    .work (.confirm 0)]

/-- Both rows are brought over before the first is published. Then a checkpoint is made. -/
def delivery : List Move :=
  .start :: List.replicate 4 (.call (.ok ())) ++ [0, 1].map (.arrive ∘ .event) ++ bring 2 ++
    [3, 4, 5, 6, 7].map (.arrive ∘ .event) ++ bring 8 ++ publish ++ publish ++
    [.checkpoint, .save 0, .save 0]

/-- The second transaction would be read again, and the row of the first is published. -/
theorem published_before_point_orders :
    ∃ (source : Source Ear Memory) (dest : Destination Ear),
      SourcePlan.build { name := "shop", tables := orders.tables } .memory .empty = .ok source ∧
        DestinationPlan.build { name := "shop", batchSize := 1 } = .ok dest ∧
          ∃ s, s = (start ⟨"shop", none⟩ source dest).run .memory orders.log delivery ∧
            (∃ c, orders.Owes 2 c) ∧
            ∃ point, Store.memory.readPoint s.source.stored = .ok (some point) ∧
              point.position = .plain "mysql-bin.000001" 10 11 ∧
              orders.Done (Published s.depot.published) point.position :=
  ⟨_, _, rfl, rfl, _, rfl,
    ⟨_, _, _, _, _, rfl, rfl, rfl, by decide +kernel, List.mem_cons_self⟩, _, rfl, rfl,
    published_before_point (p := { name := "shop", tables := orders.tables })
      (q := { name := "shop", batchSize := 1 }) Store.faithful_memory
      (show Store.memory.readPoint .empty = .ok none from rfl) rfl rfl rfl (by decide +kernel)
      ⟨"shop", none⟩ delivery rfl⟩

end Plant

end ChangeFeed
