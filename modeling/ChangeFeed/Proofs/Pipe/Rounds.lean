import ChangeFeed.Proofs.Pipe.Rig

/-!
# What the destination is asked to send

The destination of a pipe is asked to send the batches that the source hands over, each once and in
their order, and it tracks what it was asked to send.

**Accounts** (`Depot.accounts_step`, `Depot.accounts_proceed`). Nothing but a call to send is asked
of the destination, and nothing is tracked but what is still to be sent.

**Rounds** (`Round.Fair`, `Round.Over`). What holds of the record of a batch at any time, and once
its round is over.

**The record** (`Told`). The rounds are all that the destination was asked to send and all that it
tracked, and the last one is where the reading thread is.

Main result: `Told.step`.
-/

namespace ChangeFeed

/-! ## Accounts of a destination -/

namespace Depot

variable {ι : Type} {s s' : Depot ι}

/-- The destination was asked to send nothing more, tracked nothing more, and its caller has as much
to send as before. -/
structure SameAccounts (s s' : Depot ι) : Prop where
  calls : s'.calls = s.calls
  sent : s'.sent = s.sent
  rest : s'.caller.rest = s.caller.rest

theorem SameAccounts.refl (s : Depot ι) : SameAccounts s s := ⟨rfl, rfl, rfl⟩

theorem accounts_of_isWork {m : Move} (hm : m.isWork = true) (s : Depot ι) :
    SameAccounts s (s.step m) := by
  cases m with
  | pull i => exact ⟨rfl, rfl, rfl⟩
  | begin i =>
    simp only [step, begin]
    split <;> exact ⟨rfl, rfl, rfl⟩
  | answer i v =>
    simp only [step, answer]
    split <;> exact ⟨rfl, rfl, rfl⟩
  | report i =>
    simp only [step, report]
    split <;> exact ⟨rfl, rfl, rfl⟩
  | crash i =>
    simp only [step, crash]
    split <;> exact ⟨rfl, rfl, rfl⟩
  | confirm i => exact ⟨rfl, rfl, rfl⟩
  | leave i => exact ⟨rfl, rfl, rfl⟩
  | _ => cases hm

theorem accounts_openPool (s : Depot ι) : SameAccounts s (s.step .openPool) := by
  simp only [step]
  split
  · exact .refl s
  · unfold openPool
    split
    · exact .refl s
    · split <;> exact ⟨rfl, rfl, rfl⟩

theorem accounts_stopAll (s : Depot ι) : SameAccounts s (s.step .stopAll) := by
  simp only [step]
  split
  · rename_i hs
    exact ⟨rfl, rfl, by simp only [hs, Caller.rest]⟩
  · exact .refl s

theorem accounts_closePool (s : Depot ι) : SameAccounts s (s.step .closePool) := by
  simp only [step]
  split
  · rename_i hs
    split
    · exact ⟨rfl, rfl, by simp only [closePool, hs, Caller.rest]⟩
    · exact .refl s
  · exact .refl s

/-- What is tracked is what is to be sent next. Nothing is left out unless sending fails. -/
theorem accounts_proceed (s : Depot ι) : s.proceed.calls = s.calls ∧
    ∃ new, s.proceed.sent = s.sent ++ new ∧ new ++ s.proceed.caller.rest <+: s.caller.rest ∧
      ((∀ e, s.proceed.caller ≠ .done (.error e)) →
        new ++ s.proceed.caller.rest = s.caller.rest) := by
  cases hc : s.caller with
  | done r =>
    have hs : s.proceed = s := by simp only [proceed, hc]
    rw [hs, hc]
    exact ⟨rfl, [], by simp, List.prefix_rfl, fun _ => rfl⟩
  | closing =>
    have hs : s.proceed = s := by simp only [proceed, hc]
    rw [hs, hc]
    exact ⟨rfl, [], by simp, List.prefix_rfl, fun _ => rfl⟩
  | sending ms =>
    cases ms with
    | nil =>
      simp only [proceed, hc]
      exact ⟨trivial, [], by simp, List.prefix_rfl, fun _ => rfl⟩
    | cons m ms =>
      simp only [proceed, hc]
      cases s.dest.assign m with
      | error e =>
        exact ⟨rfl, [], by simp, List.nil_prefix, fun hne => absurd rfl (hne e)⟩
      | ok i => exact ⟨rfl, [], by simp, List.prefix_rfl, fun _ => rfl⟩
  | assigned i m ms =>
    -- This is the one step that tracks a mutation.
    simp only [proceed, hc]
    exact ⟨trivial, [m], rfl, List.prefix_rfl, fun _ => rfl⟩
  | placing i x ms =>
    simp only [proceed, hc]
    rcases s.dest.place i x with ⟨o, dest⟩
    cases o with
    | placed => exact ⟨rfl, [], by simp, List.prefix_rfl, fun _ => rfl⟩
    | refused e => exact ⟨rfl, [], by simp, List.nil_prefix, fun hne => absurd rfl (hne e)⟩
    | waits j y =>
      simp only [hc]
      exact ⟨trivial, [], by simp, List.prefix_rfl, fun _ => rfl⟩

end Depot

/-! ## Rounds -/

namespace Round

/-- The pipe is asked to take a batch once, unless the source was about to be closed, when it is not
asked. The destination is asked to send the batch once at most, and tracks it in its order; all of
it, once the pipe has taken it. -/
structure Fair (r : Round) : Prop where
  asks : r.ears.count .pipe = if r.late then 0 else 1
  left : r.left <:+ r.ears
  once : r.given = [] ∧ r.tracked = [] ∨ r.given = [r.batch] ∧ r.tracked <+: r.batch
  whole : .pipe ∈ r.ears → .pipe ∉ r.left → r.given = [r.batch] ∧ r.tracked = r.batch
  spared : .pipe ∉ r.ears → r.given = []

/-- The destination was asked to send the batch, if the pipe was to be asked at all and nobody who
comes before the pipe kept the batch from it. -/
def Over (r : Round) : Prop :=
  .pipe ∈ r.ears → r.given = [] → ∃ name rest, r.left = .other name :: rest ∧ .pipe ∈ rest

/-- The round is where the reading thread is, and the caller of the destination. -/
def Current (r : Round) (c : Caller) : Hand → Prop
  | .free => True
  | .asking ms ears =>
    r.batch = ms ∧ r.left = ears ∧ (.pipe ∈ ears → r.given = [] ∧ r.tracked = [])
  | .sending ms _ ears =>
    r.batch = ms ∧ r.left = .pipe :: ears ∧ r.given = [ms] ∧ r.tracked ++ c.rest = ms

/-- A batch that is about to be handed over. -/
theorem fair_new {ms : List Mutation} {ears : List Ear} {late : Bool}
    (h : ears.count .pipe = if late then 0 else 1) : Fair ⟨ms, ears, late, ears, [], []⟩ where
  asks := h
  left := List.suffix_rfl
  once := Or.inl ⟨rfl, rfl⟩
  whole := fun hm hn => absurd hm hn
  spared := fun _ => rfl

/-- One more listener who is not the pipe took the batch. -/
theorem Fair.pass {r : Round} (h : r.Fair) {name : String} {ears : List Ear}
    (hleft : r.left = .other name :: ears) : Fair { r with left := ears } where
  asks := h.asks
  left := (List.suffix_cons _ ears).trans (hleft ▸ h.left)
  once := h.once
  whole := fun hm hn => h.whole hm (by simpa [hleft] using hn)
  spared := h.spared

/-- While the pipe is asked, the destination is given the batch and tracks some of it. -/
theorem Fair.give {r : Round} (h : r.Fair) {ears : List Ear} (hleft : r.left = .pipe :: ears)
    {g : List (List Mutation)} {t : List Mutation} (hg : g = [r.batch]) (ht : t <+: r.batch) :
    Fair { r with given := g, tracked := t } where
  asks := h.asks
  left := h.left
  once := Or.inr ⟨hg, ht⟩
  whole := fun _ hn => absurd (hleft ▸ List.mem_cons_self) hn
  spared := fun hn => absurd (h.left.subset (hleft ▸ List.mem_cons_self)) hn

/-- A listener before the pipe keeps a batch from it. -/
theorem Fair.over_of_other {r : Round} (h : r.Fair) {name : String} {ears : List Ear}
    (hleft : r.left = .other name :: ears) : r.Over := by
  intro hm hg
  refine ⟨name, ears, hleft, ?_⟩
  by_contra hn
  have hwhole := (h.whole hm (by simpa [hleft] using hn)).1
  rw [hg] at hwhole
  cases hwhole

theorem over_of_given {r : Round} (hg : r.given ≠ []) : r.Over := fun _ h => absurd h hg

end Round

/-! ## The record -/

/-- The rounds that are over. -/
def Hand.past (hand : Hand) (rounds : List Round) : List Round :=
  match hand with
  | .free => rounds
  | _ => rounds.tail

/-- The record is that of a plant. -/
structure Told {σ : Type} (s : Plant σ) (rounds : List Round) : Prop where
  fair : ∀ r ∈ rounds, r.Fair
  past : ∀ r ∈ s.hand.past rounds, r.Over
  calls : s.depot.calls = (rounds.reverse.map (·.given)).flatten
  sent : s.depot.sent = (rounds.reverse.map (·.tracked)).flatten
  current : s.hand ≠ .free →
    ∃ r rest, rounds = r :: rest ∧ r.Current s.depot.caller s.hand

theorem Plant.depot_arrive {σ : Type} (s : Plant σ) (store : Store σ) (log : List LogEvent)
    (a : Arrival) : (s.step store log (.arrive a)).depot = s.depot := by
  have hreceive : ∀ (e : LogEvent) (s : Plant σ), (s.receive e).depot = s.depot := by
    intro e s
    unfold receive
    simp only
    split
    · rfl
    · split <;> rfl
  simp only [step]
  split
  · split
    · cases a with
      | event n =>
        simp only [arrive]
        split
        · split
          · exact hreceive _ _
          · rfl
        · rfl
      | _ => rfl
    · rfl
  · rfl

/-- Calls to the parts are none to send. -/
theorem Plant.accounts_perform {σ : Type} (s : Plant σ) (store : Store σ)
    (answer : Except Error Unit) (c : PartCall) :
    s.depot.SameAccounts (s.perform store answer c).2.depot := by
  cases c with
  | closeSource =>
    show s.depot.SameAccounts (s.closeSource answer).2.depot
    rcases s.closeSource_cases answer with ⟨r, c, feed, -, -, heq⟩ | heq <;>
      rw [heq] <;> exact .refl _
  | openDestination => exact Depot.accounts_openPool s.depot
  | closeDestination =>
    show s.depot.SameAccounts s.closeDestination.2.depot
    unfold closeDestination
    split
    · split
      · exact Depot.accounts_closePool s.depot
      · exact .refl _
    · exact Depot.accounts_stopAll s.depot
  | _ => exact .refl _

namespace Told

variable {σ : Type} {s s' : Plant σ} {r : Round} {rest rounds : List Round} {late : Bool}

theorem idle (h : Told s rounds) (hh : s'.hand = s.hand)
    (ha : s.depot.SameAccounts s'.depot) : Told s' rounds where
  fair := h.fair
  past := hh ▸ h.past
  calls := ha.calls.trans h.calls
  sent := ha.sent.trans h.sent
  current := by
    intro hne
    rw [hh] at hne ⊢
    obtain ⟨r, rest, hr, hcurrent⟩ := h.current hne
    refine ⟨r, rest, hr, ?_⟩
    cases hs : s.hand with
    | free => trivial
    | asking ms ears => rwa [hs] at hcurrent
    | sending ms next ears =>
      rw [hs] at hcurrent
      obtain ⟨hbatch, hleft, hgiven, htracked⟩ := hcurrent
      exact ⟨hbatch, hleft, hgiven, by rw [ha.rest, htracked]⟩

/-- The record goes on with the last round. -/
theorem record_of_busy (hne : s.hand ≠ .free) :
    Round.record late s s' (r :: rest) = r.goOn s s' :: rest := by
  unfold Round.record
  split
  · contradiction
  · contradiction
  · rfl

theorem record_of_idle (h : Told s rounds) (hh : s'.hand = s.hand)
    (ha : s.depot.SameAccounts s'.depot) : Round.record late s s' rounds = rounds := by
  by_cases hfree : s.hand = .free
  · simp only [Round.record, hfree, hh]
  · obtain ⟨r, rest, rfl, hcurrent⟩ := h.current hfree
    have hleft : s'.hand.left r.left = r.left := by
      rw [hh]
      cases hs : s.hand with
      | free => rfl
      | asking ms ears =>
        rw [hs] at hcurrent
        exact hcurrent.2.1.symm
      | sending ms next ears =>
        rw [hs] at hcurrent
        exact hcurrent.2.1.symm
    rw [record_of_busy hfree]
    simp only [Round.goOn, ha.calls, ha.sent, List.drop_length, List.append_nil, hleft]

/-- Nothing that concerns the record happens. -/
theorem stay (h : Told s rounds) (hh : s'.hand = s.hand) (ha : s.depot.SameAccounts s'.depot) :
    Told s' (Round.record late s s' rounds) := by
  rw [h.record_of_idle hh ha]
  exact h.idle hh ha

/-- The last round goes on. -/
theorem goOn (h : Told s (r :: rest)) (hne : s.hand ≠ .free) {g : List (List Mutation)}
    {t : List Mutation} (hcalls : s'.depot.calls = s.depot.calls ++ g)
    (hsent : s'.depot.sent = s.depot.sent ++ t) {q : Round}
    (hq : q = { r with
      left := s'.hand.left r.left
      given := r.given ++ g
      tracked := r.tracked ++ t })
    (hfair : q.Fair) (hover : s'.hand = .free → q.Over)
    (hcurrent : q.Current s'.depot.caller s'.hand) :
    Told s' (Round.record late s s' (r :: rest)) := by
  have hgoOn : r.goOn s s' = q := by
    simp only [Round.goOn, hcalls, hsent, List.drop_left, hq]
  have hrest : ∀ r' ∈ rest, r'.Over := by
    have hover := h.past
    cases hs : s.hand with
    | free => contradiction
    | asking ms ears => rwa [hs] at hover
    | sending ms next ears => rwa [hs] at hover
  rw [record_of_busy hne, hgoOn]
  refine ⟨?_, ?_, ?_, ?_, fun _ => ⟨_, _, rfl, hcurrent⟩⟩
  · exact List.forall_mem_cons.2 ⟨hfair, fun r₁ hr₁ => h.fair r₁ (List.mem_cons_of_mem r hr₁)⟩
  · cases hs : s'.hand with
    | free => exact List.forall_mem_cons.2 ⟨hover hs, hrest⟩
    | asking ms ears => exact hrest
    | sending ms next ears => exact hrest
  · rw [hcalls, h.calls, hq]
    simp
  · rw [hsent, h.sent, hq]
    simp

/-! ### What the reading thread does -/

theorem arrive (h : Told s rounds) (store : Store σ) (log : List LogEvent) (a : Arrival)
    (hears : s.source.connection = .reading →
      s.source.listeners.members.count .pipe = if late then 0 else 1) :
    Told (s.step store log (.arrive a))
      (Round.record late s (s.step store log (.arrive a)) rounds) := by
  have hdepot := s.depot_arrive store log a
  -- What comes asks nothing of the listeners, or it is a batch and a round begins.
  rcases s.hand_arrive store log a with hh | ⟨hfree, hread, ms, hasking⟩
  · have hidle : s.depot.SameAccounts (s.step store log (.arrive a)).depot := by
      rw [hdepot]
      exact .refl _
    exact h.stay hh hidle
  · have hover := h.past
    rw [hfree] at hover
    have hrecord : Round.record late s (s.step store log (.arrive a)) rounds =
        ⟨ms, s.source.listeners.members, late, s.source.listeners.members, [], []⟩ :: rounds := by
      simp only [Round.record, hfree, hasking]
    rw [hrecord]
    refine ⟨List.forall_mem_cons.2 ⟨Round.fair_new (hears hread), h.fair⟩, ?_, ?_, ?_, fun _ => ?_⟩
    · rw [hasking]
      exact hover
    · rw [hdepot, h.calls]
      simp
    · rw [hdepot, h.sent]
      simp
    · rw [hasking]
      exact ⟨_, _, rfl, rfl, rfl, fun _ => ⟨rfl, rfl⟩⟩

/-- A listener who is not the pipe answers. -/
theorem hear (h : Told s rounds) {ms : List Mutation} {name : String} {ears : List Ear}
    (hh : s.hand = .asking ms (.other name :: ears)) (v : Verdict) :
    Told (s.hear v ms ears) (Round.record late s (s.hear v ms ears) rounds) := by
  have hne : s.hand ≠ .free := by simp [hh]
  obtain ⟨r, rest, rfl, hcurrent⟩ := h.current hne
  rw [hh] at hcurrent
  obtain ⟨rfl, hleft, hgiven⟩ := hcurrent
  have hfair := h.fair r List.mem_cons_self
  have hcalls : ∀ s' : Plant σ, s'.depot = s.depot → s'.depot.calls = s.depot.calls ++ [] := by
    rintro s' heq
    rw [heq, List.append_nil]
  have hsent : ∀ s' : Plant σ, s'.depot = s.depot → s'.depot.sent = s.depot.sent ++ [] := by
    rintro s' heq
    rw [heq, List.append_nil]
  -- Unless the listener takes the batch, the round is over.
  have hkept : ∀ s' : Plant σ, s'.depot = s.depot → s'.hand = .free →
      Told s' (Round.record late s s' (r :: rest)) := by
    intro s' hdepot hfree
    refine h.goOn hne (hcalls s' hdepot) (hsent s' hdepot) (q := r) ?_ hfair
      (fun _ => hfair.over_of_other hleft) ?_
    · simp only [hfree, Hand.left, List.append_nil]
    · rw [hfree]
      trivial
  cases v with
  | accepted =>
    refine h.goOn hne (hcalls _ rfl) (hsent _ rfl) (q := { r with left := ears }) ?_
      (hfair.pass hleft) (fun hfree => by cases hfree) ?_
    · simp only [Plant.hear, Hand.left, Hand.ears, List.append_nil]
    · exact ⟨rfl, rfl, fun hm => hgiven (List.mem_cons_of_mem _ hm)⟩
  | refused e => exact hkept _ rfl rfl
  | crashed => exact hkept _ rfl rfl

theorem ask (h : Told s rounds) (he : s.Engaged)
    (hclosing : s.hand ≠ .free → s.depot.caller.isClosing = false) (v : Verdict) :
    Told (s.ask v) (Round.record late s (s.ask v) rounds) := by
  cases hh : s.hand with
  | free =>
    have hask : s.ask v = s := by simp only [Plant.ask, hh]
    rw [hask]
    exact h.stay rfl (.refl _)
  | sending ms next ears =>
    have hask : s.ask v = s := by simp only [Plant.ask, hh]
    rw [hask]
    exact h.stay rfl (.refl _)
  | asking ms ears =>
    have hne : s.hand ≠ .free := by simp [hh]
    obtain ⟨r, rest, rfl, hcurrent⟩ := h.current hne
    rw [hh] at hcurrent
    obtain ⟨rfl, hleft, hgiven⟩ := hcurrent
    have hfair := h.fair r List.mem_cons_self
    cases ears with
    | nil =>
      have hask : s.ask v = { s with hand := .free } := by simp only [Plant.ask, hh]
      rw [hask]
      refine h.goOn hne (g := []) (t := []) (by simp) (by simp) (q := r) ?_ hfair ?_
        trivial
      · simp only [Hand.left, List.append_nil]
      · -- Everybody took the batch, and so did the pipe if it was asked.
        intro _ hm hg
        have hwhole := (hfair.whole hm (by simp [hleft])).1
        rw [hg] at hwhole
        cases hwhole
    | cons l ears =>
      cases l with
      | other name =>
        have hask : s.ask v = s.hear v r.batch ears := by simp only [Plant.ask, hh]
        rw [hask]
        exact h.hear hh v
      | pipe =>
        -- The pipe is asked for the first time, so nothing of the batch was given yet.
        obtain ⟨hnone, htracked⟩ := hgiven List.mem_cons_self
        have hcalling := he.calling
        rw [hh] at hcalling
        obtain ⟨res, hres⟩ := Caller.exists_done hcalling (hclosing hne)
        rw [Plant.ask_pipe hh v]
        simp only [Depot.step, hres]
        refine h.goOn hne (g := [r.batch]) (t := []) rfl (by simp)
          (q := { r with given := [r.batch] }) ?_ (hfair.give hleft rfl (by simp [htracked]))
          (fun hfree => by cases hfree) ?_
        · simp only [Hand.left, Hand.ears, hleft, hnone, htracked, List.nil_append]
        · exact ⟨rfl, hleft, rfl, by simp [htracked, Caller.rest]⟩

theorem offer (h : Told s rounds) (he : s.Engaged) :
    Told s.offer (Round.record late s s.offer rounds) := by
  cases hh : s.hand with
  | free =>
    have hoffer : s.offer = s := by simp only [Plant.offer, hh]
    rw [hoffer]
    exact h.stay rfl (.refl _)
  | asking ms ears =>
    have hoffer : s.offer = s := by simp only [Plant.offer, hh]
    rw [hoffer]
    exact h.stay rfl (.refl _)
  | sending ms next ears =>
    obtain ⟨hsending, rfl⟩ := he.sending hh
    have hne : s.hand ≠ .free := by simp [hh]
    have hnodup := he.nodup
    obtain ⟨r, rest, rfl, hcurrent⟩ := h.current hne
    rw [hh] at hcurrent hnodup
    obtain ⟨rfl, hleft, hgiven, htracked⟩ := hcurrent
    have hears : .pipe ∉ ears := (List.nodup_cons.1 hnodup).1
    have hfair := h.fair r List.mem_cons_self
    obtain ⟨hcalls, new, hsent, hprefix, hrest⟩ := s.depot.accounts_proceed
    have hcalls : s.depot.proceed.calls = s.depot.calls ++ [] := by rw [hcalls, List.append_nil]
    have htaken : r.tracked ++ new <+: r.batch := by
      rw [← htracked, List.prefix_append_right_inj]
      exact (List.prefix_append _ _).trans hprefix
    -- The call goes on, it comes back, or it fails. All of the batch is tracked when it comes back.
    rcases s.depot.proceed_cases hsending with ⟨hgo, -⟩ | ⟨hdone, hnil⟩ | ⟨e, herror⟩
    · have hgoing : ∀ res, (s.depot.step .proceed).caller ≠ .done res :=
        Caller.not_done_of_sending hgo
      rw [Plant.offer_of_going hh hgoing]
      refine h.goOn hne hcalls hsent (q := { r with tracked := r.tracked ++ new }) ?_
        (hfair.give hleft hgiven htaken) (fun hfree => absurd hfree hne) ?_
      · simp only [hh, Hand.left, Hand.ears, hleft, List.append_nil]
      · rw [hh]
        refine ⟨rfl, hleft, hgiven, ?_⟩
        show r.tracked ++ new ++ s.depot.proceed.caller.rest = r.batch
        rw [List.append_assoc, hrest fun e => hgoing _, htracked]
    · have hall : r.tracked = r.batch := by rw [← htracked, hnil, List.append_nil]
      obtain rfl : new = [] := by
        have hnew := hprefix
        rw [hnil] at hnew
        exact (List.append_eq_nil_iff.1 (List.prefix_nil.1 hnew)).1
      rw [Plant.offer_of_sent hh hdone]
      refine h.goOn hne hcalls hsent (q := { r with left := ears }) ?_ ?_
        (fun hfree => by cases hfree) ?_
      · simp only [Plant.hear, Hand.left, Hand.ears, List.append_nil]
      · exact ⟨hfair.asks, (List.suffix_cons _ ears).trans (hleft ▸ hfair.left), hfair.once,
          fun _ _ => ⟨hgiven, hall⟩, hfair.spared⟩
      · exact ⟨rfl, rfl, fun hm => absurd hm hears⟩
    · rw [Plant.offer_of_failed hh herror]
      refine h.goOn hne hcalls hsent (q := { r with tracked := r.tracked ++ new }) ?_
        (hfair.give hleft hgiven htaken) (fun _ => Round.over_of_given (by simp [hgiven])) trivial
      simp only [Plant.hear, Plant.fail, Hand.left, List.append_nil]

/-- What comes without a call keeps the record. -/
theorem step (h : Told s rounds) (he : s.Engaged)
    (hclosing : s.hand ≠ .free → s.depot.caller.isClosing = false)
    (hears : s.source.connection = .reading →
      s.source.listeners.members.count .pipe = if late then 0 else 1)
    (store : Store σ) (log : List LogEvent) {m : Plant.Move} (hm : m.isFree = true) :
    Told (s.step store log m) (Round.record late s (s.step store log m) rounds) := by
  cases m with
  | arrive a => exact h.arrive store log a hears
  | ask v => exact h.ask he hclosing v
  | offer => exact h.offer he
  | work m =>
    have hhand : (s.step store log (.work m)).hand = s.hand := by
      simp only [Plant.step]
      split <;> rfl
    have hidle : s.depot.SameAccounts (s.step store log (.work m)).depot := by
      simp only [Plant.step]
      split
      · rename_i hw
        exact Depot.accounts_of_isWork hw s.depot
      · exact .refl _
    exact h.stay hhand hidle
  | _ => cases hm

end Told

end ChangeFeed
