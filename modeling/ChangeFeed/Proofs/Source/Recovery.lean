import ChangeFeed.Proofs.Source.Copies

/-!
# Going back after lost positions

A source whose position the server has lost goes back in its history when it is opened the next
time. Here its progress is in memory.

**Where an attempt begins** (`Source.asked`). Where the client is told to connect when the source is
opened. An attempt that comes after failures drops as many points from the history as failures were
counted (`Source.cutBack`), the others begin at what is stored.

**Opened again.** The count of failures outlives the attempt that went back for them, and only a
checkpoint clears it. So an attempt that does not fail is not enough to stay where it began.

**Attempt after attempt** (`Source.attempts`). From the second of them on, the history gets shorter
with every attempt that fails, until the initial point is all there is.

Main results: `begins_again_in_place_iff` and `goes_back_to_start`.
-/

namespace ChangeFeed

variable {ι σ ω : Type}

/-- The client that also notes where it is told to connect. -/
def LogClient.noting (client : LogClient ω) : LogClient (List LogPosition × ω) :=
  { client.aside with
    connect := fun p x => ((client.connect p x.2).1, (x.1 ++ [p], (client.connect p x.2).2)) }

namespace Source

/-! ## Calls that save nothing -/

/-- Does the call neither open the source nor bring a mutation that has a position to a checkpoint?
-/
def Call.savesNothing : Call ι → Bool
  | .openFeed | .checkpoint (some (.row _)) => false
  | _ => true

theorem failures_le_countFailure (e : Error) (s : Source ι σ) :
    s.failures ≤ (s.countFailure e).failures := by
  unfold countFailure
  split
  · exact Nat.le_succ _
  · exact Nat.le_refl _

/-- A turn of the reading thread does not clear the count of failures. -/
theorem failures_le_step (client : LogClient ω) (audience : SourceAudience ι ω) (s : Source ι σ)
    (w : ω) : s.failures ≤ (s.step client audience w).1.failures := by
  have hstop (e : Error) (s : Source ι σ) (w : ω) :
      s.failures ≤ (s.stopOn client audience e w).1.failures := failures_le_countFailure e s
  have hhand (g : Reading) (s : Source ι σ) (w : ω) :
      s.failures ≤ (hand client audience g s w).1.failures := by
    unfold hand
    split
    · exact Nat.le_refl _
    · simp only
      split
      · exact hstop _ s _
      · exact Nat.le_refl _
      · split
        · exact Nat.le_refl _
        · exact hstop _ s _
        · exact Nat.le_refl _
  unfold step
  split
  · split
    · exact Nat.le_refl _
    · exact hstop _ s _
    · exact Nat.le_refl _
    · exact hhand _ (s.heed _).2 _
  · exact Nat.le_refl _

section Quiet

variable [DecidableEq ι]

/-- A call that saves nothing keeps the progress and does not clear the count of failures. -/
theorem keeps_of_savesNothing (client : LogClient ω) (audience : SourceAudience ι ω)
    (keeper : Store σ) {c : Call ι} (hc : c.savesNothing = true) (x : Source ι σ × ω) :
    SameProgress x.1 (perform client audience keeper c x).2.1 ∧
      x.1.failures ≤ (perform client audience keeper c x).2.1.failures := by
  cases c with
  | openFeed => cases hc
  | closeFeed =>
    refine ⟨(sameProgress_closeFeed client x.1 x.2).1, ?_⟩
    show x.1.failures ≤ (x.1.closeFeed client x.2).2.1.failures
    unfold closeFeed
    split <;> exact Nat.le_refl _
  | checkpoint m? =>
    cases m? with
    | none => exact ⟨.refl x.1, Nat.le_refl _⟩
    | some m =>
      cases m with
      | raw m => exact ⟨.refl x.1, Nat.le_refl _⟩
      | row m => cases hc
  | turn => exact ⟨(sameProgress_step client audience x.1 x.2).1, failures_le_step _ _ _ _⟩
  | addListener l => exact ⟨⟨rfl, rfl, rfl, rfl, rfl⟩, Nat.le_refl _⟩
  | removeListener l => exact ⟨⟨rfl, rfl, rfl, rfl, rfl⟩, Nat.le_refl _⟩

theorem keeps_after (client : LogClient ω) (audience : SourceAudience ι ω) (keeper : Store σ)
    {cs : List (Call ι)} (hcs : ∀ c ∈ cs, c.savesNothing = true) (x : Source ι σ × ω) :
    SameProgress x.1 (after client audience keeper cs x).1 ∧
      x.1.failures ≤ (after client audience keeper cs x).1.failures := by
  induction cs generalizing x with
  | nil => exact ⟨.refl x.1, Nat.le_refl _⟩
  | cons c cs ih =>
    obtain ⟨hp, hle⟩ := keeps_of_savesNothing client audience keeper
      (hcs c List.mem_cons_self) x
    obtain ⟨hp', hle'⟩ := ih (fun d hd => hcs d (List.mem_cons_of_mem _ hd))
      (perform client audience keeper c x).2
    exact ⟨hp.trans hp', Nat.le_trans hle hle'⟩

end Quiet

/-! ## Where an attempt begins -/

/-- Where the client is told to connect when the source is opened. -/
def asked (client : LogClient ω) (keeper : Store σ) (s : Source ι σ) (w : ω) : List LogPosition :=
  (s.openFeed client.noting keeper ([], w)).2.2.1

section Start

variable {keeper : Store σ} {s s₁ : Source ι σ} {p : ResumePoint}

theorem asked_of_start (client : LogClient ω) (hs : s.isAtRest = true)
    (hstart : startPoint keeper { s with connection := .idle } = (.ok p, s₁)) (w : ω) :
    s.asked client keeper w = [p.position] := by
  have hnoted (r : Except Error Unit) (x : List LogPosition × ω)
      (h : client.noting.connect p.position ([], w) = (r, x)) : x.1 = [p.position] := by
    cases h
    rfl
  rw [asked]
  rcases openFeed_of_start client.noting hs hstart ([], w) with
    ⟨e, x, hconnect, hopen⟩ | ⟨x, hconnect, hopen⟩
  · rw [hopen]
    exact hnoted _ x hconnect
  · rw [hopen]
    exact hnoted _ x hconnect

end Start

/-! ## How far an attempt goes back -/

section Memory

variable {plan : SourcePlan} {s : Source ι Memory}

/-- What is left of the history when the source goes back, or the initial point if nothing is. -/
def cutBack (s : Source ι σ) : History :=
  if s.history.size ≤ s.failures then { s.history with points := [s.initialPoint] }
  else s.backHistory

/-- If fewer failures were counted than there are points, the source goes back to a point of its
history. -/
theorem backPoint_of_lt {s : Source ι σ} (h : s.failures < s.history.size) :
    s.history.points[s.history.size - s.failures - 1]? = some s.backPoint ∧
      s.backHistory.last? = some s.backPoint := by
  have hleft : s.history.size - s.failures ≠ 0 := by omega
  have hlt : s.history.size - s.failures - 1 < s.history.points.length := by
    rw [History.size] at h ⊢
    omega
  obtain ⟨p, hp⟩ : ∃ p, s.history.points[s.history.size - s.failures - 1]? = some p :=
    ⟨_, List.getElem?_eq_getElem hlt⟩
  have htop : s.backHistory.last? = some p := by
    show (s.history.points.take (s.history.size - s.failures)).getLast? = some p
    rw [List.getLast?_take, if_neg hleft, hp]
    rfl
  have hback : s.backPoint = p := by
    rw [backPoint, htop]
    rfl
  rw [hback]
  exact ⟨hp, htop⟩

/-- If as many failures were counted as there are points, the source goes back to the start. -/
theorem backPoint_of_le {s : Source ι σ} (h : s.history.size ≤ s.failures) :
    s.backHistory.points = [] ∧ s.backPoint = s.initialPoint := by
  have hnone : s.backHistory.points = [] := by
    show s.history.points.take (s.history.size - s.failures) = []
    rw [Nat.sub_eq_zero_of_le h, List.take_zero]
  refine ⟨hnone, ?_⟩
  rw [backPoint, History.last?, hnone]
  rfl

/-- A source that goes back to the start remembers the initial point. -/
theorem remember_backPoint {s : Source ι σ} (hcapacity : 1 ≤ s.history.capacity)
    (h : s.history.size ≤ s.failures) : s.backHistory.remember s.backPoint = s.cutBack := by
  obtain ⟨hnone, hpoint⟩ := backPoint_of_le h
  have hone : History.newest s.history.capacity ([] ++ [s.initialPoint]) = [s.initialPoint] :=
    History.newest_of_length_le hcapacity
  rw [cutBack, if_pos h, hpoint, History.remember, hnone]
  exact congrArg (fun ps => { s.history with points := ps }) hone

/-- Going back changes the history, unless it has nothing but the initial point. -/
theorem cutBack_eq_iff {s : Source ι σ} (hf : s.failures ≠ 0) :
    s.cutBack = s.history ↔ s.history.points = [s.initialPoint] := by
  unfold cutBack
  constructor
  · intro hcut
    split at hcut
    · exact (congrArg History.points hcut).symm
    · rename_i hsize
      have hpoints : s.history.points.take (s.history.size - s.failures) = s.history.points :=
        congrArg History.points hcut
      have hlen := congrArg List.length hpoints
      rw [List.length_take, History.size] at hlen
      rw [History.size] at hsize
      omega
  · intro honly
    have hsize : s.history.size ≤ s.failures := by
      rw [History.size, honly, List.length_singleton]
      omega
    rw [if_pos hsize, ← honly]

/-- An attempt after failures goes back, and stores where it begins. -/
theorem startPoint_of_failures (h : Kept plan s) (hf : s.failures ≠ 0) :
    s.startPoint .memory = (.ok s.backPoint,
      { s with history := s.cutBack, stored := ⟨some s.backPoint, s.cutBack.points⟩ }) := by
  -- What is stored when the points are dropped; nothing is saved if there are none.
  let kept : Memory := if s.history.size = 0 then s.stored
    else { s.stored with history := s.backHistory.points }
  have hdrop (h0 : s.history.size ≠ 0) :
      Store.memory.saveHistory s.backHistory.points s.stored = (.ok (), kept) := by
    simp only [kept, if_neg h0]
    rfl
  have hback := rollBack_of_saved hf (fun h0 => if_pos h0) hdrop
    (show Store.memory.savePoint s.backPoint kept = (.ok (), ⟨some s.backPoint, kept.history⟩)
      from rfl)
  have hfirst : (if s.failures = 0 then
      ((Store.memory.readPoint s.stored).map fun p => p.getD s.initialPoint, s)
      else s.rollBack .memory) = (.ok s.backPoint,
        { s with history := s.backHistory, stored := ⟨some s.backPoint, kept.history⟩ }) := by
    rw [if_neg hf, hback]
  have hstart := startPoint_of_saved hfirst fun _ => rfl
  rw [hstart]
  -- Unless the history is used up, the point that the attempt begins at is on top of it already.
  by_cases hsize : s.history.size ≤ s.failures
  · obtain ⟨hnone, -⟩ := backPoint_of_le hsize
    have htop : s.backHistory.last? ≠ some s.backPoint := by
      rw [History.last?, hnone]
      exact (Option.some_ne_none s.backPoint).symm
    have hcapacity : 1 ≤ s.history.capacity := by
      have := h.capacity
      omega
    rw [if_neg htop, remember_backPoint hcapacity hsize]
  · have hlt : s.failures < s.history.size := Nat.not_le.1 hsize
    have hsome : s.history.size ≠ 0 := by omega
    have hkept : kept.history = s.backHistory.points := by
      simp only [kept, if_neg hsome]
    have hcut : s.cutBack = s.backHistory := if_neg hsize
    rw [if_pos (backPoint_of_lt hlt).2, hcut, hkept]

/-- An attempt begins at what is stored, if no failure was counted and that is on top of the
history. -/
theorem startPoint_of_onTop (hf : s.failures = 0) (h : OnTop s) :
    s.startPoint .memory = (.ok (s.stored.point.getD s.initialPoint), s) := by
  rw [OnTop] at h
  rw [startPoint_of_read hf (show Store.memory.readPoint s.stored = .ok s.stored.point from rfl)
    fun _ => rfl, if_pos h]

/-- If no failure was counted, at most one point is added to the history. -/
theorem size_startPoint_le (hf : s.failures = 0) :
    (s.startPoint .memory).2.history.size ≤ s.history.size + 1 := by
  rw [startPoint_of_read hf (show Store.memory.readPoint s.stored = .ok s.stored.point from rfl)
    fun _ => rfl]
  split
  · exact Nat.le_succ _
  · exact History.size_remember_le_succ _ _

/-- What opening a source at rest does, if the attempt begins at a point. -/
structure Resumes (plan : SourcePlan) (s : Source ι Memory) (p : ResumePoint)
    (s' : Source ι Memory) : Prop where
  kept : Kept plan s'
  onTop : OnTop s'
  point : s'.stored.point.getD s'.initialPoint = p
  /-- If no failure was counted, the history is as it was or has one more point. -/
  size_le : s.failures = 0 → s'.history.size ≤ s.history.size + 1
  /-- If failures were counted, the source went back. -/
  back : s.failures ≠ 0 →
    p = s.backPoint ∧ s'.history = s.cutBack ∧ s'.stored = ⟨some p, s.cutBack.points⟩

theorem Resumes.top {p : ResumePoint} {s' : Source ι Memory} (h : Resumes plan s p s') :
    s'.history.last? = some p :=
  h.point ▸ h.onTop

/-- Opening a source at rest begins an attempt at some point, whatever the client answers. -/
theorem resumes_openFeed (client : LogClient ω) (h : Kept plan s) (hs : s.isAtRest = true)
    (w : ω) : ∃ p, s.asked client .memory w = [p.position] ∧
      Resumes plan s p (s.openFeed client .memory w).2.1 := by
  have hidle : Kept plan { s with connection := .idle } := ⟨h.initialPosition, h.reloads⟩
  obtain ⟨p, s₁, hstart, hk, hp, htop⟩ := kept_startPoint hidle
  obtain ⟨hhistory, hstored, hinitial⟩ := progress_of_start client hs hstart w
  have hpoint : (s.openFeed client .memory w).2.1.stored.point.getD
      (s.openFeed client .memory w).2.1.initialPoint = p := by
    rw [hstored, initialPoint, hinitial]
    exact hp
  refine ⟨p, asked_of_start client hs hstart w, ⟨hinitial.trans hk.initialPosition, ?_⟩, ?_,
    hpoint, fun hf => ?_, fun hf => ?_⟩
  · rw [hstored, hhistory]
    exact hk.reloads
  · rw [OnTop, hhistory, hpoint]
    exact htop
  · have hsize := size_startPoint_le (s := { s with connection := .idle }) hf
    rw [hstart] at hsize
    rw [hhistory]
    exact hsize
  · have hback := startPoint_of_failures hidle hf
    rw [hback] at hstart
    obtain ⟨hpoint, rfl⟩ := Prod.mk.inj hstart
    obtain rfl := Except.ok.inj hpoint
    rw [hhistory, hstored]
    exact ⟨rfl, rfl, rfl⟩

/-- A source that has what is stored on top of its history and counted no failure leaves everything
as it is when it is opened. -/
theorem openFeed_of_onTop (client : LogClient ω) (hs : s.isAtRest = true) (hf : s.failures = 0)
    (h : OnTop s) (w : ω) :
    s.asked client .memory w = [(s.stored.point.getD s.initialPoint).position] ∧
      (s.openFeed client .memory w).2.1.history = s.history ∧
      (s.openFeed client .memory w).2.1.stored = s.stored := by
  have hstart := startPoint_of_onTop (s := { s with connection := .idle }) hf h
  obtain ⟨hhistory, hstored, -⟩ := progress_of_start client hs hstart w
  exact ⟨asked_of_start client hs hstart w, hhistory, hstored⟩

/-- A source that has nothing but the initial point to go back to begins there again. -/
theorem openFeed_of_only_initial (client : LogClient ω) (h : Kept plan s) (hs : s.isAtRest = true)
    (hf : s.failures ≠ 0) (honly : s.history.points = [s.initialPoint]) (w : ω) :
    s.asked client .memory w = [s.initialPoint.position] ∧
      (s.openFeed client .memory w).2.1.history = s.history ∧
      (s.openFeed client .memory w).2.1.stored = ⟨some s.initialPoint, s.history.points⟩ := by
  obtain ⟨p, hasked, hresumes⟩ := resumes_openFeed client h hs w
  obtain ⟨hp, hhistory, hstored⟩ := hresumes.back hf
  have hsize : s.history.size ≤ s.failures := by
    rw [History.size, honly, List.length_singleton]
    omega
  rw [(backPoint_of_le hsize).2] at hp
  rw [(cutBack_eq_iff hf).2 honly] at hhistory hstored
  exact ⟨hp ▸ hasked, hhistory, hp ▸ hstored⟩

/-! ## Opened again -/

variable [DecidableEq ι] (client : LogClient ω) (audience : SourceAudience ι ω)

/-- Whatever happened to a source that was built from a plan, its history is what it would be loaded
as again. -/
theorem kept_after {stored : Memory} (hbuild : plan.build .memory stored = .ok s)
    (cs : List (Call ι)) (w : ω) : Kept plan (after client audience .memory cs (s, w)).1 := by
  have hidle : s.isStarted = true → Agrees s := by
    obtain ⟨-, -, -, -, hidle⟩ := SourcePlan.build_eq_ok hbuild
    simp [isStarted, hidle]
  exact (agrees_after client audience cs (x := (s, w)) (kept_build hbuild) hidle).1

/-- **When a source that is opened again begins where it did.** A source was built from a plan, and
after any calls it is opened. The attempt ends without a failure for a lost position, so the count
of failures is what it was, and no checkpoint is made. When the source is opened again, the client
is told to connect where it was told to before, and what the source remembers and has stored stays
as it is, if and only if no failure from before is still counted, or the history has nothing but the
initial point to go back to. -/
theorem begins_again_in_place_iff {stored : Memory} (hbuild : plan.build .memory stored = .ok s)
    (w : ω) (earlier between : List (Call ι)) (hbetween : ∀ c ∈ between, c.savesNothing = true) :
    let x := after client audience .memory earlier (s, w)
    let y := after client audience .memory (.openFeed :: between) x
    let again := (y.1.openFeed client .memory y.2).2.1
    x.1.isAtRest = true → y.1.isAtRest = true → y.1.failures = x.1.failures →
      ((y.1.asked client .memory y.2 = x.1.asked client .memory x.2 ∧
          again.history = y.1.history ∧ again.stored = y.1.stored) ↔
        y.1.failures = 0 ∨ y.1.history.points = [.initial plan.startPosition]) := by
  intro x y again hx hy hfailures
  have hkept : Kept plan x.1 := kept_after client audience hbuild earlier w
  obtain ⟨p, hasked, hfirst⟩ := resumes_openFeed client hkept hx x.2
  have hsame : SameProgress (x.1.openFeed client .memory x.2).2.1 y.1 :=
    (keeps_after client audience .memory hbetween _).1
  -- What the attempt did is still so when the source is opened again.
  have hy₁ : Kept plan y.1 := hfirst.kept.of_sameProgress hsame
  have honTop : OnTop y.1 := hfirst.onTop.of_sameProgress hsame
  have hinitial : y.1.initialPoint = .initial plan.startPosition :=
    congrArg ResumePoint.initial hy₁.initialPosition
  have hpoint : y.1.stored.point.getD y.1.initialPoint = p := by
    rw [hsame.stored, initialPoint, hsame.initialPosition]
    exact hfirst.point
  rw [hasked]
  by_cases hf : y.1.failures = 0
  · obtain ⟨hagain, hhistory, hstored⟩ := openFeed_of_onTop client hy hf honTop y.2
    rw [hpoint] at hagain
    exact ⟨fun _ => Or.inl hf, fun _ => ⟨hagain, hhistory, hstored⟩⟩
  · obtain ⟨-, hhistory, hstored⟩ := hfirst.back (hfailures ▸ hf)
    rw [or_iff_right hf, ← hinitial]
    constructor
    · rintro ⟨-, hkeeps, -⟩
      -- The second opening goes back too, and cuts the history unless that is the start alone.
      obtain ⟨q, -, hsecond⟩ := resumes_openFeed client hy₁ hy y.2
      obtain ⟨-, hcut, -⟩ := hsecond.back hf
      exact (cutBack_eq_iff hf).1 (hcut.symm.trans hkeeps)
    · intro honly
      obtain ⟨hagain, hhistory', hstored'⟩ := openFeed_of_only_initial client hy₁ hy hf honly y.2
      have hp : p = y.1.initialPoint := by
        rw [OnTop, hpoint, History.last?, honly] at honTop
        exact (Option.some.inj honTop).symm
      refine ⟨by rw [hagain, hp], hhistory', ?_⟩
      rw [hstored', hsame.stored, hstored, ← hhistory, hsame.history, hp]

/-- The server loses a position, the source goes back and makes a checkpoint. It is opened twice
after that. -/
theorem begins_again_in_place_cleared :
    let client : LogClient Nat :=
      ⟨fun _ n => (if n = 1 then .error (.lostPosition "gone") else .ok (), n + 1),
        fun n => (.nothing, n), id⟩
    let audience : SourceAudience Unit Nat :=
      ⟨fun _ _ w => w, fun _ _ w => (.accepted, w), fun _ _ w => w⟩
    let plan : SourcePlan := { name := "shop" }
    let place (n : UInt64) : LogPosition := .plain "bin.000001" n n
    let m (n : UInt64) : RowMutation :=
      .delete ⟨⟨n.toInt64, 0⟩, default, place n, default, 1, none, 0⟩ default
    let checkpoint (n : UInt64) : Call Unit := .checkpoint (some (.row (m n)))
    let earlier := [.openFeed, checkpoint 10, checkpoint 20, .closeFeed, .openFeed, .openFeed,
      checkpoint 30, .closeFeed]
    let between := [.turn, .checkpoint none, .closeFeed]
    ∃ s : Source Unit Memory, plan.build .memory .empty = .ok s ∧
      let x := after client audience .memory earlier (s, 0)
      let y := after client audience .memory (.openFeed :: between) x
      let again := (y.1.openFeed client .memory y.2).2.1
      x.1.asked client .memory x.2 = [place 30] ∧
        y.1.asked client .memory y.2 = x.1.asked client .memory x.2 ∧
        again.history = y.1.history ∧ again.stored = y.1.stored := by
  intro client audience plan place m checkpoint earlier between
  refine ⟨_, rfl, by decide, ?_⟩
  exact (begins_again_in_place_iff client audience
    (show plan.build .memory .empty = .ok _ from rfl) 0 earlier between (by decide) (by decide)
    (by decide) (by decide)).2 (Or.inl (by decide))

/-- The server loses the last of three points. The source goes back to the second one, which the
server has, and is closed without a checkpoint. When it is opened again it goes back once more. -/
theorem goes_back_without_new_failure :
    let client : LogClient Nat :=
      ⟨fun _ n => (if n = 1 then .error (.lostPosition "gone") else .ok (), n + 1),
        fun n => (.nothing, n), id⟩
    let audience : SourceAudience Unit Nat :=
      ⟨fun _ _ w => w, fun _ _ w => (.accepted, w), fun _ _ w => w⟩
    let plan : SourcePlan := { name := "shop" }
    let place (n : UInt64) : LogPosition := .plain "bin.000001" n n
    let m (n : UInt64) : RowMutation :=
      .delete ⟨⟨n.toInt64, 0⟩, default, place n, default, 1, none, 0⟩ default
    let checkpoint (n : UInt64) : Call Unit := .checkpoint (some (.row (m n)))
    let earlier := [.openFeed, checkpoint 200, checkpoint 300, .closeFeed, .openFeed]
    ∃ s : Source Unit Memory, plan.build .memory .empty = .ok s ∧
      let x := after client audience .memory earlier (s, 0)
      let y := after client audience .memory [.openFeed, .closeFeed] x
      let again := (y.1.openFeed client .memory y.2).2.1
      x.1.isAtRest = true ∧ (x.1.openFeed client .memory x.2).1 = .ok () ∧
        y.1.isAtRest = true ∧ y.1.failures = x.1.failures ∧
        x.1.asked client .memory x.2 = [place 200] ∧
        y.1.asked client .memory y.2 = [plan.startPosition] ∧
        y.1.history.points = [.initial plan.startPosition, .after (m 200)] ∧
        again.history.points = [.initial plan.startPosition] ∧
        y.1.stored.point = some (.after (m 200)) ∧
        again.stored.point = some (.initial plan.startPosition) := by
  intro client audience plan place m checkpoint earlier
  exact ⟨_, rfl, by decide, by decide, by decide, by decide, by decide, by decide, by decide,
    by decide, by decide, by decide⟩

/-! ## Attempt after attempt -/

omit [DecidableEq ι] in
/-- A source whose opening fails for a lost position was at rest, and counts the failure. -/
theorem failures_of_lost (h : Kept plan s) {w : ω} {e : Error}
    (he : (s.openFeed client .memory w).1 = .error e) (hlost : e.isLostPosition = true) :
    s.isAtRest = true ∧ (s.openFeed client .memory w).2.1.failures = s.failures + 1 := by
  have hidle : Kept plan { s with connection := .idle } := ⟨h.initialPosition, h.reloads⟩
  obtain ⟨p, s₁, hstart, -⟩ := kept_startPoint hidle
  obtain ⟨g, t, hs₁⟩ := startPoint_eq .memory { s with connection := .idle }
  rw [hstart] at hs₁
  obtain rfl : s₁ = _ := hs₁
  rcases hx : s.openFeed client .memory w with ⟨r, s', w'⟩
  rw [hx] at he
  cases hx ▸ opened_openFeed client .memory s w with
  | going hs => cases he
  | stranded hs =>
    -- The client is in use, which is no lost position.
    rw [openFeed, hs] at hx
    cases hx
    cases he
    cases hlost
  | unprepared _ hstart' => cases hstart.symm.trans hstart'
  | refused hs hstart' _ =>
    cases hstart.symm.trans hstart'
    cases he
    exact ⟨hs, by simp only [countFailure, if_pos hlost]⟩
  | begun _ hstart' _ => cases he

omit [DecidableEq ι] in
/-- An attempt that comes after failures begins at the initial point, or further back in a history
that ends there then. -/
theorem Resumes.further_back {p : ResumePoint} {s' : Source ι Memory} (h : Resumes plan s p s')
    (hf : s.failures ≠ 0) : s'.stored.point = some p ∧
      ((p = s.initialPoint ∧ s'.history.points = [p]) ∨
        ∃ j, j + 1 < s.history.size ∧ s.history.points[j]? = some p ∧
          s'.history.points = s.history.points.take (j + 1)) := by
  obtain ⟨hp, hhistory, hstored⟩ := h.back hf
  refine ⟨congrArg Memory.point hstored, ?_⟩
  rw [hhistory, cutBack]
  by_cases hsize : s.history.size ≤ s.failures
  · have hstart := (backPoint_of_le hsize).2
    rw [if_pos hsize, hp, hstart]
    exact Or.inl ⟨rfl, rfl⟩
  · have hlt : s.failures < s.history.size := Nat.not_le.1 hsize
    have hcut : s.history.size - s.failures - 1 + 1 = s.history.size - s.failures := by omega
    rw [if_neg hsize]
    refine Or.inr ⟨s.history.size - s.failures - 1, by omega, ?_, ?_⟩
    · rw [hp]
      exact (backPoint_of_lt hlt).1
    · rw [hcut]
      rfl

omit [DecidableEq ι] in
theorem Resumes.size_further_back {p : ResumePoint} {s' : Source ι Memory}
    (h : Resumes plan s p s') (hf : s.failures ≠ 0) :
    s'.history.size ≤ max 1 (s.history.size - 1) := by
  obtain ⟨-, ⟨-, hpoints⟩ | ⟨j, hj, -, hpoints⟩⟩ := h.further_back hf
  · rw [History.size, hpoints]
    exact Nat.le_max_left _ _
  · rw [History.size, hpoints, List.length_take]
    omega

/-- A source and its world after some attempts, with other calls before each of them. -/
def attempts (client : LogClient ω) (audience : SourceAudience ι ω) (keeper : Store σ)
    (gaps : Nat → List (Call ι)) (x : Source ι σ × ω) : Nat → Source ι σ × ω
  | 0 => x
  | k + 1 => (perform client audience keeper .openFeed
      (after client audience keeper (gaps k) (attempts client audience keeper gaps x k))).2

section Attempts

variable {x : Source ι Memory × ω} {gaps : Nat → List (Call ι)} {n : Nat}

/-- The source and its world when the attempt after `k` others begins. -/
def ready (client : LogClient ω) (audience : SourceAudience ι ω) (keeper : Store σ)
    (gaps : Nat → List (Call ι)) (x : Source ι σ × ω) (k : Nat) : Source ι σ × ω :=
  after client audience keeper (gaps k) (attempts client audience keeper gaps x k)

/-- One more attempt that fails for a lost position, after calls that save nothing. -/
theorem resumes_of_lost (hgaps : ∀ k, ∀ c ∈ gaps k, c.savesNothing = true) {k : Nat}
    (hk : Kept plan (attempts client audience .memory gaps x k).1) {e : Error}
    (he : (perform client audience .memory .openFeed
      (ready client audience .memory gaps x k)).1 = .error e) (hlost : e.isLostPosition = true) :
    let before := ready client audience .memory gaps x k
    SameProgress (attempts client audience .memory gaps x k).1 before.1 ∧
      (attempts client audience .memory gaps x k).1.failures ≤ before.1.failures ∧
      (attempts client audience .memory gaps x (k + 1)).1.failures = before.1.failures + 1 ∧
      ∃ p, before.1.asked client .memory before.2 = [p.position] ∧
        Resumes plan before.1 p (attempts client audience .memory gaps x (k + 1)).1 := by
  intro before
  obtain ⟨hsame, hle⟩ := keeps_after client audience .memory (hgaps k)
    (attempts client audience .memory gaps x k)
  have hready : Kept plan before.1 := hk.of_sameProgress hsame
  obtain ⟨hrest, hcount⟩ := failures_of_lost client hready he hlost
  exact ⟨hsame, hle, hcount, resumes_openFeed client hready hrest before.2⟩

/-- While attempts fail for lost positions, each of them but the first one finds a shorter history,
until one point is left. -/
theorem size_attempts_le (hgaps : ∀ k, ∀ c ∈ gaps k, c.savesNothing = true)
    (hx : Kept plan x.1) {k : Nat}
    (hlost : ∀ i < k, ∃ e, (perform client audience .memory .openFeed
      (ready client audience .memory gaps x i)).1 = .error e ∧ e.isLostPosition = true) :
    Kept plan (attempts client audience .memory gaps x k).1 ∧
      (k ≠ 0 → (attempts client audience .memory gaps x k).1.failures ≠ 0 ∧
        (attempts client audience .memory gaps x k).1.history.size ≤
          max 1 (x.1.history.size + 2 - k)) := by
  induction k with
  | zero => exact ⟨hx, fun h => absurd rfl h⟩
  | succ k ih =>
    obtain ⟨hk, hsize⟩ := ih fun i hi => hlost i (Nat.lt_succ_of_lt hi)
    obtain ⟨e, he, helost⟩ := hlost k (Nat.lt_succ_self k)
    obtain ⟨hsame, hle, hcount, p, -, hresumes⟩ :=
      resumes_of_lost client audience hgaps hk he helost
    have hbefore : (ready client audience .memory gaps x k).1.history.size =
        (attempts client audience .memory gaps x k).1.history.size :=
      congrArg History.size hsame.history
    refine ⟨hresumes.kept, fun _ => ⟨by omega, ?_⟩⟩
    -- The first attempt may add a point, or go back. The others go back, as a failure is counted.
    by_cases hfirst : k = 0
    · subst hfirst
      have hstart : (ready client audience .memory gaps x 0).1.history.size =
        x.1.history.size := hbefore
      by_cases hf : (ready client audience .memory gaps x 0).1.failures = 0
      · have := hresumes.size_le hf
        omega
      · have := hresumes.size_further_back hf
        omega
    · obtain ⟨hf, hle'⟩ := hsize hfirst
      have := hresumes.size_further_back (by omega)
      omega

end Attempts

/-- **A source whose positions are lost goes back to the start.** A source was built from a plan,
and after any calls it is opened again and again. All attempts fail because the position is lost,
and nothing is brought to a checkpoint between them. Then each attempt begins at a point that is on
top of the history afterwards. From the second attempt on this point is stored, too, and it is the
initial one or one further back in the history than the point of the attempt before, which was the
newest. After one attempt more than the history had points at first, all attempts begin at the
initial point. -/
theorem goes_back_to_start {stored : Memory} (hbuild : plan.build .memory stored = .ok s) (w : ω)
    (earlier : List (Call ι)) {gaps : Nat → List (Call ι)}
    (hgaps : ∀ k, ∀ c ∈ gaps k, c.savesNothing = true) {n : Nat} :
    let x := after client audience .memory earlier (s, w)
    let before (k : Nat) := ready client audience .memory gaps x k
    let tried (k : Nat) := (attempts client audience .memory gaps x k).1
    (∀ k < n, ∃ e, (perform client audience .memory .openFeed (before k)).1 = .error e ∧
      e.isLostPosition = true) →
    ∀ k < n, ∃ p : ResumePoint,
      (before k).1.asked client .memory (before k).2 = [p.position] ∧
      (tried (k + 1)).history.last? = some p ∧ 1 ≤ (tried (k + 1)).history.size ∧
      (tried (k + 1)).history.size ≤ plan.historySize ∧
      (1 ≤ k → (tried (k + 1)).stored.point = some p ∧
        (p = .initial plan.startPosition ∨
          ∃ j, j + 1 < (tried k).history.size ∧ (tried k).history.points[j]? = some p)) ∧
      (x.1.history.size + 1 ≤ k → p = .initial plan.startPosition) := by
  intro x before tried hlost k hk
  have hx : Kept plan x.1 := kept_after client audience hbuild earlier w
  obtain ⟨hkept, hsize⟩ := size_attempts_le client audience hgaps hx
    fun i hi => hlost i (Nat.lt_trans hi hk)
  obtain ⟨e, he, helost⟩ := hlost k hk
  obtain ⟨hsame, hle, -, p, hasked, hresumes⟩ :=
    resumes_of_lost client audience hgaps hkept he helost
  have hpos : 1 ≤ (tried (k + 1)).history.size :=
    List.length_pos_of_mem (List.mem_of_getLast? hresumes.top)
  refine ⟨p, hasked, hresumes.top, hpos, hresumes.kept.size_le, ?_⟩
  have hinitial : (before k).1.initialPoint = .initial plan.startPosition :=
    congrArg ResumePoint.initial (hkept.of_sameProgress hsame).initialPosition
  -- Only the first attempt can begin without a failure that is counted.
  have hback (h1 : 1 ≤ k) := hresumes.further_back
    (Nat.ne_of_gt (Nat.lt_of_lt_of_le (Nat.pos_of_ne_zero (hsize (by omega)).1) hle))
  rw [hinitial, hsame.history] at hback
  refine ⟨fun h1 => ?_, fun hlate => ?_⟩
  · obtain ⟨hstored, ⟨hp, -⟩ | ⟨j, hj, hentry, -⟩⟩ := hback h1
    · exact ⟨hstored, Or.inl hp⟩
    · exact ⟨hstored, Or.inr ⟨j, hj, hentry⟩⟩
  · obtain ⟨-, ⟨hp, -⟩ | ⟨j, hj, -⟩⟩ := hback (by omega)
    · exact hp
    · have := (hsize (by omega)).2
      omega

/-- All four points of a history are lost, and so is every position the source asks for. -/
theorem goes_back_to_start_from_four :
    let client : LogClient Nat :=
      ⟨fun _ n => (if n = 0 then .ok () else .error (.lostPosition "gone"), n + 1),
        fun n => (.nothing, n), id⟩
    let audience : SourceAudience Unit Nat :=
      ⟨fun _ _ w => w, fun _ _ w => (.accepted, w), fun _ _ w => w⟩
    let plan : SourcePlan := { name := "shop", historySize := 4 }
    let place (n : UInt64) : LogPosition := .plain "bin.000001" n n
    let m (n : UInt64) : RowMutation :=
      .delete ⟨⟨n.toInt64, 0⟩, default, place n, default, 1, none, 0⟩ default
    let checkpoint (n : UInt64) : Call Unit := .checkpoint (some (.row (m n)))
    let earlier := [.openFeed, checkpoint 10, checkpoint 20, checkpoint 30, .closeFeed]
    let gaps (_ : Nat) : List (Call Unit) := [.turn, .closeFeed]
    ∃ s : Source Unit Memory, plan.build .memory .empty = .ok s ∧
      let x := after client audience .memory earlier (s, 0)
      let before (k : Nat) := ready client audience .memory gaps x k
      let asked (k : Nat) := (before k).1.asked client .memory (before k).2
      x.1.history.size = 4 ∧ asked 0 = [place 30] ∧ asked 1 = [place 20] ∧
        asked 5 = [plan.startPosition] := by
  intro client audience plan place m checkpoint earlier gaps
  have hlost : ∀ s : Source Unit Memory, plan.build .memory .empty = .ok s →
      ∀ k < 6, ∃ e, (perform client audience .memory .openFeed (ready client audience .memory gaps
        (after client audience .memory earlier (s, 0)) k)).1 = .error e ∧
          e.isLostPosition = true := by
    rintro s ⟨⟩ k hk
    refine ⟨.lostPosition "gone", ?_, rfl⟩
    revert k
    decide
  refine ⟨_, rfl, by decide, by decide, by decide, ?_⟩
  obtain ⟨p, hasked, -, -, -, -, hstart⟩ := goes_back_to_start client audience
    (show plan.build .memory .empty = .ok _ from rfl) 0 earlier (fun _ => by decide)
    (hlost _ rfl) 5 (by decide)
  rw [hstart (by decide)] at hasked
  exact hasked

end Memory

end Source

end ChangeFeed
