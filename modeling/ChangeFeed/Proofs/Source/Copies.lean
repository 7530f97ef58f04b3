import ChangeFeed.Proofs.Source.Calls
import ChangeFeed.Source.Plan

/-!
# The copies of a source's progress

A source with its progress in memory has the point it is at four times: as the point it believes to
be stored, on top of its history, in the store, and on top of the history in the store.

**At all times** (`Source.Kept`). The history is what it would be loaded as again. Every call keeps
the progress, or brings what is stored on top of the history (`Source.OnTop`).

**While an attempt is the last one** (`Source.Agrees`). The other copies are the same point. A new
attempt brings them together, wherever it begins, and checkpoints move them together. An attempt
that fails to begin can leave them apart, so this is said of the calls between an opening that
succeeds and the next one.

Main results: `kept_perform` and `copies_agree`.
-/

namespace ChangeFeed

namespace History

variable {name : String} {n : Nat} {t : Memory} {h : History}

theorem load_memory_eq_ok : load .memory name n t = .ok h ↔
    n ≠ 0 ∧ h = ⟨name, n, newest n t.history⟩ := by
  unfold load
  by_cases hn : n = 0
  · simp [hn]
  · rw [if_neg hn]
    exact ⟨fun h => ⟨hn, (Except.ok.inj h).symm⟩, fun h => congrArg _ h.2.symm⟩

/-- A history that is saved is loaded as it is, unless it is too long. -/
theorem load_memory_saved (hload : load .memory name n t = .ok h) {ps : List ResumePoint}
    (hps : ps.length ≤ n) (p : Option ResumePoint) :
    load .memory name n ⟨p, ps⟩ = .ok { h with points := ps } := by
  obtain ⟨hn, rfl⟩ := load_memory_eq_ok.1 hload
  exact load_memory_eq_ok.2 ⟨hn, by rw [newest_of_length_le hps]⟩

end History

namespace Source

variable {ι ω : Type} {plan : SourcePlan} {s : Source ι Memory}

/-- The source of a plan has the history that it would load again. -/
structure Kept (plan : SourcePlan) (s : Source ι Memory) : Prop where
  initialPosition : s.initialPosition = plan.startPosition
  reloads : History.load .memory plan.name plan.historySize s.stored = .ok s.history

/-- What the source believes to be stored is stored, or is the initial point if nothing is, and it
is on top of the history. -/
structure Agrees (s : Source ι Memory) : Prop where
  stored : s.saved = some (s.stored.point.getD s.initialPoint)
  top : s.history.last? = s.saved

/-- What is stored is on top of the history, or the initial point is if nothing is. -/
def OnTop (s : Source ι Memory) : Prop :=
  s.history.last? = some (s.stored.point.getD s.initialPoint)

theorem Kept.capacity (h : Kept plan s) :
    s.history.capacity = plan.historySize ∧ plan.historySize ≠ 0 := by
  obtain ⟨hn, heq⟩ := History.load_memory_eq_ok.1 h.reloads
  exact ⟨by rw [heq], hn⟩

theorem Kept.size_le (h : Kept plan s) : s.history.size ≤ plan.historySize := by
  obtain ⟨-, heq⟩ := History.load_memory_eq_ok.1 h.reloads
  rw [heq]
  exact History.length_newest_le _ _

theorem kept_build {stored : Memory} (h : plan.build .memory stored = .ok s) : Kept plan s := by
  obtain ⟨hload, hstored, hinitial, -⟩ := SourcePlan.build_eq_ok h
  exact ⟨hinitial, hstored ▸ hload⟩

theorem Kept.of_sameProgress {s' : Source ι Memory} (h : Kept plan s) (hp : SameProgress s s') :
    Kept plan s' :=
  ⟨hp.initialPosition.trans h.initialPosition, by rw [hp.stored, hp.history]; exact h.reloads⟩

theorem OnTop.of_sameProgress {s' : Source ι Memory} (h : OnTop s) (hp : SameProgress s s') :
    OnTop s' := by
  rw [OnTop, hp.history, hp.stored, initialPoint, hp.initialPosition]
  exact h

theorem Agrees.of_sameProgress {s' : Source ι Memory} (h : Agrees s) (hp : SameProgress s s') :
    Agrees s' := by
  refine ⟨?_, ?_⟩
  · rw [hp.saved, hp.stored, initialPoint, hp.initialPosition]
    exact h.stored
  · rw [hp.history, hp.saved]
    exact h.top

/-- A point is added to the history. -/
theorem Kept.remember (h : Kept plan s) (p : ResumePoint) :
    Kept plan { s with
        history := s.history.remember p
        stored := { s.stored with history := (s.history.remember p).points } } ∧
      (s.history.remember p).last? = some p := by
  obtain ⟨hcapacity, hn⟩ := h.capacity
  refine ⟨⟨h.initialPosition, History.load_memory_saved h.reloads ?_ _⟩, ?_⟩
  · exact hcapacity ▸ History.size_remember_le p s.history
  · exact History.last?_remember p (hcapacity ▸ hn)

/-! ## Opening -/

/-- Going back succeeds, and leaves its point in the store. -/
theorem kept_rollBack (h : Kept plan s) (hf : s.failures ≠ 0) : ∃ s',
    s.rollBack .memory = (.ok s.backPoint, s') ∧ Kept plan s' ∧
      s'.stored.point = some s.backPoint := by
  let kept : Memory := if s.history.size = 0 then s.stored
    else { s.stored with history := s.backHistory.points }
  have hdrop (h0 : s.history.size ≠ 0) :
      Store.memory.saveHistory s.backHistory.points s.stored = (.ok (), kept) := by
    simp only [kept, if_neg h0]
    rfl
  have hback := rollBack_of_saved hf (fun h0 => if_pos h0) hdrop rfl
  refine ⟨_, hback, ⟨h.initialPosition, ?_⟩, rfl⟩
  have hsize : s.backHistory.points.length ≤ plan.historySize :=
    Nat.le_trans (List.length_take_le' _ _) h.size_le
  by_cases h0 : s.history.size = 0
  · simp only [if_pos h0, backHistory_of_empty h0]
    exact History.load_memory_eq_ok.2 (History.load_memory_eq_ok.1 h.reloads)
  · simp only [if_neg h0]
    exact History.load_memory_saved h.reloads hsize _

/-- The point that the next attempt begins at is stored, or it is the initial one and nothing is
stored, and it is on top of the history. -/
theorem kept_startPoint (h : Kept plan s) : ∃ p s', s.startPoint .memory = (.ok p, s') ∧
    Kept plan s' ∧ s'.stored.point.getD s'.initialPoint = p ∧ s'.history.last? = some p := by
  -- Where the attempt begins, before the history is brought up to date.
  have hfirst : ∃ p s₁, (if s.failures = 0 then
      ((Store.memory.readPoint s.stored).map fun p => p.getD s.initialPoint, s)
      else s.rollBack .memory) = (.ok p, s₁) ∧
      Kept plan s₁ ∧ s₁.stored.point.getD s₁.initialPoint = p := by
    by_cases hf : s.failures = 0
    · rw [if_pos hf]
      exact ⟨_, s, rfl, h, rfl⟩
    · rw [if_neg hf]
      obtain ⟨s₁, heq, hk, hp⟩ := kept_rollBack h hf
      exact ⟨s.backPoint, s₁, heq, hk, by rw [hp]; rfl⟩
  obtain ⟨p, s₁, heq, hk, hp⟩ := hfirst
  have hstart := startPoint_of_saved heq fun _ => rfl
  refine ⟨p, _, hstart, ?_⟩
  by_cases htop : s₁.history.last? = some p
  · rw [if_pos htop]
    exact ⟨hk, hp, htop⟩
  · rw [if_neg htop]
    obtain ⟨hadd, hlast⟩ := hk.remember p
    exact ⟨hadd, hp, hlast⟩

/-- Opening the source leaves it as it is, or brings what is stored on top of its history. If an
attempt begins, it begins there. -/
theorem kept_openFeed (client : LogClient ω) (h : Kept plan s) (w : ω) :
    ∃ r s' w', s.openFeed client .memory w = (r, s', w') ∧ Kept plan s' ∧
      (s' = s ∧ (r = .ok () → s.isStarted = true) ∨
        OnTop s' ∧ (r = .ok () ∨ s'.isStarted = true → s'.saved = s'.history.last?)) := by
  have hidle : Kept plan { s with connection := .idle } := ⟨h.initialPosition, h.reloads⟩
  obtain ⟨p, s₁, hstart, hk, hp, htop⟩ := kept_startPoint hidle
  obtain ⟨g, t, hs₁⟩ := startPoint_eq .memory { s with connection := .idle }
  rw [hstart] at hs₁
  obtain rfl : s₁ = _ := hs₁
  have hon := htop.trans (congrArg some hp.symm)
  rcases hx : s.openFeed client .memory w with ⟨r, s', w'⟩
  refine ⟨r, s', w', rfl, ?_⟩
  cases hx ▸ opened_openFeed client .memory s w with
  | going hs' => exact ⟨h, Or.inl ⟨rfl, fun _ => hs'⟩⟩
  | stranded hc => exact ⟨h, Or.inl ⟨rfl, fun h => nomatch h⟩⟩
  | unprepared _ hstart' => cases hstart.symm.trans hstart'
  | refused _ hstart' hconnect =>
    cases hstart.symm.trans hstart'
    rename_i e _
    obtain ⟨n, hn⟩ := countFailure_eq e
      { s with history := g, stored := t, connection := .idle }
    simp only [hn]
    exact ⟨⟨hk.initialPosition, hk.reloads⟩, Or.inr ⟨hon, by simp [isStarted]⟩⟩
  | begun _ hstart' hconnect =>
    cases hstart.symm.trans hstart'
    exact ⟨⟨hk.initialPosition, hk.reloads⟩, Or.inr ⟨hon, fun _ => htop.symm⟩⟩

/-- An attempt that begins brings the copies together. -/
theorem agrees_openFeed (client : LogClient ω) (h : Kept plan s)
    (hs : s.isStarted = true → Agrees s) (w : ω) :
    Kept plan (s.openFeed client .memory w).2.1 ∧
      ((s.openFeed client .memory w).1 = .ok () ∨
          (s.openFeed client .memory w).2.1.isStarted = true →
        Agrees (s.openFeed client .memory w).2.1) := by
  obtain ⟨r, s', w', heq, hk, ⟨rfl, hgoing⟩ | ⟨hon, hsaved⟩⟩ := kept_openFeed client h w
  · rw [heq]
    exact ⟨hk, fun hok => hs (hok.elim hgoing id)⟩
  · rw [heq]
    exact ⟨hk, fun hok => ⟨(hsaved hok).trans hon, (hsaved hok).symm⟩⟩

/-! ## Checkpoints -/

/-- A checkpoint moves the copies together. -/
theorem agrees_checkpoint (h : Kept plan s) (m? : Option Mutation) :
    Kept plan (s.checkpoint .memory m?).2 ∧
      (Agrees s → Agrees (s.checkpoint .memory m?).2) ∧
      (s.checkpoint .memory m?).2.isStarted = s.isStarted := by
  rcases checkpoint_cases .memory m? s with ⟨heq, -⟩ | ⟨m, -, heq, -⟩
  · rw [heq]
    exact ⟨h, id, rfl⟩
  · obtain ⟨hadd, hlast⟩ := h.remember (.after m)
    rw [heq]
    exact ⟨⟨hadd.initialPosition, History.load_memory_saved h.reloads
      (h.capacity.1 ▸ History.size_remember_le _ s.history) _⟩, fun _ => ⟨rfl, hlast⟩, rfl⟩

/-- A checkpoint that is made again changes nothing. -/
theorem checkpoint_again {m? : Option Mutation} {s' : Source ι Memory}
    (h : s.checkpoint .memory m? = (.ok (), s')) : s'.checkpoint .memory m? = (.ok (), s') := by
  have hs' : s' = (s.checkpoint .memory m?).2 := by rw [h]
  rcases checkpoint_cases .memory m? s with ⟨heq, -⟩ | ⟨m, rfl, heq, -⟩
  · rw [heq] at hs'
    rw [hs'] at h ⊢
    exact h
  · have hsaved : s'.saved = some (.after m) := by
      rw [hs', heq]
      rfl
    simp [checkpoint, hsaved]

/-! ## Any calls -/

variable [DecidableEq ι] (client : LogClient ω) (audience : SourceAudience ι ω)

/-- A call that does not open the source keeps the copies together, and begins no attempt. -/
theorem agrees_perform_of_ne_open {c : Call ι} (hc : c ≠ .openFeed) {x : Source ι Memory × ω}
    (h : Kept plan x.1) :
    Kept plan (perform client audience .memory c x).2.1 ∧
      (Agrees x.1 → Agrees (perform client audience .memory c x).2.1) ∧
      ((perform client audience .memory c x).2.1.isStarted = true → x.1.isStarted = true) := by
  cases hq : c.isQuiet with
  | true =>
    obtain ⟨hp, hstarted⟩ := sameProgress_perform client audience .memory hq x
    exact ⟨h.of_sameProgress hp, fun ha => ha.of_sameProgress hp, hstarted⟩
  | false =>
    cases c with
    | openFeed => exact absurd rfl hc
    | checkpoint m? =>
      obtain ⟨hk, ha, hstarted⟩ := agrees_checkpoint h m?
      exact ⟨hk, ha, hstarted.symm.trans⟩
    | _ => cases hq

/-- A call keeps the progress, or brings what is stored on top of the history. -/
theorem kept_perform (c : Call ι) {x : Source ι Memory × ω} (h : Kept plan x.1) :
    Kept plan (perform client audience .memory c x).2.1 ∧
      (SameProgress x.1 (perform client audience .memory c x).2.1 ∨
        OnTop (perform client audience .memory c x).2.1) := by
  cases hq : c.isQuiet with
  | true =>
    obtain ⟨hp, -⟩ := sameProgress_perform client audience .memory hq x
    exact ⟨h.of_sameProgress hp, Or.inl hp⟩
  | false =>
    cases c with
    | openFeed =>
      obtain ⟨r, s', w', heq, hk, ⟨rfl, -⟩ | ⟨hon, -⟩⟩ := kept_openFeed client h x.2
      · rw [perform, heq]
        exact ⟨hk, Or.inl (.refl x.1)⟩
      · rw [perform, heq]
        exact ⟨hk, Or.inr hon⟩
    | checkpoint m? =>
      refine ⟨(agrees_checkpoint h m?).1, ?_⟩
      rcases checkpoint_cases .memory m? x.1 with ⟨heq, -⟩ | ⟨m, -, heq, -⟩
      · rw [perform, heq]
        exact Or.inl (.refl x.1)
      · rw [perform, heq]
        exact Or.inr (h.remember (.after m)).2
    | _ => cases hq

/-- The copies are together whenever the source is at work, whatever happened. -/
theorem agrees_after (cs : List (Call ι)) {x : Source ι Memory × ω} (h : Kept plan x.1)
    (hs : x.1.isStarted = true → Agrees x.1) :
    Kept plan (after client audience .memory cs x).1 ∧
      ((after client audience .memory cs x).1.isStarted = true →
        Agrees (after client audience .memory cs x).1) := by
  induction cs generalizing x with
  | nil => exact ⟨h, hs⟩
  | cons c cs ih =>
    by_cases hc : c = .openFeed
    · subst hc
      obtain ⟨hk, ha⟩ := agrees_openFeed client h hs x.2
      exact ih hk fun hs' => ha (Or.inr hs')
    · obtain ⟨hk, ha, hstarted⟩ := agrees_perform_of_ne_open client audience hc h
      exact ih hk fun hs' => ha (hs (hstarted hs'))

/-- Copies that are together stay together until the next opening. -/
theorem agrees_after_of_not_open {cs : List (Call ι)} (hcs : .openFeed ∉ cs)
    {x : Source ι Memory × ω} (h : Kept plan x.1) (ha : Agrees x.1) :
    Kept plan (after client audience .memory cs x).1 ∧
      Agrees (after client audience .memory cs x).1 := by
  induction cs generalizing x with
  | nil => exact ⟨h, ha⟩
  | cons c cs ih =>
    have hc : c ≠ .openFeed := fun hc => hcs (hc ▸ List.mem_cons_self)
    obtain ⟨hk, hkeeps, -⟩ := agrees_perform_of_ne_open client audience hc h
    exact ih (fun hmem => hcs (List.mem_cons_of_mem _ hmem)) hk (hkeeps ha)

/-- **The copies of the progress agree.** A source was built from a plan, and after any calls it is
opened with success. Until it is opened again, and whatever happens meanwhile, it believes to be
stored what is stored, or the initial point if nothing is; this is the newest point of its history;
the history would be loaded as it is, and has at least one point and no more than it may have; and
a checkpoint that succeeds changes nothing when it is made again. -/
theorem copies_agree {stored : Memory} (hbuild : plan.build .memory stored = .ok s) (w : ω)
    (earlier later : List (Call ι))
    (hopen : (perform client audience .memory .openFeed
      (after client audience .memory earlier (s, w))).1 = .ok ())
    (hlater : .openFeed ∉ later) :
    let s' := (after client audience .memory (earlier ++ .openFeed :: later) (s, w)).1
    s'.saved = some (s'.stored.point.getD (.initial plan.startPosition)) ∧
      s'.history.last? = s'.saved ∧
      History.load .memory plan.name plan.historySize s'.stored = .ok s'.history ∧
      1 ≤ s'.history.size ∧ s'.history.size ≤ plan.historySize ∧
      ∀ m? s'', s'.checkpoint .memory m? = (.ok (), s'') →
        s''.checkpoint .memory m? = (.ok (), s'') := by
  intro s'
  have hidle : s.isStarted = true → Agrees s := by
    obtain ⟨-, -, -, -, hidle⟩ := SourcePlan.build_eq_ok hbuild
    simp [isStarted, hidle]
  obtain ⟨hk, ha⟩ := agrees_after client audience earlier (x := (s, w)) (kept_build hbuild) hidle
  obtain ⟨hk, ha⟩ := agrees_openFeed client hk ha
    (after client audience .memory earlier (s, w)).2
  have hs' : s' = (after client audience .memory later (perform client audience .memory .openFeed
      (after client audience .memory earlier (s, w))).2).1 := by
    show (after client audience .memory _ _).1 = _
    rw [after_append]
    rfl
  obtain ⟨hk, ha⟩ := agrees_after_of_not_open client audience hlater hk (ha (Or.inl hopen))
  rw [hs']
  refine ⟨?_, ha.top, hk.reloads, ?_, hk.size_le, fun m? s'' => checkpoint_again⟩
  · rw [← hk.initialPosition]
    exact ha.stored
  · have htop := ha.top.trans ha.stored
    exact List.length_pos_of_mem (List.mem_of_getLast? htop)

/-- The server loses the second of two points. The source goes back to the first one, and a
checkpoint comes after it. -/
theorem copies_agree_going_back :
    let client : LogClient Nat :=
      ⟨fun _ n => (if n = 1 then .error (.lostPosition "gone") else .ok (), n + 1),
        fun n => (.nothing, n), id⟩
    let audience : SourceAudience Unit Nat :=
      ⟨fun _ _ w => w, fun _ _ w => (.accepted, w), fun _ _ w => w⟩
    let plan : SourcePlan := { name := "shop", historySize := 2 }
    let m (n : UInt64) : RowMutation :=
      .delete ⟨⟨n.toInt64, 0⟩, default, .plain "bin.000001" n n, default, 1, none, 0⟩ default
    let checkpoint (n : UInt64) : Call Unit := .checkpoint (some (.row (m n)))
    let earlier := [.openFeed, checkpoint 10, checkpoint 20, .closeFeed, .openFeed]
    ∃ s : Source Unit Memory, plan.build .memory .empty = .ok s ∧
      let s' := (after client audience .memory
        (earlier ++ .openFeed :: [checkpoint 30, .closeFeed]) (s, 0)).1
      s'.history.points = [.after (m 10), .after (m 30)] ∧
        s'.history.last? = s'.saved ∧
        s'.saved = some (s'.stored.point.getD (.initial plan.startPosition)) := by
  intro client audience plan m checkpoint earlier
  refine ⟨_, rfl, ?_⟩
  obtain ⟨hstored, htop, -⟩ := copies_agree client audience
    (show plan.build .memory .empty = .ok _ from rfl) 0 earlier [checkpoint 30, .closeFeed]
    (by decide) (by simp [checkpoint])
  exact ⟨by decide, htop, hstored⟩

end Source

end ChangeFeed
