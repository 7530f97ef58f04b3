import ChangeFeed.Proofs.Source.Playing

/-!
# Calls of a source

A source is opened, closed and asked for checkpoints while its reading thread takes turns and
listeners come and go, in any order.

**Calls** (`Source.Call`, `Source.perform`). One of these, and what it does to the source and to the
world of its client and its listeners.

**Runs** (`Source.after`). What any number of calls lead to.

**Progress** (`Source.SameProgress`). What a source has stored and what it remembers of it. Nothing
but opening and checkpoints changes it.

**Opening** (`Source.Opened`). An opening goes on with the attempt there is, or begins a new one, or
fails in one of three places.

**Checkpoints.** A checkpoint either changes nothing or stores the point after its mutation.

Main results: `sameProgress_perform`, `opened_openFeed` and `checkpoint_cases`.
-/

namespace ChangeFeed

namespace Source

variable {ι σ ω : Type} [DecidableEq ι]

/-- What happens to a source. -/
inductive Call (ι : Type) where
  | openFeed
  | closeFeed
  | checkpoint (m? : Option Mutation)
  /-- A turn of the reading thread. -/
  | turn
  | addListener (l : ι)
  | removeListener (l : ι)

/-- What a call answers, and what it does. Calls that cannot fail answer that they succeeded. -/
def perform (client : LogClient ω) (audience : SourceAudience ι ω) (keeper : Store σ) (c : Call ι)
    (x : Source ι σ × ω) : Except Error Unit × Source ι σ × ω :=
  match c with
  | .openFeed => x.1.openFeed client keeper x.2
  | .closeFeed => x.1.closeFeed client x.2
  | .checkpoint m? => ((x.1.checkpoint keeper m?).1, (x.1.checkpoint keeper m?).2, x.2)
  | .turn => (.ok (), x.1.step client audience x.2)
  | .addListener l => (.ok (), { x.1 with listeners := x.1.listeners.add l }, x.2)
  | .removeListener l => (.ok (), { x.1 with listeners := x.1.listeners.remove l }, x.2)

/-- The source and the world after some calls. -/
def after (client : LogClient ω) (audience : SourceAudience ι ω) (keeper : Store σ)
    (cs : List (Call ι)) (x : Source ι σ × ω) : Source ι σ × ω :=
  cs.foldl (fun x c => (perform client audience keeper c x).2) x

theorem after_append (client : LogClient ω) (audience : SourceAudience ι ω) (keeper : Store σ)
    (cs ds : List (Call ι)) (x : Source ι σ × ω) : after client audience keeper (cs ++ ds) x =
      after client audience keeper ds (after client audience keeper cs x) :=
  List.foldl_append

/-- The first calls and the one after them. -/
theorem after_take_succ (client : LogClient ω) (audience : SourceAudience ι ω) (keeper : Store σ)
    {cs : List (Call ι)} {i : Nat} {c : Call ι} (hc : cs[i]? = some c) (x : Source ι σ × ω) :
    after client audience keeper (cs.take (i + 1)) x =
      (perform client audience keeper c (after client audience keeper (cs.take i) x)).2 := by
  rw [List.take_add_one, hc, after_append]
  rfl

/-! ## Progress -/

/-- Two sources have stored the same and remember the same of it. -/
structure SameProgress (s s' : Source ι σ) : Prop where
  name : s'.name = s.name
  initialPosition : s'.initialPosition = s.initialPosition
  stored : s'.stored = s.stored
  history : s'.history = s.history
  saved : s'.saved = s.saved

omit [DecidableEq ι] in
theorem SameProgress.refl (s : Source ι σ) : SameProgress s s := ⟨rfl, rfl, rfl, rfl, rfl⟩

omit [DecidableEq ι] in
theorem SameProgress.trans {s s' s'' : Source ι σ} (h : SameProgress s s')
    (h' : SameProgress s' s'') : SameProgress s s'' where
  name := h'.name.trans h.name
  initialPosition := h'.initialPosition.trans h.initialPosition
  stored := h'.stored.trans h.stored
  history := h'.history.trans h.history
  saved := h'.saved.trans h.saved

omit [DecidableEq ι] in
/-- A turn of the reading thread keeps the progress. It can end the attempt but not begin one. -/
theorem sameProgress_step (client : LogClient ω) (audience : SourceAudience ι ω)
    (s : Source ι σ) (w : ω) : SameProgress s (s.step client audience w).1 ∧
      ((s.step client audience w).1.isStarted = true → s.isStarted = true) := by
  unfold step
  by_cases hs : s.connection = .reading
  · rw [if_pos hs]
    have hstarted : s.isStarted = true := by simp [isStarted, hs]
    refine ⟨?_, fun _ => hstarted⟩
    rcases client.next w with ⟨a, w'⟩
    cases a with
    | nothing => exact .refl s
    | failed e =>
      obtain ⟨n, hn⟩ := fail_eq e s
      simp only [stopOn, hn]
      exact ⟨rfl, rfl, rfl, rfl, rfl⟩
    | crashed => exact ⟨rfl, rfl, rfl, rfl, rfl⟩
    | event e =>
      obtain ⟨n, c, hn⟩ := hand_eq client audience (s.heed e).1 (s.heed e).2 w'
      simp only [hn]
      exact ⟨rfl, rfl, rfl, rfl, rfl⟩
  · rw [if_neg hs]
    exact ⟨.refl s, id⟩

omit [DecidableEq ι] in
theorem sameProgress_closeFeed (client : LogClient ω) (s : Source ι σ) (w : ω) :
    SameProgress s (s.closeFeed client w).2.1 ∧
      (s.closeFeed client w).2.1.isStarted = false := by
  unfold closeFeed
  cases hc : s.connection with
  | idle => exact ⟨.refl s, by simp [isStarted, hc]⟩
  | lost => exact ⟨.refl s, by simp [isStarted, hc]⟩
  | _ => exact ⟨⟨rfl, rfl, rfl, rfl, rfl⟩, rfl⟩

/-- Does the call neither open the source nor make a checkpoint? -/
def Call.isQuiet : Call ι → Bool
  | .openFeed | .checkpoint _ => false
  | _ => true

/-- Nothing but opening and checkpoints changes the progress, and nothing but opening begins an
attempt. -/
theorem sameProgress_perform (client : LogClient ω) (audience : SourceAudience ι ω)
    (keeper : Store σ) {c : Call ι} (hc : c.isQuiet = true) (x : Source ι σ × ω) :
    SameProgress x.1 (perform client audience keeper c x).2.1 ∧
      ((perform client audience keeper c x).2.1.isStarted = true → x.1.isStarted = true) := by
  cases c with
  | openFeed => cases hc
  | checkpoint m? => cases hc
  | closeFeed =>
    obtain ⟨hp, hs⟩ := sameProgress_closeFeed client x.1 x.2
    refine ⟨hp, fun h => ?_⟩
    rw [perform, hs] at h
    cases h
  | turn => exact sameProgress_step client audience x.1 x.2
  | addListener l => exact ⟨⟨rfl, rfl, rfl, rfl, rfl⟩, id⟩
  | removeListener l => exact ⟨⟨rfl, rfl, rfl, rfl, rfl⟩, id⟩

/-! ## Opening -/

/-- What is left of the history when the source goes back. -/
def backHistory (s : Source ι σ) : History :=
  { s.history with points := s.history.points.take (s.history.size - s.failures) }

/-- Where the source goes back to. -/
def backPoint (s : Source ι σ) : ResumePoint := s.backHistory.last?.getD s.initialPoint

omit [DecidableEq ι] in
theorem backHistory_of_empty {s : Source ι σ} (h : s.history.size = 0) :
    s.backHistory = s.history := by
  have hnone : s.history.points = [] := List.length_eq_zero_iff.1 h
  rw [backHistory, hnone, List.take_nil, ← hnone]

omit [DecidableEq ι] in
/-- Going back, over a store that saves what it is given. -/
theorem rollBack_of_saved {keeper : Store σ} {s : Source ι σ} {t₁ t₂ : σ} (hf : s.failures ≠ 0)
    (hempty : s.history.size = 0 → t₁ = s.stored)
    (hdrop : s.history.size ≠ 0 → keeper.saveHistory s.backHistory.points s.stored = (.ok (), t₁))
    (hsave : keeper.savePoint s.backPoint t₁ = (.ok (), t₂)) : s.rollBack keeper =
      (.ok s.backPoint, { s with history := s.backHistory, stored := t₂ }) := by
  unfold rollBack
  by_cases hsize : s.history.size = 0
  · have hn : min s.failures s.history.size = 0 := by omega
    have hback := backHistory_of_empty hsize
    have hpoint : s.backPoint = s.initialPoint := by
      rw [backPoint, hback, History.last?, List.length_eq_zero_iff.1 hsize]
      rfl
    rw [hempty hsize, hpoint] at hsave
    simp only [if_pos hn, Option.getD_none, hsave, hback, hpoint]
    rfl
  · have hn : ¬ min s.failures s.history.size = 0 := by omega
    have hle : ¬ s.history.size < min s.failures s.history.size := by omega
    have hlen : s.history.size - min s.failures s.history.size = s.history.size - s.failures := by
      omega
    have hdrop : keeper.saveHistory (s.history.points.take (s.history.size - s.failures)) s.stored =
        (.ok (), t₁) := hdrop hsize
    simp only [if_neg hn, History.removeLast, if_neg hle, hlen, History.save, hdrop]
    show (Except.map (fun _ => s.backPoint) (keeper.savePoint s.backPoint t₁).1,
      { s with history := s.backHistory, stored := (keeper.savePoint s.backPoint t₁).2 }) = _
    rw [hsave]
    rfl

omit [DecidableEq ι] in
/-- Where an attempt begins, over a store that saves what it is given. -/
theorem startPoint_of_saved {keeper : Store σ} {s s₁ : Source ι σ} {p : ResumePoint} {t : σ}
    (hfirst : (if s.failures = 0 then
      ((keeper.readPoint s.stored).map fun p => p.getD s.initialPoint, s)
      else s.rollBack keeper) = (.ok p, s₁))
    (hadd : s₁.history.last? ≠ some p →
      keeper.saveHistory (s₁.history.remember p).points s₁.stored = (.ok (), t)) :
    s.startPoint keeper = (.ok p, if s₁.history.last? = some p then s₁
      else { s₁ with history := s₁.history.remember p, stored := t }) := by
  unfold startPoint
  simp only [hfirst]
  by_cases htop : s₁.history.last? = some p
  · rw [if_pos htop, if_pos htop]
  · rw [if_neg htop, if_neg htop]
    simp only [History.add_eq, hadd htop]
    rfl

omit [DecidableEq ι] in
/-- Where an attempt begins that does not go back. -/
theorem startPoint_of_read {keeper : Store σ} {s : Source ι σ} {p? : Option ResumePoint} {t : σ}
    (hf : s.failures = 0) (hread : keeper.readPoint s.stored = .ok p?)
    (hadd : s.history.last? ≠ some (p?.getD s.initialPoint) →
      keeper.saveHistory (s.history.remember (p?.getD s.initialPoint)).points s.stored =
        (.ok (), t)) :
    s.startPoint keeper = (.ok (p?.getD s.initialPoint),
      if s.history.last? = some (p?.getD s.initialPoint) then s
      else { s with history := s.history.remember (p?.getD s.initialPoint), stored := t }) := by
  refine startPoint_of_saved ?_ hadd
  rw [if_pos hf, hread]
  rfl

/-- Is a new attempt begun when the source is opened? -/
def isAtRest (s : Source ι σ) : Bool := s.connection == .idle || s.connection == .ended

/-- What opening a source leads to. -/
inductive Opened (client : LogClient ω) (keeper : Store σ) (s : Source ι σ) (w : ω) :
    Except Error Unit × Source ι σ × ω → Prop where
  /-- The source is at work. -/
  | going (hs : s.isStarted = true) : Opened client keeper s w (.ok (), s, w)
  /-- The source has lost its client. -/
  | stranded {e : Error} (hs : s.connection = .lost) : Opened client keeper s w (.error e, s, w)
  /-- There is no telling where to begin. -/
  | unprepared {e : Error} {s' : Source ι σ} (hs : s.isAtRest = true)
      (hstart : startPoint keeper { s with connection := .idle } = (.error e, s')) :
      Opened client keeper s w (.error e, s', w)
  /-- The client does not connect. -/
  | refused {p : ResumePoint} {e : Error} {s' : Source ι σ} {w' : ω} (hs : s.isAtRest = true)
      (hstart : startPoint keeper { s with connection := .idle } = (.ok p, s'))
      (hconnect : client.connect p.position w = (.error e, w')) :
      Opened client keeper s w (.error e, s'.countFailure e, w')
  /-- An attempt begins. -/
  | begun {p : ResumePoint} {s' : Source ι σ} {w' : ω} (hs : s.isAtRest = true)
      (hstart : startPoint keeper { s with connection := .idle } = (.ok p, s'))
      (hconnect : client.connect p.position w = (.ok (), w')) :
      Opened client keeper s w
        (.ok (), { s' with
          saved := some p
          reader := .start s'.tables p.position s'.reader.mapper
          connection := .reading }, w')

omit [DecidableEq ι] in
theorem opened_openFeed (client : LogClient ω) (keeper : Store σ) (s : Source ι σ) (w : ω) :
    Opened client keeper s w (s.openFeed client keeper w) := by
  have hattempt (hs : s.isAtRest = true) :
      Opened client keeper s w (attempt client keeper { s with connection := .idle } w) := by
    unfold attempt
    rcases hstart : startPoint keeper { s with connection := .idle } with ⟨_ | p, s'⟩
    · exact .unprepared hs hstart
    · simp only
      rcases hconnect : client.connect p.position w with ⟨_ | ⟨⟩, w'⟩
      · exact .refused hs hstart hconnect
      · exact .begun hs hstart hconnect
  unfold openFeed
  cases hc : s.connection with
  | reading => exact .going (by simp [isStarted, hc])
  | crashed => exact .going (by simp [isStarted, hc])
  | lost => exact .stranded hc
  | idle => exact hattempt (by simp [isAtRest, hc])
  | ended => exact hattempt (by simp [isAtRest, hc])

omit [DecidableEq ι] in
/-- A source at rest that can tell where to begin asks its client to connect there. -/
theorem openFeed_of_start {keeper : Store σ} {s s₁ : Source ι σ} {p : ResumePoint}
    (client : LogClient ω) (hs : s.isAtRest = true)
    (hstart : startPoint keeper { s with connection := .idle } = (.ok p, s₁)) (w : ω) :
    (∃ e w', client.connect p.position w = (.error e, w') ∧
      s.openFeed client keeper w = (.error e, s₁.countFailure e, w')) ∨
    ∃ w', client.connect p.position w = (.ok (), w') ∧
      s.openFeed client keeper w = (.ok (), { s₁ with
        saved := some p
        reader := .start s₁.tables p.position s₁.reader.mapper
        connection := .reading }, w') := by
  rcases hx : s.openFeed client keeper w with ⟨r, s', w'⟩
  cases hx ▸ opened_openFeed client keeper s w with
  | going hgoing => cases hc : s.connection <;> simp_all [isAtRest, isStarted]
  | stranded hlost => simp [isAtRest, hlost] at hs
  | unprepared _ hstart' => cases hstart.symm.trans hstart'
  | refused _ hstart' hconnect =>
    cases hstart.symm.trans hstart'
    exact Or.inl ⟨_, w', hconnect, rfl⟩
  | begun _ hstart' hconnect =>
    cases hstart.symm.trans hstart'
    exact Or.inr ⟨w', hconnect, rfl⟩

omit [DecidableEq ι] in
/-- Only the count of failures and the state of the connection depend on the client's answer. -/
theorem progress_of_start {keeper : Store σ} {s s₁ : Source ι σ} {p : ResumePoint}
    (client : LogClient ω) (hs : s.isAtRest = true)
    (hstart : startPoint keeper { s with connection := .idle } = (.ok p, s₁)) (w : ω) :
    let s' := (s.openFeed client keeper w).2.1
    s'.history = s₁.history ∧ s'.stored = s₁.stored ∧ s'.initialPosition = s₁.initialPosition := by
  rcases openFeed_of_start client hs hstart w with ⟨e, w', -, hopen⟩ | ⟨w', -, hopen⟩
  · obtain ⟨n, hn⟩ := countFailure_eq e s₁
    simp only [hopen, hn, and_self]
  · simp only [hopen, and_self]

/-! ## Checkpoints -/

omit [DecidableEq ι] in
/-- A point is stored, over a store that saves what it is given. -/
theorem store_of_saved {keeper : Store σ} {s : Source ι σ} {p : ResumePoint} {t₁ t₂ : σ}
    (hsave : keeper.savePoint p s.stored = (.ok (), t₁))
    (hadd : keeper.saveHistory (s.history.remember p).points t₁ = (.ok (), t₂)) :
    s.store keeper p = (.ok (), { s with
      history := s.history.remember p
      stored := t₂
      saved := some p
      failures := 0 }) := by
  unfold store
  simp only [hsave, History.add_eq, hadd]

omit [DecidableEq ι] in
/-- A checkpoint changes nothing, or it stores the point after its mutation, which is new and not
behind the point that the source believes to be stored. If it does not believe any to be, it stores
the point. -/
theorem checkpoint_cases (keeper : Store σ) (m? : Option Mutation) (s : Source ι σ) :
    ((s.checkpoint keeper m?).2 = s ∧ ∀ m, m? = some (.row m) → s.saved ≠ none) ∨
      ∃ m, m? = some (.row m) ∧ s.checkpoint keeper m? = s.store keeper (.after m) ∧
        ∀ q, s.saved = some q → q ≠ .after m ∧
          (ResumePoint.after m).position.compareTo q.position ≠ .lt := by
  cases m? with
  | none => exact Or.inl ⟨rfl, fun _ h => nomatch h⟩
  | some m =>
    cases m with
    | raw m => exact Or.inl ⟨rfl, fun _ h => nomatch h⟩
    | row m =>
      simp only [checkpoint]
      cases hs : s.saved with
      | none => exact Or.inr ⟨m, rfl, rfl, fun _ h => nomatch h⟩
      | some q =>
        by_cases h : q = .after m ∨ (ResumePoint.after m).position.compareTo q.position = .lt
        · exact Or.inl ⟨by simp only [if_pos h], fun _ _ => Option.some_ne_none q⟩
        · refine Or.inr ⟨m, rfl, by simp only [if_neg h], fun q' hq => ?_⟩
          obtain rfl := Option.some.inj hq
          exact not_or.1 h

end Source

end ChangeFeed
