import ChangeFeed.Source.Plan
import Mathlib.Tactic.Common

/-!
# Where a source may resume

**Stores** (`Store.Faithful`). A point that is read was saved. No more is asked of a store: its
calls may fail.

**The invariant** (`Source.Keeps`). The initial position, the stored point and all points of the
history are as they should be. Going back, opening and checkpoints keep this.

Main results: `opening_openFeed`, an attempt begins at such a point, and `keeps_checkpoint`.
-/

namespace ChangeFeed

/-- What a store gives back as the point was put there as the point. -/
structure Store.Faithful {σ : Type} (store : Store σ) : Prop where
  savePoint : ∀ p s q, store.readPoint (store.savePoint p s).2 = .ok (some q) →
    q = p ∨ store.readPoint s = .ok (some q)
  saveHistory : ∀ ps s q, store.readPoint (store.saveHistory ps s).2 = .ok (some q) →
    store.readPoint s = .ok (some q)

theorem Store.faithful_memory : Store.memory.Faithful where
  savePoint := by
    intro p s q h
    exact Or.inl (Option.some.inj (Except.ok.inj h)).symm
  saveHistory := by
    intro ps s q h
    exact h

namespace History

theorem mem_of_mem_newest {α : Type} {n : Nat} {xs : List α} {x : α} (h : x ∈ newest n xs) :
    x ∈ xs :=
  List.mem_of_mem_drop h

end History

namespace Source

variable {ι σ ω : Type} {store : Store σ} {P Q : LogPosition → Prop} {s : Source ι σ}

/-- All points that the source may resume at are as `P` says. -/
structure Keeps (store : Store σ) (P : LogPosition → Prop) (s : Source ι σ) : Prop where
  initial : P s.initialPosition
  point : ∀ p, store.readPoint s.stored = .ok (some p) → P p.position
  history : ∀ p ∈ s.history.points, P p.position

theorem Keeps.mono (h : s.Keeps store P) (hPQ : ∀ p, P p → Q p) : s.Keeps store Q where
  initial := hPQ _ h.initial
  point := fun p hp => hPQ _ (h.point p hp)
  history := fun p hp => hPQ _ (h.history p hp)

theorem Keeps.of_eq {s' : Source ι σ} (h : s.Keeps store P)
    (hi : s'.initialPosition = s.initialPosition) (hs : s'.stored = s.stored)
    (hh : s'.history = s.history) : s'.Keeps store P where
  initial := hi ▸ h.initial
  point := hs ▸ h.point
  history := hh ▸ h.history

/-- A source that was just built is at rest, and has no points but those of its store. -/
theorem keeps_build {p : SourcePlan} {stored : σ} (h : p.build store stored = .ok s)
    (hpoint : store.readPoint stored = .ok none) (hhistory : store.readHistory stored = .ok [])
    (hP : P p.startPosition) :
    s.tables = p.tables ∧ s.connection = .idle ∧ s.Keeps store P := by
  unfold SourcePlan.build History.load at h
  split at h
  · cases h
  · rw [hhistory] at h
    cases h
    refine ⟨rfl, rfl, hP, fun q hq => ?_, fun q hq => ?_⟩
    · rw [hpoint] at hq
      cases hq
    · exact absurd (History.mem_of_mem_newest hq) List.not_mem_nil

/-- A point is stored. -/
theorem Keeps.save (hf : store.Faithful) (h : s.Keeps store P) {p : ResumePoint}
    (hp : P p.position) : Keeps store P { s with stored := (store.savePoint p s.stored).2 } where
  initial := h.initial
  point := by
    intro q hq
    rcases hf.savePoint p s.stored q hq with rfl | hq
    · exact hp
    · exact h.point q hq
  history := h.history

/-- The history is changed and stored. -/
theorem Keeps.remember (hf : store.Faithful) (h : s.Keeps store P) {g : History}
    (hg : ∀ p ∈ g.points, P p.position) :
    Keeps store P { s with
      history := g
      stored := (store.saveHistory g.points s.stored).2 } where
  initial := h.initial
  point := fun q hq => h.point q (hf.saveHistory g.points s.stored q hq)
  history := hg

theorem Keeps.add (hf : store.Faithful) (h : s.Keeps store P) {p : ResumePoint}
    (hp : P p.position) :
    Keeps store P { s with
      history := (s.history.add store p s.stored).2.1
      stored := (s.history.add store p s.stored).2.2 } := by
  refine h.remember hf fun q hq => ?_
  rcases List.mem_append.1 (History.mem_of_mem_newest hq) with hq | hq
  · exact h.history q hq
  · rw [List.mem_singleton.1 hq]
    exact hp

/-- The source differs from another one in its progress at most. -/
structure Alike (s s' : Source ι σ) : Prop where
  tables : s'.tables = s.tables
  initialPosition : s'.initialPosition = s.initialPosition
  reader : s'.reader = s.reader
  connection : s'.connection = s.connection
  listeners : s'.listeners = s.listeners

theorem Alike.refl (s : Source ι σ) : Alike s s := ⟨rfl, rfl, rfl, rfl, rfl⟩

theorem Alike.trans {s₁ s₂ s₃ : Source ι σ} (h : Alike s₁ s₂) (h' : Alike s₂ s₃) : Alike s₁ s₃ :=
  ⟨h'.tables.trans h.tables, h'.initialPosition.trans h.initialPosition,
    h'.reader.trans h.reader, h'.connection.trans h.connection, h'.listeners.trans h.listeners⟩

/-! ## Going back -/

/-- Taking points away leaves points that were there, the newest of them on top. -/
theorem removeLast_spec {g : History} {n : Nat} {t : σ} {r : Except Error (Option ResumePoint)}
    {g' : History} {t' : σ} (h : g.removeLast store n t = (r, g', t')) :
    g'.points ⊆ g.points ∧ (g' = g ∧ t' = t ∨ t' = (store.saveHistory g'.points t).2) ∧
      ∀ p, r = .ok (some p) → p ∈ g.points := by
  unfold History.removeLast at h
  split at h
  · cases h
    exact ⟨List.Subset.refl _, Or.inl ⟨rfl, rfl⟩, fun p hp => by cases hp⟩
  · split at h
    · cases h
      exact ⟨List.Subset.refl _, Or.inl ⟨rfl, rfl⟩, fun p hp => by cases hp⟩
    · cases h
      refine ⟨List.take_subset _ _, Or.inr rfl, fun p hp => ?_⟩
      have hlast : (g.points.take (g.size - n)).getLast? = some p := by
        simp only [Except.map] at hp
        split at hp
        · cases hp
        · exact Except.ok.inj hp
      exact List.mem_of_mem_take (List.mem_of_getLast? hlast)

theorem keeps_rollBack (hf : store.Faithful) (h : s.Keeps store P) :
    Alike s (s.rollBack store).2 ∧ (s.rollBack store).2.Keeps store P ∧
      ∀ p, (s.rollBack store).1 = .ok p → P p.position := by
  unfold rollBack
  simp only
  generalize hr : (if min s.failures s.history.size = 0 then (.ok none, s.history, s.stored)
    else s.history.removeLast store (min s.failures s.history.size) s.stored) = x
  obtain ⟨r, g, t⟩ := x
  have hback : Keeps store P { s with history := g, stored := t } ∧
      ∀ p, r = .ok (some p) → P p.position := by
    split at hr
    · cases hr
      exact ⟨h, fun p hp => by cases hp⟩
    · obtain ⟨hsub, heq, htop⟩ := removeLast_spec hr
      refine ⟨?_, fun p hp => h.history p (htop p hp)⟩
      rcases heq with ⟨rfl, rfl⟩ | rfl
      · exact h
      · exact h.remember hf fun p hp => h.history p (hsub hp)
  obtain ⟨hk, htop⟩ := hback
  cases r with
  | error e => exact ⟨⟨rfl, rfl, rfl, rfl, rfl⟩, hk, fun p hp => by cases hp⟩
  | ok top =>
    -- Once the history is used up, the attempt begins at the initial position.
    have hp : P (top.getD (initialPoint s)).position := by
      cases top with
      | none => exact h.initial
      | some p => exact htop p rfl
    refine ⟨⟨rfl, rfl, rfl, rfl, rfl⟩, hk.save hf hp, fun p hok => ?_⟩
    simp only [Except.map] at hok
    split at hok
    · cases hok
    · cases hok
      exact hp

/-- The point that the next attempt begins at is as it should be. -/
theorem keeps_startPoint (hf : store.Faithful) (h : s.Keeps store P) :
    Alike s (s.startPoint store).2 ∧ (s.startPoint store).2.Keeps store P ∧
      ∀ p, (s.startPoint store).1 = .ok p → P p.position := by
  unfold startPoint
  generalize hr : (if s.failures = 0 then
    ((store.readPoint s.stored).map fun p => p.getD s.initialPoint, s)
    else s.rollBack store) = x
  obtain ⟨r, s₁⟩ := x
  -- The attempt begins at the stored point, or further back.
  have hfirst : Alike s s₁ ∧ s₁.Keeps store P ∧ ∀ p, r = .ok p → P p.position := by
    split at hr
    · cases hr
      refine ⟨.refl s, h, fun p hp => ?_⟩
      cases hread : store.readPoint s.stored with
      | error e =>
        rw [hread] at hp
        cases hp
      | ok q =>
        rw [hread] at hp
        cases hp
        cases q with
        | none => exact h.initial
        | some q => exact h.point q hread
    · have hback := keeps_rollBack hf h
      rwa [hr] at hback
  obtain ⟨ha, hk, hp⟩ := hfirst
  cases r with
  | error e => exact ⟨ha, hk, fun p hok => by cases hok⟩
  | ok p =>
    simp only
    split
    · exact ⟨ha, hk, hp⟩
    · refine ⟨ha.trans ⟨rfl, rfl, rfl, rfl, rfl⟩, hk.add hf (hp p rfl), fun q hok => ?_⟩
      simp only [Except.map] at hok
      split at hok
      · cases hok
      · cases hok
        exact hp p rfl

/-! ## Opening and checkpoints -/

/-- What opening can lead to. -/
inductive Opening (client : LogClient ω) (store : Store σ) (P : LogPosition → Prop)
    (s : Source ι σ) (w : ω) : Except Error Unit × Source ι σ × ω → Prop where
  /-- The source was at work. -/
  | going (hs : s.isStarted = true) : Opening client store P s w (.ok (), s, w)
  /-- The source is not at work. -/
  | failed {e : Error} {c : Connection} {s' : Source ι σ} {w' : ω} (hs : s.connection ≠ .reading)
      (hc : c ≠ .reading) (ha : Alike { s with connection := c } s') (hk : s'.Keeps store P) :
      Opening client store P s w (.error e, s', w')
  /-- An attempt begins, at a position that is as it should be. -/
  | begun {p : LogPosition} {s' : Source ι σ} (hs : s.connection ≠ .reading) (hp : P p)
      (ha : Alike { s with
        reader := .start s.tables p s.reader.mapper
        connection := .reading } s')
      (hk : s'.Keeps store P) : Opening client store P s w (.ok (), s', (client.connect p w).2)

theorem opening_attempt (client : LogClient ω) (hf : store.Faithful) (h : s.Keeps store P)
    (hs : s.connection ≠ .reading) (w : ω) :
    Opening client store P s w (attempt client store { s with connection := .idle } w) := by
  have hidle : Keeps store P { s with connection := .idle } := h.of_eq rfl rfl rfl
  obtain ⟨ha, hk, hp⟩ := keeps_startPoint hf hidle
  unfold attempt
  split
  · rename_i hstart
    rw [hstart] at ha hk
    exact .failed hs (by exact nofun) ha hk
  · rename_i p s₁ hstart
    rw [hstart] at ha hk hp
    split
    · rename_i e w' hconnect
      have hcount : Alike s₁ (s₁.countFailure e) ∧ (s₁.countFailure e).Keeps store P := by
        unfold countFailure
        split
        · exact ⟨⟨rfl, rfl, rfl, rfl, rfl⟩, hk.of_eq rfl rfl rfl⟩
        · exact ⟨.refl _, hk⟩
      exact .failed hs (by exact nofun) (ha.trans hcount.1) hcount.2
    · rename_i w' hconnect
      have hw : w' = (client.connect p.position w).2 := by rw [hconnect]
      rw [hw]
      refine .begun hs (hp p rfl) ?_ (hk.of_eq rfl rfl rfl)
      obtain ⟨htables, hinit, hreader, -, hlisteners⟩ := ha
      exact ⟨htables, hinit, by rw [htables, hreader], rfl, hlisteners⟩

theorem opening_openFeed (client : LogClient ω) (hf : store.Faithful) (h : s.Keeps store P)
    (w : ω) : Opening client store P s w (s.openFeed client store w) := by
  unfold openFeed
  cases hc : s.connection with
  | reading => exact .going (by simp [isStarted, hc])
  | crashed => exact .going (by simp [isStarted, hc])
  | lost =>
    refine .failed (c := .lost) (by rw [hc]; exact nofun) (by exact nofun) ?_ h
    exact ⟨rfl, rfl, rfl, hc, rfl⟩
  | idle => exact opening_attempt client hf h (by rw [hc]; exact nofun) w
  | ended => exact opening_attempt client hf h (by rw [hc]; exact nofun) w

theorem keeps_store (hf : store.Faithful) (h : s.Keeps store P) {p : ResumePoint}
    (hp : P p.position) :
    Alike s (s.store store p).2 ∧ (s.store store p).2.Keeps store P := by
  have hsave := h.save hf hp
  have hadd := hsave.add hf hp
  unfold Source.store
  split
  · rename_i e t hr
    rw [hr] at hsave
    exact ⟨⟨rfl, rfl, rfl, rfl, rfl⟩, hsave⟩
  · rename_i t hr
    rw [hr] at hadd
    simp only at hadd
    split
    · rename_i e g t' hg
      rw [hg] at hadd
      exact ⟨⟨rfl, rfl, rfl, rfl, rfl⟩, hadd⟩
    · rename_i g t' hg
      rw [hg] at hadd
      exact ⟨⟨rfl, rfl, rfl, rfl, rfl⟩, hadd.of_eq rfl rfl rfl⟩

/-- A checkpoint at a mutation that is as it should be changes the progress at most. -/
theorem keeps_checkpoint (hf : store.Faithful) (h : s.Keeps store P) {m? : Option Mutation}
    (hm : ∀ m, m? = some (.row m) → P (ResumePoint.after m).position) :
    Alike s (s.checkpoint store m?).2 ∧ (s.checkpoint store m?).2.Keeps store P := by
  unfold checkpoint
  split
  · exact ⟨.refl s, h⟩
  · exact ⟨.refl s, h⟩
  · rename_i m
    simp only
    split
    · split
      · exact ⟨.refl s, h⟩
      · exact keeps_store hf h (hm m rfl)
    · exact keeps_store hf h (hm m rfl)

end Source

end ChangeFeed
