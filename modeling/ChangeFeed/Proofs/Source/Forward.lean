import ChangeFeed.Proofs.Source.Calls
import ChangeFeed.Source.Plan

/-!
# The stored position and the calls that move it

**Stores** (`Store.Reliable`). A store whose calls do not fail, and which gives back the position of
the point that was saved last.

**The invariant** (`Source.Tidy`). All positions that are stored are of one server, and what a
source believes to be stored is at the stored position, if one is stored.

**Steps** (`Source.Moves`). Only a checkpoint moves the stored position, and it compares its point
with what the source believes to be stored. A source that was just built believes nothing, whatever
its store holds, so a checkpoint before the first opening is not compared with anything.

Main result: `never_moves_back_iff`.
-/

namespace ChangeFeed

namespace LogPosition

theorem compareTo_ne_lt_iff {p q : LogPosition} {u : String} (hp : p.server = some u)
    (hq : q.server = some u) : q.compareTo p ≠ .lt ↔ p.rank ≤ q.rank := by
  rw [compareTo_of_server hq hp, ne_eq, compareOffsets_eq_lt_iff, Nat.not_lt]

end LogPosition

namespace Store

variable {σ : Type}

/-- The position that a store holds. -/
def position? (store : Store σ) (t : σ) : Option LogPosition :=
  match store.readPoint t with
  | .ok p? => p?.map (·.position)
  | .error _ => none

theorem position?_congr {store : Store σ} {t t' : σ}
    (h : store.readPoint t' = store.readPoint t) : store.position? t' = store.position? t := by
  rw [position?, position?, h]

/-- On what is `Sound` no call of the store fails, and the position of a point that is `Fit` is read
as it was saved. -/
structure Reliable (store : Store σ) (Sound : σ → Prop) (Fit : ResumePoint → Prop) : Prop where
  readPoint : ∀ t, Sound t → ∃ p?, store.readPoint t = .ok p?
  savePoint : ∀ t p, Sound t → Fit p → (store.savePoint p t).1 = .ok () ∧
    Sound (store.savePoint p t).2 ∧ store.position? (store.savePoint p t).2 = some p.position
  saveHistory : ∀ t ps, Sound t → (store.saveHistory ps t).1 = .ok () ∧
    Sound (store.saveHistory ps t).2 ∧
    store.readPoint (store.saveHistory ps t).2 = store.readPoint t

theorem reliable_memory : memory.Reliable (fun _ => True) fun _ => True where
  readPoint := fun t _ => ⟨t.point, rfl⟩
  savePoint := fun _ _ _ _ => ⟨rfl, trivial, rfl⟩
  saveHistory := fun _ _ _ => ⟨rfl, trivial, rfl⟩

end Store

namespace Source

variable {ι σ ω : Type} {store : Store σ} {Sound : σ → Prop} {Fit : ResumePoint → Prop}
  {u : String} {s : Source ι σ}

/-- Does opening the source go back in the history? -/
def RollsBack (s : Source ι σ) : Prop := s.isAtRest = true ∧ s.failures ≠ 0

/-- The stored position is of a server, and it is where the source believes it to be, if the source
believes anything. -/
structure Tidy (store : Store σ) (Sound : σ → Prop) (u : String) (s : Source ι σ) : Prop where
  sound : Sound s.stored
  server : ∀ p, store.position? s.stored = some p → p.server = some u
  saved : ∀ q p, s.saved = some q → store.position? s.stored = some p → q.position = p

theorem Tidy.of_position {s' : Source ι σ} (h : Tidy store Sound u s) (hsound : Sound s'.stored)
    (hp : store.position? s'.stored = store.position? s.stored) (hs : s'.saved = s.saved) :
    Tidy store Sound u s' where
  sound := hsound
  server := hp ▸ h.server
  saved := hp ▸ hs ▸ h.saved

/-- What a call does to the stored position. -/
inductive Moves (store : Store σ) (c : Call ι) (s s' : Source ι σ) : Prop where
  /-- A checkpoint is passed over only if the source believes something to be stored. -/
  | stays (h : store.position? s'.stored = store.position? s.stored)
      (hc : ∀ m, c = .checkpoint (some (.row m)) → s.saved ≠ none)
  /-- The point of a checkpoint is not behind what the source believes to be stored. -/
  | moves {m : RowMutation} (hc : c = .checkpoint (some (.row m)))
      (h : store.position? s'.stored = some (ResumePoint.after m).position)
      (hsaved : ∀ q, s.saved = some q →
        (ResumePoint.after m).position.compareTo q.position ≠ .lt)

/-! ## Opening -/

/-- An attempt begins at the stored point, or at the initial one if nothing is stored, and what is
stored stays. -/
theorem startPoint_of_no_failures (hr : store.Reliable Sound Fit) (hs : Sound s.stored)
    (hf : s.failures = 0) : ∃ p? g t, store.readPoint s.stored = .ok p? ∧
      s.startPoint store = (.ok (p?.getD s.initialPoint), { s with history := g, stored := t }) ∧
      Sound t ∧ store.readPoint t = store.readPoint s.stored := by
  obtain ⟨p?, hp⟩ := hr.readPoint s.stored hs
  obtain ⟨hok, hsound, hread⟩ :=
    hr.saveHistory s.stored (s.history.remember (p?.getD s.initialPoint)).points hs
  have hstart := startPoint_of_read hf hp fun _ => Prod.ext hok rfl
  by_cases htop : s.history.last? = some (p?.getD s.initialPoint)
  · rw [if_pos htop] at hstart
    exact ⟨p?, _, _, hp, hstart, hs, rfl⟩
  · rw [if_neg htop] at hstart
    exact ⟨p?, _, _, hp, hstart, hsound, hread⟩

/-- Opening does not move what is stored, unless it goes back. -/
theorem tidy_openFeed (client : LogClient ω) (hr : store.Reliable Sound Fit)
    (h : Tidy store Sound u s) (hs : ¬ s.RollsBack) (w : ω) :
    Tidy store Sound u (s.openFeed client store w).2.1 ∧
      store.position? (s.openFeed client store w).2.1.stored = store.position? s.stored := by
  have hstart (hrest : s.isAtRest = true) := startPoint_of_no_failures
    (s := { s with connection := .idle }) hr h.sound (by
      by_contra hf
      exact hs ⟨hrest, hf⟩)
  rcases hx : s.openFeed client store w with ⟨r, s', w'⟩
  cases hx ▸ opened_openFeed client store s w with
  | going _ => exact ⟨h, rfl⟩
  | stranded _ => exact ⟨h, rfl⟩
  | unprepared hrest hstart' =>
    obtain ⟨p?, g, t, -, heq, -⟩ := hstart hrest
    cases heq.symm.trans hstart'
  | refused hrest hstart' _ =>
    obtain ⟨p?, g, t, -, heq, hsound, hread⟩ := hstart hrest
    cases heq.symm.trans hstart'
    rename_i e _
    obtain ⟨n, hn⟩ := countFailure_eq e
      { s with history := g, stored := t, connection := .idle }
    have hsame := Store.position?_congr hread
    simp only [hn]
    exact ⟨h.of_position hsound hsame rfl, hsame⟩
  | begun hrest hstart' _ =>
    obtain ⟨p?, g, t, hp, heq, hsound, hread⟩ := hstart hrest
    cases heq.symm.trans hstart'
    have hsame := Store.position?_congr hread
    -- The source believes what it has read, and this is what is still stored.
    refine ⟨⟨hsound, fun p hheld => h.server p (hsame ▸ hheld), fun q p hq hheld => ?_⟩, hsame⟩
    cases hq
    have hheld : p?.map (·.position) = some p := by
      simpa only [Store.position?, hread, hp] using hheld
    obtain ⟨q, rfl, rfl⟩ := Option.map_eq_some_iff.1 hheld
    rfl

/-! ## Checkpoints -/

/-- A point that is stored is where the source believes it to be. -/
theorem tidy_store (hr : store.Reliable Sound Fit) (h : Tidy store Sound u s) {p : ResumePoint}
    (hfit : Fit p) (hp : p.position.server = some u) :
    Tidy store Sound u (s.store store p).2 ∧
      store.position? (s.store store p).2.stored = some p.position := by
  obtain ⟨hsave, hsound, hheld⟩ := hr.savePoint s.stored p h.sound hfit
  obtain ⟨hadd, hsound, hread⟩ :=
    hr.saveHistory (store.savePoint p s.stored).2 (s.history.remember p).points hsound
  have heq := store_of_saved (s := s) (Prod.ext hsave rfl) (Prod.ext hadd rfl)
  have hheld : store.position? (s.store store p).2.stored = some p.position := by
    rw [heq, ← hheld]
    unfold Store.position?
    rw [hread]
  refine ⟨⟨heq ▸ hsound, fun q hq => ?_, fun q p' hq hp' => ?_⟩, hheld⟩
  · cases hheld.symm.trans hq
    exact hp
  · cases hheld.symm.trans hp'
    rw [heq] at hq
    cases hq
    rfl

theorem tidy_checkpoint (hr : store.Reliable Sound Fit) (h : Tidy store Sound u s)
    {m? : Option Mutation} (hm : ∀ m, m? = some (.row m) →
      Fit (.after m) ∧ (ResumePoint.after m).position.server = some u) :
    Tidy store Sound u (s.checkpoint store m?).2 ∧
      Moves store (.checkpoint m?) s (s.checkpoint store m?).2 := by
  rcases checkpoint_cases store m? s with ⟨heq, hbelieves⟩ | ⟨m, rfl, heq, hnew⟩
  · rw [heq]
    exact ⟨h, .stays rfl fun m hm => hbelieves m (Call.checkpoint.inj hm)⟩
  · obtain ⟨hfit, hserver⟩ := hm m rfl
    obtain ⟨htidy, hheld⟩ := tidy_store hr h hfit hserver
    rw [heq]
    exact ⟨htidy, .moves rfl hheld fun q hq => (hnew q hq).2⟩

/-! ## Any calls -/

variable [DecidableEq ι] (client : LogClient ω) (audience : SourceAudience ι ω)

/-- One call moves the stored position at most to the point of a checkpoint. -/
theorem tidy_perform (hr : store.Reliable Sound Fit) {c : Call ι} {x : Source ι σ × ω}
    (h : Tidy store Sound u x.1) (hback : c = .openFeed → ¬ x.1.RollsBack)
    (hm : ∀ m, c = .checkpoint (some (.row m)) →
      Fit (.after m) ∧ (ResumePoint.after m).position.server = some u) :
    Tidy store Sound u (perform client audience store c x).2.1 ∧
      Moves store c x.1 (perform client audience store c x).2.1 := by
  cases hq : c.isQuiet with
  | true =>
    obtain ⟨hp, -⟩ := sameProgress_perform client audience store hq x
    have hsame := congrArg store.position? hp.stored
    refine ⟨h.of_position (hp.stored ▸ h.sound) hsame hp.saved, .stays hsame fun m hm => ?_⟩
    rw [hm] at hq
    cases hq
  | false =>
    cases c with
    | openFeed =>
      obtain ⟨htidy, hsame⟩ := tidy_openFeed client hr h (hback rfl) x.2
      exact ⟨htidy, .stays hsame fun _ h => nomatch h⟩
    | checkpoint m? => exact tidy_checkpoint hr h fun m hm? => hm m (hm? ▸ rfl)
    | _ => cases hq

variable {cs : List (Call ι)} {w : ω}

section Run

variable (hr : store.Reliable Sound Fit) (h : Tidy store Sound u s)
  (hback : ∀ i, cs[i]? = some .openFeed →
    ¬ (after client audience store (cs.take i) (s, w)).1.RollsBack)
  (hm : ∀ m, .checkpoint (some (.row m)) ∈ cs →
    Fit (.after m) ∧ (ResumePoint.after m).position.server = some u)

include hr h hback hm

/-- What is stored and what the source believes stay in order, call by call. -/
theorem tidy_take (i : Nat) :
    Tidy store Sound u (after client audience store (cs.take i) (s, w)).1 := by
  induction i with
  | zero => exact h
  | succ i ih =>
    cases hc : cs[i]? with
    | none =>
      rw [List.take_add_one, hc, Option.toList_none, List.append_nil]
      exact ih
    | some c =>
      rw [after_take_succ client audience store hc]
      exact (tidy_perform client audience hr ih (fun ho => hback i (ho ▸ hc)) fun m hm' =>
        hm m (hm' ▸ List.mem_of_getElem? hc)).1

/-- Every call moves the stored position at most to the point of a checkpoint. -/
theorem moves_take {i : Nat} {c : Call ι} (hc : cs[i]? = some c) :
    Moves store c (after client audience store (cs.take i) (s, w)).1
      (after client audience store (cs.take (i + 1)) (s, w)).1 := by
  rw [after_take_succ client audience store hc]
  exact (tidy_perform client audience hr (tidy_take client audience hr h hback hm i)
    (fun ho => hback i (ho ▸ hc)) fun m hm' => hm m (hm' ▸ List.mem_of_getElem? hc)).2

/-- The stored position does not move back from call to call, if no checkpoint is behind it that is
made while the source believes nothing to be stored. -/
theorem rank_le_of_le
    (hfirst : ∀ i m, cs[i]? = some (.checkpoint (some (.row m))) →
      (after client audience store (cs.take i) (s, w)).1.saved = none →
        ∀ p, store.position? (after client audience store (cs.take i) (s, w)).1.stored = some p →
          (ResumePoint.after m).position.compareTo p ≠ .lt)
    {i j : Nat} (hij : i ≤ j) {p : LogPosition}
    (hp : store.position? (after client audience store (cs.take i) (s, w)).1.stored = some p) :
    ∃ q, store.position? (after client audience store (cs.take j) (s, w)).1.stored = some q ∧
      p.rank ≤ q.rank := by
  induction hij with
  | refl => exact ⟨p, hp, Nat.le_refl _⟩
  | @step j _ ih =>
    obtain ⟨q, hq, hle⟩ := ih
    have htidy := tidy_take client audience hr h hback hm j
    cases hc : cs[j]? with
    | none =>
      rw [List.take_add_one, hc, Option.toList_none, List.append_nil]
      exact ⟨q, hq, hle⟩
    | some c =>
      cases moves_take client audience hr h hback hm hc with
      | stays hsame _ => exact ⟨q, hsame.trans hq, hle⟩
      | @moves m hcm hmoved hsaved =>
        have hmu := (hm m (hcm ▸ List.mem_of_getElem? hc)).2
        refine ⟨_, hmoved, Nat.le_trans hle ?_⟩
        rw [← LogPosition.compareTo_ne_lt_iff (htidy.server q hq) hmu]
        -- The point was compared with what is believed to be stored, if anything is.
        cases hbelief : (after client audience store (cs.take j) (s, w)).1.saved with
        | none => exact hfirst j m (hcm ▸ hc) hbelief q hq
        | some b =>
          rw [← htidy.saved b q hbelief hq]
          exact hsaved b hbelief

end Run

/-- **When the stored position never moves back.** A source is built over a store that does not
fail, and which may hold a point from before. No opening goes back in the history, and the stored
point and those of the checkpoints are of one server. Then the stored position never moves back, if
and only if no checkpoint moves it back that is made while the source does not believe anything to
be stored, that is before it is opened with success or makes a checkpoint for the first time. -/
theorem never_moves_back_iff (hr : store.Reliable Sound Fit) {plan : SourcePlan} {stored : σ}
    (hbuild : plan.build store stored = .ok s) (hsound : Sound stored)
    (hserver : ∀ p, store.position? stored = some p → p.server = some u)
    (hback : ∀ i, cs[i]? = some .openFeed →
      ¬ (after client audience store (cs.take i) (s, w)).1.RollsBack)
    (hm : ∀ m, .checkpoint (some (.row m)) ∈ cs →
      Fit (.after m) ∧ (ResumePoint.after m).position.server = some u) :
    let source (i : Nat) := (after client audience store (cs.take i) (s, w)).1
    let held (i : Nat) := store.position? (source i).stored
    (∀ i j, i ≤ j → ∀ p, held i = some p → ∃ q, held j = some q ∧ q.compareTo p ≠ .lt) ↔
      ∀ i m, cs[i]? = some (.checkpoint (some (.row m))) → (source i).saved = none →
        ∀ p, held i = some p → (ResumePoint.after m).position.compareTo p ≠ .lt := by
  intro source held
  obtain ⟨-, hstored, -, hsaved, -⟩ := SourcePlan.build_eq_ok hbuild
  have hstart : Tidy store Sound u s := by
    refine ⟨hstored ▸ hsound, hstored ▸ hserver, fun q p hq => ?_⟩
    rw [hsaved] at hq
    cases hq
  have htidy (i : Nat) : Tidy store Sound u (source i) :=
    tidy_take client audience hr hstart hback hm i
  constructor
  · intro hforward i m hc hnone p hp
    cases moves_take client audience hr hstart hback hm hc with
    | stays _ hbelieves => exact absurd hnone (hbelieves m rfl)
    | moves hc' h _ =>
      cases hc'
      obtain ⟨q, hq, hle⟩ := hforward i (i + 1) (Nat.le_succ i) p hp
      cases h.symm.trans hq
      exact hle
  · intro hfirst i j hij p hp
    obtain ⟨q, hq, hle⟩ := rank_le_of_le client audience hr hstart hback hm hfirst hij hp
    exact ⟨q, hq, (LogPosition.compareTo_ne_lt_iff ((htidy i).server p hp)
      ((htidy j).server q hq)).2 hle⟩

/-- A checkpoint before the first opening is ahead of what is stored, and one after it is behind. -/
theorem never_moves_back_early :
    let client : LogClient Unit := ⟨fun _ w => (.ok (), w), fun w => (.nothing, w), id⟩
    let audience : SourceAudience Unit Unit :=
      ⟨fun _ _ w => w, fun _ _ w => (.accepted, w), fun _ _ w => w⟩
    let plan : SourcePlan := { name := "shop" }
    let place (n : UInt64) : LogPosition := ⟨"bin.000001", n, n, none, some "a"⟩
    let m (n : UInt64) : RowMutation :=
      .delete ⟨⟨n.toInt64, 0⟩, default, place n, default, 1, none, 0⟩ default
    let s : Source Unit Memory :=
      { name := "shop", tables := [], initialPosition := plan.startPosition,
        stored := ⟨some (.after (m 5)), []⟩, history := ⟨"shop", plan.historySize, []⟩,
        saved := none, failures := 0, violations := 0,
        reader := .start [] plan.startPosition (.new ⟨"127.0.0.1", 3306, "shop"⟩ .default),
        connection := .idle, listeners := .empty }
    let checkpoint (n : UInt64) : Call Unit := .checkpoint (some (.row (m n)))
    let cs := [checkpoint 7, .openFeed, checkpoint 6, .closeFeed, .openFeed]
    let held (i : Nat) :=
      Store.memory.position? (after client audience .memory (cs.take i) (s, ())).1.stored
    plan.build .memory ⟨some (.after (m 5)), []⟩ = .ok s ∧ held 0 = some (place 5) ∧
      held 5 = some (place 7) ∧
      ∀ i j, i ≤ j → ∀ p, held i = some p → ∃ q, held j = some q ∧ q.compareTo p ≠ .lt := by
  intro client audience plan place m s checkpoint cs held
  have hbuild : plan.build .memory ⟨some (.after (m 5)), []⟩ = .ok s := rfl
  have hfailures : ∀ i < 5, (after client audience .memory (cs.take i) (s, ())).1.failures = 0 := by
    decide
  have hbelief : ∀ i < 5, (after client audience .memory (cs.take i) (s, ())).1.saved = none →
      i = 0 := by decide
  have hlt {i : Nat} {c : Call Unit} (hc : cs[i]? = some c) : i < 5 :=
    (List.getElem?_eq_some_iff.1 hc).1
  refine ⟨hbuild, rfl, by decide, (never_moves_back_iff client audience Store.reliable_memory
    hbuild trivial (u := "a") ?_ ?_ ?_).2 ?_⟩
  · rintro p ⟨⟩
    rfl
  · intro i hi hroll
    exact hroll.2 (hfailures i (hlt hi))
  · intro m' hm'
    have hcases : m' = m 7 ∨ m' = m 6 := by simpa [cs, checkpoint] using hm'
    rcases hcases with rfl | rfl
    · exact ⟨trivial, rfl⟩
    · exact ⟨trivial, rfl⟩
  · intro i m' hi hnone p hp
    obtain rfl := hbelief i (hlt hi) hnone
    cases hi
    cases hp
    decide

/-- A source that was not opened yet stores a point in front of the one in its store. -/
theorem moves_back_before_opening :
    let client : LogClient Unit := ⟨fun _ w => (.ok (), w), fun w => (.nothing, w), id⟩
    let audience : SourceAudience Unit Unit :=
      ⟨fun _ _ w => w, fun _ _ w => (.accepted, w), fun _ _ w => w⟩
    let plan : SourcePlan := { name := "shop" }
    let place (n : UInt64) : LogPosition := ⟨"bin.000001", n, n, none, some "a"⟩
    let m (n : UInt64) : RowMutation :=
      .delete ⟨⟨n.toInt64, 0⟩, default, place n, default, 1, none, 0⟩ default
    ∃ s : Source Unit Memory, plan.build .memory ⟨some (.after (m 500)), []⟩ = .ok s ∧
      let s' := (after client audience .memory [.checkpoint (some (.row (m 100)))] (s, ())).1
      Store.memory.position? s.stored = some (place 500) ∧
        Store.memory.position? s'.stored = some (place 100) ∧
        (place 100).compareTo (place 500) = .lt := by
  intro client audience plan place m
  exact ⟨_, rfl, rfl, rfl, by decide⟩

end Source

end ChangeFeed
