import ChangeFeed.Destination.Worker
import Mathlib.Tactic.Common

/-!
# What a worker holds

**What is under way** (`held`). The batch of a worker and the dispatches in its queue. What is not
published yet (`unpublished`) is the same without a batch that is being acknowledged.

**The invariant** (`Sane`). A batch is as large as it may be at most, whoever has no thread has no
batch, and the message to stop is the last one in a queue. Each operation on a worker keeps it.
-/

namespace ChangeFeed

/-- The dispatch that a message carries. -/
def WorkerMessage.dispatch? : WorkerMessage → Option Dispatch
  | .dispatch x => some x
  | .stop => none

namespace Worker

/-- The dispatches in the queue of a worker. -/
def queued (w : Worker) : List Dispatch := w.queue.filterMap WorkerMessage.dispatch?

theorem isCollecting_iff {w : Worker} :
    w.isCollecting = true ↔ w.status = .running ∧ w.phase = .collecting := by
  simp [Worker.isCollecting]

theorem isIdle_iff {w : Worker} : w.isIdle = true ↔ w.isCollecting = true ∧ w.batch = [] := by
  simp [Worker.isIdle]

theorem pull_cases (n : Nat) (w : Worker) :
    w.pull n = w ∨
      w.isCollecting = true ∧ w.stopping = false ∧ w.batch.length < n ∧
        ((∃ x rest, w.queue = .dispatch x :: rest ∧
            w.pull n = { w with queue := rest, batch := w.batch ++ [x] }) ∨
          ∃ rest, w.queue = .stop :: rest ∧
            w.pull n = { w with queue := rest, stopping := true }) := by
  unfold pull
  split
  · rename_i hc
    simp only [Bool.and_eq_true, Bool.not_eq_true', decide_eq_true_eq] at hc
    cases hq : w.queue with
    | nil => exact Or.inl rfl
    | cons m rest =>
      refine Or.inr ⟨hc.1.1, hc.1.2, hc.2, ?_⟩
      cases m with
      | dispatch x => exact Or.inl ⟨x, rest, rfl, rfl⟩
      | stop => exact Or.inr ⟨rest, rfl, rfl⟩
  · exact Or.inl rfl

@[simp] theorem queued_push (w : Worker) (x : Dispatch) :
    (w.push (.dispatch x)).queued = w.queued ++ [x] := by
  simp [queued, push, WorkerMessage.dispatch?]

@[simp] theorem queued_push_stop (w : Worker) : (w.push .stop).queued = w.queued := by
  simp [queued, push, WorkerMessage.dispatch?]

theorem queued_of_nil {w : Worker} (h : w.queue = []) : w.queued = [] := by
  rw [queued, h]
  rfl

/-- What a worker must see to, in its batch and in its queue. -/
def held (w : Worker) : List Dispatch := w.batch ++ w.queued

/-- The batch, unless it is published. One that was refused counts as long as the worker has it. -/
def unsent (w : Worker) : List Dispatch :=
  match w.phase with
  | .acknowledging _ => []
  | _ => w.batch

theorem held_push (w : Worker) (x : Dispatch) : (w.push (.dispatch x)).held = w.held ++ [x] := by
  rw [held, queued_push, ← List.append_assoc]
  rfl

theorem held_pulled {w : Worker} {x : Dispatch} {rest : List WorkerMessage}
    (hq : w.queue = .dispatch x :: rest) :
    held { w with queue := rest, batch := w.batch ++ [x] } = w.held := by
  simp [held, queued, hq, WorkerMessage.dispatch?]

theorem held_heardStop {w : Worker} {rest : List WorkerMessage} (hq : w.queue = .stop :: rest) :
    held { w with queue := rest, stopping := true } = w.held := by
  unfold held queued
  rw [hq]
  rfl

theorem held_drop (w : Worker) : w.drop.held.Sublist w.held :=
  List.sublist_append_right _ _

theorem held_start (w : Worker) : w.start.held.Sublist w.held :=
  List.sublist_append_right _ _

theorem held_told (w : Worker) :
    (if w.hasThread && w.hasQueue then w.push .stop else w).held = w.held := by
  split
  · rw [held, queued_push_stop]
    rfl
  · rfl

theorem held_join (w : Worker) : w.join.held.Sublist w.held := by
  unfold join
  split
  · exact List.nil_sublist _
  · exact List.nil_sublist _
  · exact List.Sublist.refl _
  · exact List.Sublist.refl _

/-- What is not published yet. -/
def unpublished (w : Worker) : List Dispatch := w.unsent ++ w.queued

theorem unsent_of_collecting {w : Worker} (h : w.phase = .collecting) : w.unsent = w.batch := by
  unfold unsent
  rw [h]

theorem unsent_sublist (w : Worker) : w.unsent.Sublist w.batch := by
  unfold unsent
  split
  · exact List.nil_sublist _
  · exact List.Sublist.refl _

theorem unpublished_sublist (w : Worker) : w.unpublished.Sublist w.held :=
  w.unsent_sublist.append_right _

theorem queued_sublist (w : Worker) : w.queued.Sublist w.unpublished :=
  List.sublist_append_right _ _

theorem unpublished_drop (w : Worker) : w.drop.unpublished ⊆ w.unpublished :=
  (queued_sublist w).subset

theorem unpublished_acknowledging (w : Worker) (left : List Nat) :
    unpublished { w with phase := .acknowledging left } = w.queued :=
  rfl

theorem unpublished_publishing {w : Worker} (hp : w.phase = .collecting) :
    unpublished { w with phase := .publishing } = w.unpublished := by
  rw [unpublished, unpublished, unsent_of_collecting hp]
  rfl

/-- A batch that was refused is as little published as before. -/
theorem unpublished_failing {w : Worker} (hp : w.phase = .publishing) (e : Error) :
    unpublished { w with phase := .failing e } = w.unpublished := by
  simp [unpublished, unsent, queued, hp]

theorem unpublished_of_publishing {w : Worker} (hp : w.phase = .publishing) :
    w.unpublished = w.batch ++ w.queued := by
  simp [unpublished, unsent, hp]

theorem unpublished_of_acknowledging {w : Worker} {left : List Nat}
    (hp : w.phase = .acknowledging left) : w.unpublished = w.queued := by
  simp [unpublished, unsent, hp]

theorem unpublished_push (w : Worker) (x : Dispatch) :
    (w.push (.dispatch x)).unpublished = w.unpublished ++ [x] := by
  rw [unpublished, queued_push, ← List.append_assoc]
  rfl

theorem unpublished_pulled {w : Worker} (hp : w.phase = .collecting) {x : Dispatch}
    {rest : List WorkerMessage} (hq : w.queue = .dispatch x :: rest) :
    unpublished { w with queue := rest, batch := w.batch ++ [x] } = w.unpublished := by
  simp [unpublished, unsent, queued, hp, hq, WorkerMessage.dispatch?]

theorem unpublished_heardStop {w : Worker} {rest : List WorkerMessage}
    (hq : w.queue = .stop :: rest) :
    unpublished { w with queue := rest, stopping := true } = w.unpublished := by
  unfold unpublished unsent queued
  rw [hq]
  rfl

theorem unpublished_start (w : Worker) : w.start.unpublished.Sublist w.unpublished :=
  queued_sublist w

theorem unpublished_told (w : Worker) :
    (if w.hasThread && w.hasQueue then w.push .stop else w).unpublished = w.unpublished := by
  split
  · rw [unpublished, queued_push_stop]
    rfl
  · rfl

/-- Nothing about the worker contradicts itself. `n` is the largest size of a batch, and `closing`
tells whether workers have been told to stop. -/
structure Sane (n : Nat) (closing : Bool) (w : Worker) : Prop where
  size : w.batch.length ≤ n
  busy : w.phase ≠ .collecting → w.status = .running ∧ w.batch ≠ []
  idle : w.status ≠ .running → w.batch = []
  gone : w.hasQueue = false → w.queue = []
  shape : w.queue = w.queued.map .dispatch ++
    if w.status = .running ∧ closing = true ∧ w.stopping = false then [.stop] else []
  stopped : w.status = .running → w.stopping = true → closing = true ∧ w.queue = []
  ended : w.status = .exited → closing = true ∧ w.queue = []

variable {n : Nat} {c : Bool} {w : Worker}

theorem Sane.collecting (h : w.Sane n c) (hs : w.status ≠ .running) : w.phase = .collecting := by
  by_contra hp
  exact hs (h.busy hp).1

theorem unpublished_join (h : w.Sane n c) (ht : w.hasThread = true) :
    w.join.unpublished = [] := by
  unfold join
  cases hs : w.status with
  | running => rfl
  | exited => rfl
  | crashed =>
    have hr : w.status ≠ .running := by
      rw [hs]
      exact nofun
    simp [unpublished, unsent, queued, h.collecting hr, h.idle hr,
      h.gone (by simp [hasQueue, hs])]
  | parked => simp [hasThread, hs] at ht
  | lost => simp [hasThread, hs] at ht

theorem Sane.push (h : w.Sane n false) (hq : w.hasQueue = true) (x : Dispatch) :
    (w.push (.dispatch x)).Sane n false where
  size := h.size
  busy := h.busy
  idle := h.idle
  gone := fun hg => absurd hq (by simpa [Worker.push, hasQueue] using hg)
  shape := by
    have hs := h.shape
    simp only [Bool.false_eq_true, false_and, and_false, if_false, List.append_nil] at hs ⊢
    rw [queued_push, List.map_append, ← hs]
    rfl
  stopped := fun hr hs => absurd (h.stopped hr hs).1 Bool.false_ne_true
  ended := fun he => absurd (h.ended he).1 Bool.false_ne_true

theorem Sane.pulled (h : w.Sane n c) (hc : w.isCollecting = true) (hs : w.stopping = false)
    (hlt : w.batch.length < n) {x : Dispatch} {rest : List WorkerMessage}
    (hq : w.queue = .dispatch x :: rest) :
    Worker.Sane n c { w with queue := rest, batch := w.batch ++ [x] } where
  size := by simpa using Nat.succ_le_of_lt hlt
  busy := fun hp => absurd (isCollecting_iff.1 hc).2 hp
  idle := fun hr => absurd (isCollecting_iff.1 hc).1 hr
  gone := fun hg => by simp [hasQueue, (isCollecting_iff.1 hc).1] at hg
  shape := by
    have hshape := h.shape
    rw [hq] at hshape
    simpa [queued, hq, WorkerMessage.dispatch?] using hshape
  stopped := fun _ hs' => by simp [hs] at hs'
  ended := fun he => by simp [(isCollecting_iff.1 hc).1] at he

/-- The message to stop is the last one, so nothing is left once it was taken. -/
theorem Sane.stop_last (h : w.Sane n c) {rest : List WorkerMessage}
    (hq : w.queue = .stop :: rest) : c = true ∧ rest = [] := by
  have hshape := h.shape
  rw [hq] at hshape
  cases hd : w.queued with
  | nil =>
    rw [hd] at hshape
    split at hshape
    · rename_i hc
      exact ⟨hc.2.1, (List.cons.inj hshape).2⟩
    · cases hshape
  | cons x xs =>
    rw [hd] at hshape
    cases hshape

theorem Sane.heardStop (h : w.Sane n c) (hc : w.isCollecting = true)
    {rest : List WorkerMessage} (hq : w.queue = .stop :: rest) :
    Worker.Sane n c { w with queue := rest, stopping := true } where
  size := h.size
  busy := h.busy
  idle := h.idle
  gone := fun _ => (h.stop_last hq).2
  shape := by simp [queued, (h.stop_last hq).2]
  stopped := fun _ _ => h.stop_last hq
  ended := fun he => by simp [(isCollecting_iff.1 hc).1] at he

theorem Sane.drop (h : w.Sane n c) : w.drop.Sane n c where
  size := Nat.zero_le n
  busy := fun hp => absurd rfl hp
  idle := fun _ => rfl
  gone := h.gone
  shape := h.shape
  stopped := h.stopped
  ended := h.ended

/-- A running worker with a batch may be in any phase. -/
theorem Sane.turned (h : w.Sane n c) (hr : w.status = .running) (hb : w.batch ≠ [])
    (p : WorkerPhase) : Worker.Sane n c { w with phase := p } where
  size := h.size
  busy := fun _ => ⟨hr, hb⟩
  idle := h.idle
  gone := h.gone
  shape := h.shape
  stopped := h.stopped
  ended := h.ended

theorem sane_crash (n : Nat) (c : Bool) (w : Worker) : w.crash.Sane n c where
  size := Nat.zero_le n
  busy := fun hp => absurd rfl hp
  idle := fun _ => rfl
  gone := fun _ => rfl
  shape := by simp [crash, queued]
  stopped := fun hr => by simp [crash] at hr
  ended := fun he => by simp [crash] at he

theorem Sane.exited (h : w.Sane n c) (hc : w.isCollecting = true) (hs : w.stopping = true)
    (hb : w.batch = []) : Worker.Sane n c { w with status := .exited } where
  size := h.size
  busy := fun hp => absurd (isCollecting_iff.1 hc).2 hp
  idle := fun _ => hb
  gone := fun hg => by simp [hasQueue] at hg
  shape := by simp [queued, (h.stopped (isCollecting_iff.1 hc).1 hs).2]
  stopped := fun hr => by simp at hr
  ended := fun _ => h.stopped (isCollecting_iff.1 hc).1 hs

/-- Without a thread it does not matter whether workers are told to stop. -/
theorem Sane.recast (h : w.Sane n c) (hr : w.status ≠ .running) (he : w.status ≠ .exited)
    (c' : Bool) : w.Sane n c' where
  size := h.size
  busy := h.busy
  idle := h.idle
  gone := h.gone
  shape := by simpa [hr] using h.shape
  stopped := fun hr' => absurd hr' hr
  ended := fun he' => absurd he' he

theorem Sane.start (h : w.Sane n false) : w.start.Sane n false where
  size := Nat.zero_le n
  busy := fun hp => absurd rfl hp
  idle := fun _ => rfl
  gone := fun hg => by simp [Worker.start, hasQueue] at hg
  shape := by simpa [Worker.start, queued] using h.shape
  stopped := fun _ hs => by simp [Worker.start] at hs
  ended := fun he => by simp [Worker.start] at he

theorem Sane.toldToStop (h : w.Sane n false) :
    (if w.hasThread && w.hasQueue then w.push .stop else w).Sane n true := by
  by_cases hr : w.status = .running
  · have hs : w.stopping = false := by
      by_contra hs
      exact Bool.false_ne_true (h.stopped hr (by simpa using hs)).1
    have hshape := h.shape
    simp only [Bool.false_eq_true, false_and, and_false, if_false, List.append_nil] at hshape
    rw [if_pos (by simp [hasThread, hasQueue, hr])]
    exact {
      size := h.size
      busy := h.busy
      idle := h.idle
      gone := fun hg => by simp [Worker.push, hasQueue, hr] at hg
      shape := by
        rw [queued_push_stop, ← hshape, if_pos ⟨hr, rfl, hs⟩]
        rfl
      stopped := fun _ hs' => Bool.noConfusion (hs.symm.trans hs')
      ended := fun he => WorkerStatus.noConfusion (hr.symm.trans he) }
  · have he : w.status ≠ .exited := fun he => Bool.false_ne_true (h.ended he).1
    have hn : ¬(w.hasThread && w.hasQueue) = true := by
      cases hw : w.status <;> simp_all [hasThread, hasQueue]
    rw [if_neg hn]
    exact h.recast hr he true

theorem Sane.join (h : w.Sane n c) (hr : w.status ≠ .running) : w.join.Sane n false := by
  unfold Worker.join
  split
  · rename_i hw
    exact absurd hw hr
  · exact {
      size := Nat.zero_le n
      busy := fun hp => absurd rfl hp
      idle := fun _ => rfl
      gone := fun _ => rfl
      shape := by simp [queued]
      stopped := fun hr => by simp at hr
      ended := fun he => by simp at he }
  · rename_i hw
    have hq := h.gone (by simp [hasQueue, hw])
    exact {
      size := h.size
      busy := fun hp => absurd (h.collecting hr) hp
      idle := fun _ => h.idle hr
      gone := fun _ => hq
      shape := by simp [queued, hq]
      stopped := fun hr => by simp at hr
      ended := fun he => by simp at he }
  · rename_i he hc
    exact h.recast hr (by simpa using he) false

end Worker

end ChangeFeed
