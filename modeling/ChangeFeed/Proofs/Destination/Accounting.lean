import ChangeFeed.Proofs.Destination.Balance
import ChangeFeed.Proofs.Destination.Entities

/-!
# Every dispatch is accounted for

A destination is used by one caller, who opens it, sends and closes in any order, and no worker
crashes. What its tracker has pending is then told by where the dispatches are.

**Not acknowledged** (`Depot.Unacknowledged`). A dispatch is queued (`Depot.Queued`), in the hands
of a worker, or it was dropped (`Depot.Dropped`). Nothing is dropped before a batch was refused.

**Closing** (`Depot.Cleared`). After an open destination is closed it is as before it was opened
first: nothing is pending, every worker waits for a thread with an empty queue, and nothing that was
tracked so far is ever published (`Depot.Since`).

**Failures** (`Depot.LeavesNothing`). A call of sending that fails leaves no entry for the mutation
that it fails with.

Main result: `Depot.dispatches_accounted`.
-/

namespace ChangeFeed

namespace Worker

/-- The batch of a worker without what the worker has confirmed. -/
def unconfirmed (w : Worker) : List Dispatch :=
  match w.phase with
  | .acknowledging left => w.batch.filter (·.seq ∈ left)
  | _ => w.batch

theorem mem_unconfirmed {w : Worker} {x : Dispatch} :
    x ∈ w.unconfirmed ↔ x ∈ w.unsent ∨ x ∈ w.batch ∧ x.seq ∈ w.toConfirm := by
  cases hp : w.phase <;> simp [unconfirmed, unsent, toConfirm, hp]

theorem phase_of_mem_toConfirm {w : Worker} {q : Nat} (h : q ∈ w.toConfirm) :
    w.phase = .acknowledging w.toConfirm := by
  cases hp : w.phase with
  | acknowledging left => rw [toConfirm_of_acknowledging hp]
  | collecting =>
    rw [toConfirm_of_collecting hp] at h
    cases h
  | publishing =>
    rw [toConfirm_of_publishing hp] at h
    cases h
  | failing e =>
    rw [toConfirm_of_failing hp] at h
    cases h

end Worker

namespace Destination

variable {ι : Type}

/-- Mutations are only routed to workers that there are. -/
theorem lt_of_route {d : Destination ι} (hd : 0 < d.poolSize) {m : Mutation} {i : Nat}
    (h : d.route m = .ok i) : i < d.poolSize := by
  unfold route at h
  split at h
  · cases h
    exact hd
  · cases hk : m.key with
    | error e =>
      rw [hk] at h
      cases h
    | ok key =>
      rw [hk] at h
      cases h
      exact Nat.mod_lt _ hd

/-- A dispatch that its worker turns away is not tracked any more. -/
theorem tracker_of_refused {d d' : Destination ι} {i : Nat} {x : Dispatch} {e : Error}
    (h : d.place i x = (.refused e, d')) : d'.tracker = d.tracker.cancel x.seq := by
  unfold place at h
  split at h
  · split at h
    · cases h
      rfl
    · split at h <;> cases h
  · cases h

theorem crashes_eq_none (name : String) (i : Nat) {ws : List Worker}
    (h : ∀ w ∈ ws, w.status ≠ .crashed) : crashes name i ws = none := by
  induction ws generalizing i with
  | nil => rfl
  | cons w ws ih =>
    obtain ⟨hw, hws⟩ := List.forall_mem_cons.1 h
    rw [crashes, ih (i + 1) hws]
    exact if_neg hw

end Destination

namespace Depot

variable {ι : Type} {s s' : Depot ι}

/-! ## What is pending -/

/-- The dispatches that the tracker has pending. -/
def awaited (s : Depot ι) : List Dispatch := s.dest.tracker.pending.map (·.dispatch)

/-- Since the destination was opened the dispatch came to a worker, who has neither published it nor
is going to. -/
def Dropped (s : Depot ι) (x : Dispatch) : Prop :=
  s.isOpen = true ∧ ∃ i w, s.dest.workers[i]? = some w ∧
    x ∈ s.routed i ∧ x ∉ s.acceptedBy i ∧ x ∉ w.unpublished

/-- The dispatch is in the queue of a worker, or the call that sends it is putting it there, and may
have to wait for room. -/
def Queued (s : Depot ι) (x : Dispatch) : Prop :=
  s.Entering x ∨ ∃ (i : Nat) (w : Worker), s.dest.workers[i]? = some w ∧ x ∈ w.queued

/-- The dispatch is tracked and not acknowledged. -/
inductive Unacknowledged (s : Depot ι) (x : Dispatch) : Prop where
  | queued (h : s.Queued x)
  /-- A worker gathers or publishes it, was refused it and has not reported that, or has yet to
  confirm it. -/
  | held {i : Nat} {w : Worker} (hw : s.dest.workers[i]? = some w) (hx : x ∈ w.unconfirmed)
  | dropped (h : s.Dropped x)

theorem Knows.exists_worker {i : Nat} {x : Dispatch} (h : s.Knows i x)
    (hpool : 0 < s.dest.poolSize) : ∃ w, s.dest.workers[i]? = some w :=
  ⟨_, List.getElem?_eq_getElem (Destination.lt_of_route hpool h.2)⟩

theorem acknowledged_iff (hflow : Flow s) (hopen : s.isOpen = true) {i : Nat} {x : Dispatch}
    (hk : s.Knows i x) :
    s.Acknowledged x ↔ x ∈ s.acceptedBy i ∧ x.seq ∉ s.toConfirm i := by
  refine ⟨fun ⟨_, j, hx, hn⟩ => ?_, fun h => ⟨hopen, i, h⟩⟩
  obtain rfl := (hflow.knows hx).eq hk rfl
  exact ⟨hx, hn⟩

/-- What came to a worker and is not acknowledged is in a queue, held, or was dropped. -/
theorem unacknowledged_of_cameTo (hs : Sound s) (hflow : s.isOpen = true → Flow s)
    (hpool : 0 < s.dest.poolSize) {i : Nat} {x : Dispatch} (hx : x ∈ s.cameTo i)
    (hn : ¬s.Acknowledged x) : s.Unacknowledged x := by
  have hk := knows_of_cameTo hs hflow hx
  obtain ⟨w, hw⟩ := hk.exists_worker hpool
  by_cases hopen : s.isOpen = true
  · rw [cameTo_of_open hopen] at hx
    rw [acknowledged_iff (hflow hopen) hopen hk] at hn
    by_cases hacc : x ∈ s.acceptedBy i
    · -- It is published, so the worker has yet to confirm it.
      have hconf : x.seq ∈ s.toConfirm i := by
        by_contra hc
        exact hn ⟨hacc, hc⟩
      rw [toConfirm_eq hw] at hconf
      have hp := Worker.phase_of_mem_toConfirm hconf
      obtain ⟨y, hy, hseq⟩ := (hs.honest.acking i w hw _ hp).1 x.seq hconf
      have hky := hs.numbered.held i w hw y (List.mem_append_left _ hy)
      -- One number is one dispatch, so this is the one that waits to be confirmed.
      obtain rfl := hky.dispatch_eq hk hseq
      exact .held hw (Worker.mem_unconfirmed.2 (Or.inr ⟨hy, hconf⟩))
    · by_cases hun : x ∈ w.unpublished
      · rcases List.mem_append.1 hun with hun | hun
        · exact .held hw (Worker.mem_unconfirmed.2 (Or.inl hun))
        · exact .queued (Or.inr ⟨i, w, hw, hun⟩)
      · exact .dropped ⟨hopen, i, w, hw, hx, hacc, hun⟩
  · rw [cameTo_of_not_open hopen, getD_queued hw] at hx
    exact .queued (Or.inr ⟨i, w, hw, hx⟩)

/-- What is in a queue, held, or was dropped waits, and a worker belongs to it. -/
theorem waits_of_unacknowledged (hs : Sound s) (hflow : s.isOpen = true → Flow s) (hcalm : Calm s)
    (h : Balanced s) {x : Dispatch} (hx : s.Unacknowledged x) :
    s.Waits x.seq ∧ ∃ i, s.Knows i x := by
  have hwait := hcalm.waiting hs
  cases hx with
  | queued hx =>
    rcases hx with ⟨i, ms, hc⟩ | ⟨i, w, hw, hx⟩
    · exact ⟨hwait.placing i x ms hc, i, (hs.numbered.placing i x ms hc).1⟩
    · have hx := (Worker.queued_sublist w).subset hx
      exact ⟨hwait.unpublished i w hw x hx, i,
        hs.numbered.held i w hw x (w.unpublished_sublist.subset hx)⟩
  | @held i w hw hx =>
    rcases Worker.mem_unconfirmed.1 hx with hx | ⟨hx, hconf⟩
    · exact ⟨hwait.unpublished i w hw x (List.mem_append_left _ hx), i,
        hs.numbered.held i w hw x (List.mem_append_left _ (w.unsent_sublist.subset hx))⟩
    · have hk := hs.numbered.held i w hw x (List.mem_append_left _ hx)
      have hp := Worker.phase_of_mem_toConfirm hconf
      have hopen := hcalm.isOpen hs hw ((hs.sane i w hw).busy (by rw [hp]; exact nofun)).1
      rw [← toConfirm_eq hw] at hconf
      obtain ⟨y, hy, hseq⟩ := (h.due i).2 x.seq hconf
      obtain rfl := ((hflow hopen).knows hy).dispatch_eq hk hseq
      have hin : y ∈ s.cameTo i := by
        rw [cameTo_of_open hopen]
        exact (prefix_of_flow ((hflow hopen).flow i w hw)).subset hy
      -- It came to the worker, and as it is not confirmed it is not acknowledged.
      refine ⟨(h.waits i y hin).resolve_left fun hack => ?_, i, hk⟩
      exact ((acknowledged_iff (hflow hopen) hopen hk).1 hack).2 hconf
  | dropped hx =>
    obtain ⟨hopen, i, w, hw, hx, hacc, -⟩ := hx
    have hk := (hflow hopen).known i x hx
    refine ⟨(h.waits i x (by rwa [cameTo_of_open hopen])).resolve_left fun hack => ?_, i, hk⟩
    exact hacc ((acknowledged_iff (hflow hopen) hopen hk).1 hack).1

theorem mem_awaited (ht : Tracked s) {x : Dispatch} (hx : s.sent[x.seq]? = some x.mutation)
    (h : ∃ p ∈ s.dest.tracker.pending, p.seq = x.seq) : x ∈ s.awaited := by
  obtain ⟨p, hp, hseq⟩ := h
  exact List.mem_map.2 ⟨p, hp, dispatch_eq_of_seq ht hp hx hseq⟩

/-- What is acknowledged and still pending stands behind a dispatch that is not acknowledged. -/
theorem exists_before_acked (hs : Sound s) (h : Balanced s) {p : PendingAck Mutation}
    (hp : p ∈ s.dest.tracker.pending) (ha : p.acked = true) :
    ∃ q ∈ s.dest.tracker.pending, q.acked = false ∧ q.seq < p.seq := by
  have hfront := h.front
  have hsorted := hs.tracked.sorted
  cases hps : s.dest.tracker.pending with
  | nil =>
    rw [hps] at hp
    cases hp
  | cons q qs =>
    rw [hps] at hfront hsorted hp
    have hq : q.acked = false := hfront q rfl
    refine ⟨q, List.mem_cons_self, hq, ?_⟩
    rcases List.mem_cons.1 hp with rfl | hp
    · rw [hq] at ha
      cases ha
    · exact (List.pairwise_cons.1 hsorted).1 p hp

theorem unacknowledged_of_not_acked (hs : Sound s) (hflow : s.isOpen = true → Flow s)
    (hpool : 0 < s.dest.poolSize) (h : Balanced s) {p : PendingAck Mutation}
    (hp : p ∈ s.dest.tracker.pending) (ha : p.acked = false) : s.Unacknowledged p.dispatch := by
  -- What is pending is being put into a queue, or it has come to a worker.
  rcases h.source p hp with hx | ⟨i, hx⟩
  · exact .queued (Or.inl hx)
  · refine unacknowledged_of_cameTo hs hflow hpool hx ?_
    rw [← h.flag p hp, ha]
    exact Bool.false_ne_true

/-- What is pending is not acknowledged, or it is acknowledged behind something that is not. -/
theorem mem_awaited_iff (hs : Sound s) (hflow : s.isOpen = true → Flow s)
    (hpool : 0 < s.dest.poolSize) (hcalm : Calm s) (h : Balanced s) (x : Dispatch) :
    x ∈ s.awaited ↔
      s.Unacknowledged x ∨ s.Acknowledged x ∧ ∃ y, s.Unacknowledged y ∧ y.seq < x.seq := by
  constructor
  · intro hx
    obtain ⟨p, hp, rfl⟩ := List.mem_map.1 hx
    cases ha : p.acked with
    | false => exact Or.inl (unacknowledged_of_not_acked hs hflow hpool h hp ha)
    | true =>
      obtain ⟨q, hq, hqa, hlt⟩ := exists_before_acked hs h hp ha
      exact Or.inr ⟨(h.flag p hp).1 ha, q.dispatch,
        unacknowledged_of_not_acked hs hflow hpool h hq hqa, hlt⟩
  · rintro (hx | ⟨hack, y, hy, hlt⟩)
    · obtain ⟨⟨p, hp, hseq, -⟩, i, hk⟩ := waits_of_unacknowledged hs hflow hcalm h hx
      exact mem_awaited hs.tracked hk.1 ⟨p, hp, hseq⟩
    · obtain ⟨i, -, hk⟩ := hack.knows hflow
      refine mem_awaited hs.tracked hk.1 ((h.behind x hack).resolve_right fun hfront => ?_)
      obtain ⟨⟨p, hp, hseq, -⟩, -⟩ := waits_of_unacknowledged hs hflow hcalm h hy
      have hxp := hfront p hp
      omega

/-- Nothing is dropped before a batch was refused. -/
theorem refused_of_dropped (hflow : Flow s) (hrec : Record s) (hcalm : Calm s) {x : Dispatch}
    (h : s.Dropped x) : ∃ i b e, .answered i b (.refused e) ∈ s.events := by
  obtain ⟨-, i, w, hw, hx, hacc, hun⟩ := h
  rcases hflow.flow i w hw with hwhole | ⟨-, -, hfail | hcrash⟩
  · rw [← hwhole] at hx
    exact ((List.mem_append.1 hx).elim hacc hun).elim
  · exact hrec.refused_of_failed hfail
  · have hq := hcalm w (List.mem_of_getElem? hw)
    simp [Worker.hasQueue, hcrash] at hq

/-! ## Opening and closing -/

/-- A destination that nobody closes can be opened. -/
theorem openPool_ok (hs : Sound s) (hcalm : Calm s) (hc : s.caller.isClosing = false) :
    s.dest.openPool.1 = .ok () := by
  unfold Destination.openPool
  cases hn : s.dest.started with
  | true => rfl
  | false =>
    rw [startFrom_of_parked _ _ fun w hw => ?_]
    · rfl
    · obtain ⟨i, hi⟩ := List.mem_iff_getElem?.1 hw
      exact hcalm.parked hs (not_open hs hc hn) hi

/-- All that the destination is still going to publish is tracked under this number or a later
one. -/
structure Since (n : Nat) (s : Depot ι) : Prop where
  sent : n ≤ s.sent.length
  held : ∀ (i : Nat) (w : Worker), s.dest.workers[i]? = some w → ∀ x ∈ w.unpublished, n ≤ x.seq
  placing : ∀ i x ms, s.caller = .placing i x ms → n ≤ x.seq

theorem since_step {n : Nat} (hs : Sound s) (h : Since n s) (hst : Step s s') : Since n s' where
  sent := by
    obtain ⟨ms, hsent⟩ := sent_step hst
    rw [hsent, List.length_append]
    exact Nat.le_add_right_of_le h.sent
  held := by
    intro i v hv x hx
    rcases unpublished_of_step hst hv hx with ⟨w, hw, hx⟩ | ⟨ms, hc⟩
    · exact h.held i w hw x hx
    · exact h.placing i x ms hc
  placing := by
    intro i x ms hc
    rcases placing_of_step hst hc with hc | hnext
    · exact h.placing i x ms hc
    · rw [hnext, hs.tracked.next]
      exact h.sent

theorem unpublished_of_delivery {m : Move} {x : Dispatch} (h : x ∈ s.delivery m) :
    ∃ (i : Nat) (w : Worker), s.dest.workers[i]? = some w ∧ x ∈ w.unpublished := by
  cases m with
  | answer i v =>
    cases v with
    | accepted =>
      have h : x ∈ (s.dest.atPublisher i).getD [] := h
      cases hb : s.dest.atPublisher i with
      | none =>
        rw [hb] at h
        cases h
      | some b =>
        rw [hb] at h
        obtain ⟨w, hw, hp, rfl⟩ := atPublisher_eq_some.1 hb
        refine ⟨i, w, hw, ?_⟩
        rw [Worker.unpublished_of_publishing hp]
        exact List.mem_append_left _ h
    | _ => cases h
  | _ => cases h

theorem since_deliveries {n : Nat} (hs : Sound s) (h : Since n s) (ms : List Move) :
    ∀ x ∈ s.deliveries ms, n ≤ x.seq := by
  induction ms generalizing s with
  | nil => exact fun x hx => absurd hx List.not_mem_nil
  | cons m ms ih =>
    refine List.forall_mem_append.2 ⟨fun x hx => ?_, ?_⟩
    · obtain ⟨i, w, hw, hx⟩ := unpublished_of_delivery hx
      exact h.held i w hw x hx
    · have hst := step_of_move s m
      exact ih (sound_step hs hst) (since_step hs h hst)

/-- An open destination was closed, and nothing is left of what was tracked until then. -/
structure Cleared (s : Depot ι) : Prop where
  caller : s.caller = .done (.ok ())
  pending : s.dest.pending = 0
  workers : ∀ w ∈ s.dest.workers, w = .new
  opens : s.dest.openPool.1 = .ok ()
  later : ∀ ms, ∀ x ∈ s.deliveries ms, s.sent.length ≤ x.seq

/-- Closing waits for every thread, and none has crashed. -/
theorem closePool_of_calm (hpool : 0 < s.dest.poolSize) (hcalm : Calm s)
    (hthread : ∀ w ∈ s.dest.workers, w.hasThread = true) (hc : s.caller = .closing)
    (hq : s.dest.isQuiet = true) :
    s.step .closePool = { s with
      dest := { s.dest with
        started := false
        workers := s.dest.workers.map (·.join)
        tracker := s.dest.tracker.discard }
      caller := .done (.ok ())
      isOpen := false } := by
  have hcrash : ∀ w ∈ s.dest.workers, w.status ≠ .crashed := by
    intro w hw hcr
    have hqueue := hcalm w hw
    simp [Worker.hasQueue, hcr] at hqueue
  -- There is a thread to wait for, so the tracker is emptied.
  have hany : s.dest.workers.any (·.hasThread) = true :=
    List.any_eq_true.2 ⟨_, List.getElem_mem hpool, hthread _ (List.getElem_mem hpool)⟩
  simp only [step, hc, hq, if_true, closePool, Destination.closePool, hany,
    Destination.crashes_eq_none _ _ hcrash]

theorem cleared_of_close (hs : Sound s) (hpool : 0 < s.dest.poolSize) (hcalm : Calm s)
    (hopen : s.isOpen = true) (hc : s.caller = .closing) (hq : s.dest.isQuiet = true) :
    Cleared (s.step .closePool) := by
  have hthread : ∀ w ∈ s.dest.workers, w.hasThread = true := by
    intro w hw
    obtain ⟨i, hi⟩ := List.mem_iff_getElem?.1 hw
    exact hasThread_of_open hs hopen hi
  have hstep := closePool_of_calm hpool hcalm hthread hc hq
  have hcaller : (s.step .closePool).caller = .done (.ok ()) := by rw [hstep]
  have hnew : ∀ w ∈ (s.step .closePool).dest.workers, w = .new := by
    intro w hw
    rw [hstep] at hw
    obtain ⟨v, hv, rfl⟩ := List.mem_map.1 hw
    exact Worker.join_eq_new (hthread v hv) (hcalm v hv)
  have hsound := sound_step hs (step_of_move s .closePool)
  refine ⟨hcaller, by rw [hstep]; rfl, hnew, ?_, fun ms => since_deliveries hsound ?_ ms⟩
  · refine openPool_ok hsound (fun w hw => ?_) (by rw [hcaller]; rfl)
    rw [hnew w hw]
    rfl
  · refine ⟨Nat.le_refl _, fun i w hw x hx => ?_, fun i x ms hcall => ?_⟩
    · rw [hnew w (List.mem_of_getElem? hw)] at hx
      cases hx
    · rw [hcaller] at hcall
      cases hcall

/-! ## Failures -/

/-- When a call of sending comes back with an error, the mutation that it fails with was never
tracked, or nothing is pending under its number. -/
def LeavesNothing (s : Depot ι) : Prop :=
  ∀ e, s.proceed.caller = .done (.error e) →
    (∃ r, s.caller = .done r) ∨
    (∃ m ms, s.caller = .sending (m :: ms) ∧ s.proceed.dest = s.dest ∧ s.proceed.sent = s.sent) ∨
    ∃ i x ms, s.caller = .placing i x ms ∧
      ∀ p ∈ s.proceed.dest.tracker.pending, p.seq ≠ x.seq

theorem leavesNothing (s : Depot ι) : s.LeavesNothing := by
  intro e he
  unfold proceed at he ⊢
  cases hc : s.caller with
  | done r => exact Or.inl ⟨r, rfl⟩
  | closing =>
    simp only [hc] at he
    cases he
  | assigned i m ms =>
    simp only [hc] at he
    cases he
  | sending ms =>
    cases ms with
    | nil =>
      simp only [hc] at he
      cases he
    | cons m ms =>
      refine Or.inr (Or.inl ⟨m, ms, rfl, ?_⟩)
      simp only [hc] at he ⊢
      cases ha : s.dest.assign m with
      | error f => exact ⟨rfl, rfl⟩
      | ok i =>
        rw [ha] at he
        cases he
  | placing i x ms =>
    refine Or.inr (Or.inr ⟨i, x, ms, rfl, ?_⟩)
    simp only [hc] at he ⊢
    rcases hp : s.dest.place i x with ⟨o, d⟩
    rw [hp] at he
    cases o with
    | placed => cases he
    | waits j y =>
      simp only [hc] at he
      cases he
    | refused f =>
      intro p hmem
      have hmem : p ∈ d.tracker.pending := hmem
      rw [Destination.tracker_of_refused hp] at hmem
      exact AckTracker.seq_ne_of_mem_cancel hmem

/-! ## The main result -/

/-- How the dispatches of a destination are accounted for. -/
structure Accounts (s : Depot ι) : Prop where
  /-- What is pending is queued, held, dropped, or acknowledged behind one of these. -/
  pending : ∀ x, x ∈ s.awaited ↔
    s.Unacknowledged x ∨ s.Acknowledged x ∧ ∃ y, s.Unacknowledged y ∧ y.seq < x.seq
  /-- Nothing is pending twice. -/
  sorted : s.awaited.Pairwise fun x y => x.seq < y.seq
  /-- The tracker marks what is acknowledged. -/
  marked : ∀ p ∈ s.dest.tracker.pending, p.acked = true ↔ s.Acknowledged p.dispatch
  /-- Only after a batch was refused is anything dropped. -/
  dropped : ∀ x, s.Dropped x → ∃ i b e, .answered i b (.refused e) ∈ s.events
  /-- The destination can be opened, unless the end of threads is waited for. -/
  opens : s.caller.isClosing = false → s.dest.openPool.1 = .ok ()
  /-- Once all threads of an open destination have ended, the call that closes it comes back and
  leaves nothing behind. -/
  closes : s.isOpen = true → s.caller = .closing → s.dest.isQuiet = true →
    Cleared (s.step .closePool)
  fails : s.LeavesNothing

/-- **Every dispatch is accounted for.** However a destination is built, opened, sent to, worked and
closed, as long as no worker has crashed. -/
theorem dispatches_accounted {p : DestinationPlan} {d : Destination ι} (h : p.build = .ok d)
    (ms : List Move) (hc : ((start d).run ms).Calm) : ((start d).run ms).Accounts := by
  have hinv : Sound ((start d).run ms) ∧ 0 < ((start d).run ms).dest.poolSize ∧
      (((start d).run ms).isOpen = true → Flow ((start d).run ms)) ∧
      (((start d).run ms).isOpen = true → Record ((start d).run ms)) ∧
      (((start d).run ms).Calm → Balanced ((start d).run ms)) := by
    refine run_induction (P := fun s => Sound s ∧ 0 < s.dest.poolSize ∧ (s.isOpen = true → Flow s) ∧
      (s.isOpen = true → Record s) ∧ (s.Calm → Balanced s)) ?_ ?_ ms
    · exact ⟨sound_start h, (poolSize_build h).1, nofun, nofun, fun _ => balanced_start h⟩
    · intro s s' ⟨hs, hpool, hflow, hrec, hbal⟩ hst
      refine ⟨sound_step hs hst, ?_, flow_step hs hflow hst, record_step hs hflow hrec hst,
        fun hcalm' => ?_⟩
      · rwa [Destination.poolSize, poolSize_step hst]
      · have hcalm := calm_of_step hst hcalm'
        exact balanced_step hs hpool hflow hcalm (hbal hcalm) hst hcalm'
  obtain ⟨hs, hpool, hflow, hrec, hbal⟩ := hinv
  exact {
    pending := mem_awaited_iff hs hflow hpool hc (hbal hc)
    sorted := List.pairwise_map.2 hs.tracked.sorted
    marked := (hbal hc).flag
    dropped := fun x hx => refused_of_dropped (hflow hx.1) (hrec hx.1) hc hx
    opens := openPool_ok hs hc
    closes := cleared_of_close hs hpool hc
    fails := leavesNothing _ }

/-- The first dispatch was refused, the second is acknowledged behind it, and the third is in a
queue. When the destination is closed all three are pending until the threads have ended, and none
is afterwards. -/
theorem dispatches_accounted_refused :
    let users : Table := ⟨7, "users", "test", [⟨"id", .longLong, true, 0⟩], ["id"]⟩
    let context : RowContext := ⟨⟨1, 1⟩, ⟨"", 0, ""⟩, default, users, 1, none, 0⟩
    let insert (n : Int64) := Mutation.row (.insert context (Row.ofValues users [.long n]))
    let work : List Move := [.openPool, .send [insert 1, insert 2, insert 1], .proceed, .proceed,
      .proceed, .proceed, .proceed, .proceed, .proceed, .proceed, .proceed, .proceed, .pull 0,
      .begin 0, .pull 1, .begin 1, .answer 1 .accepted, .confirm 1, .confirm 1,
      .answer 0 (.refused (.destination "gone")), .report 0]
    let ends : List Move := [.stopAll, .pull 0, .begin 0, .pull 0, .leave 0, .pull 1, .leave 1]
    let three := [⟨0, insert 1⟩, ⟨1, insert 2⟩, ⟨2, insert 1⟩]
    ∃ d : Destination Unit,
      DestinationPlan.build { name := "d", poolSize := 2, batchSize := 1 } = .ok d ∧
        (∃ s, s = (start d).run work ∧ s.Calm ∧ s.awaited = three ∧ s.Accounts) ∧
        ∃ s, s = (start d).run (work ++ ends) ∧ s.Calm ∧ s.isOpen = true ∧
          s.dest.isQuiet = true ∧ s.awaited = three ∧ Cleared (s.step .closePool) :=
  ⟨_, rfl,
    ⟨_, rfl, by decide +kernel, by decide +kernel,
      dispatches_accounted (p := { name := "d", poolSize := 2, batchSize := 1 }) rfl _
        (by decide +kernel)⟩,
    ⟨_, rfl, by decide +kernel, by decide +kernel, by decide +kernel, by decide +kernel,
      (dispatches_accounted (p := { name := "d", poolSize := 2, batchSize := 1 }) rfl _
        (by decide +kernel)).closes (by decide +kernel) (by decide +kernel) (by decide +kernel)⟩⟩

end Depot

end ChangeFeed
