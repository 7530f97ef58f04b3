import ChangeFeed.Proofs.Destination.Delivery

/-!
# A tracker in balance

What the tracker of a destination says of each dispatch, and where that dispatch is, as long as no
worker crashes.

**Calm** (`Depot.Calm`). No worker has lost its queue. One that crashes never gets it back, so a
calm state was calm all along (`Depot.calm_of_step`).

**Where dispatches are.** A dispatch that is tracked is about to be put into a queue
(`Depot.Entering`), or it came to a worker (`Depot.cameTo`). The worker publishes it, has its number
to confirm (`Depot.toConfirm`), and has acknowledged it in the end (`Depot.Acknowledged`).

**The balance** (`Depot.Balanced`). What is pending came from somewhere, its mark tells whether it
is acknowledged, and what came to a worker is acknowledged or waits. The tracker lets go of an
acknowledged dispatch only together with all before it.

Main result: `Depot.balanced_step`, that every change keeps the balance.
-/

namespace ChangeFeed

/-- The dispatch that an entry of a tracker stands for. -/
def PendingAck.dispatch (p : PendingAck Mutation) : Dispatch := ⟨p.seq, p.item⟩

@[simp] theorem PendingAck.dispatch_seq (p : PendingAck Mutation) : p.dispatch.seq = p.seq := rfl

@[simp] theorem AckTracker.dispatch_mark (seq : Nat) (p : PendingAck Mutation) :
    (mark seq p).dispatch = p.dispatch := by
  simp [PendingAck.dispatch]

namespace Worker

/-- The numbers of published dispatches that a worker still has to confirm. -/
def toConfirm (w : Worker) : List Nat :=
  match w.phase with
  | .acknowledging left => left
  | _ => []

theorem toConfirm_of_collecting {w : Worker} (h : w.phase = .collecting) : w.toConfirm = [] := by
  simp [toConfirm, h]

theorem toConfirm_of_publishing {w : Worker} (h : w.phase = .publishing) : w.toConfirm = [] := by
  simp [toConfirm, h]

theorem toConfirm_of_failing {w : Worker} {e : Error} (h : w.phase = .failing e) :
    w.toConfirm = [] := by
  simp [toConfirm, h]

theorem toConfirm_of_acknowledging {w : Worker} {left : List Nat}
    (h : w.phase = .acknowledging left) : w.toConfirm = left := by
  simp [toConfirm, h]

theorem hasQueue_of_parked {w : Worker} (h : w.status = .parked) : w.hasQueue = true := by
  simp [hasQueue, h]

theorem hasQueue_of_running {w : Worker} (h : w.status = .running) : w.hasQueue = true := by
  simp [hasQueue, h]

/-- After its thread has come to an end a worker is as before it had one. -/
theorem join_eq_new {w : Worker} (ht : w.hasThread = true) (hq : w.hasQueue = true) :
    w.join = .new := by
  unfold join
  cases hs : w.status <;> simp_all [hasThread, hasQueue, new]

theorem hasQueue_join (w : Worker) : w.join.hasQueue = w.hasQueue := by
  unfold join
  cases hs : w.status <;> simp_all [hasQueue] <;> rfl

end Worker

namespace Depot

variable {ι : Type} {s s' : Depot ι}

/-! ## Calm -/

/-- No worker has crashed so far: whoever does loses its queue for good. -/
def Calm (s : Depot ι) : Prop := ∀ w ∈ s.dest.workers, w.hasQueue = true

instance : Decidable s.Calm := List.decidableBAll _ s.dest.workers

theorem Calm.of_set (h : Calm s') {i : Nat} {w v : Worker} (hw : s.dest.workers[i]? = some w)
    (hd : s'.dest.workers = s.dest.workers.set i v)
    (hv : v.hasQueue = true → w.hasQueue = true) : Calm s := by
  obtain ⟨hi, rfl⟩ := List.getElem?_eq_some_iff.1 hw
  intro u hu
  obtain ⟨j, hj, rfl⟩ := List.mem_iff_getElem.1 hu
  unfold Calm at h
  rw [hd] at h
  by_cases hij : i = j
  · subst hij
    exact hv (h v (List.mem_set hi v))
  · refine h _ (List.mem_iff_getElem.2 ⟨j, by rwa [List.length_set], ?_⟩)
    rw [List.getElem_set_ne hij]

theorem Calm.of_map (h : Calm s') {f : Worker → Worker}
    (hd : s'.dest.workers = s.dest.workers.map f)
    (hf : ∀ w : Worker, (f w).hasQueue = true → w.hasQueue = true) : Calm s := fun w hw =>
  hf w (h (f w) (hd ▸ List.mem_map_of_mem hw))

/-- A state that is calm was calm before. -/
theorem calm_of_step (hst : Step s s') (h : Calm s') : Calm s := by
  cases hst with
  | placed hs hw hq => exact h.of_set hw rfl id
  | pulled hw hc hs hlt hq => exact h.of_set hw rfl id
  | heardStop hw hc hs hq => exact h.of_set hw rfl id
  | gaveUp hw hc hb hf => exact h.of_set hw rfl id
  | took hw hc hb hf => exact h.of_set hw rfl id
  | accepted hw hp => exact h.of_set hw rfl id
  | refused hw hp => exact h.of_set hw rfl id
  | reported hw hp => exact h.of_set hw rfl id
  | crashedIdle hw hc hb => exact h.of_set hw rfl nofun
  | crashed hw hp => exact h.of_set hw rfl nofun
  | confirmed hw hp => exact h.of_set hw rfl id
  | finished hw hp => exact h.of_set hw rfl id
  | exited hw hc hs hb =>
    exact h.of_set hw rfl fun _ => Worker.hasQueue_of_running (Worker.isCollecting_iff.1 hc).1
  | opened hs hn hp => exact fun w hw => Worker.hasQueue_of_parked (hp w hw)
  | openFailed hs hn hr =>
    intro w hw
    by_cases hp : w.status = .parked
    · exact Worker.hasQueue_of_parked hp
    · exact h w (mem_startFrom hr hw hp)
  | toldToStop hs =>
    refine h.of_map rfl fun w hw => ?_
    rwa [Worker.hasQueue, status_told] at hw
  | closed hs hq ht => exact h.of_map rfl fun w hw => w.hasQueue_join.symm.trans hw
  | _ => exact h

theorem Calm.not_lost (h : Calm s) : ¬HasLost s := by
  rintro ⟨i, w, hw, hl⟩
  have hq := h w (List.mem_of_getElem? hw)
  simp [Worker.hasQueue, hl] at hq

theorem Calm.waiting (h : Calm s) (hs : Sound s) : Waiting s := hs.waiting.resolve_left h.not_lost

/-- A destination that is not open has no threads. -/
theorem Calm.parked (h : Calm s) (hs : Sound s) (ho : ¬s.isOpen = true) {i : Nat} {w : Worker}
    (hw : s.dest.workers[i]? = some w) : w.status = .parked := by
  cases hs.stage with
  | parked h₁ h₂ h₃ => exact h₃ i w hw
  | lost h₁ h₂ h₃ => exact absurd h₃ h.not_lost
  | atWork h₁ h₂ h₃ => exact absurd h₂ ho

/-- Only the threads of an open destination run. -/
theorem Calm.isOpen (h : Calm s) (hs : Sound s) {i : Nat} {w : Worker}
    (hw : s.dest.workers[i]? = some w) (hr : w.status = .running) : s.isOpen = true := by
  by_contra ho
  have hp := h.parked hs ho hw
  rw [hr] at hp
  cases hp

/-! ## Where dispatches are -/

/-- The caller has tracked the dispatch and is about to put it into a queue. -/
def Entering (s : Depot ι) (x : Dispatch) : Prop := ∃ i ms, s.caller = .placing i x ms

/-- What came to a worker: what was routed to it since the destination was opened, or what is in its
queue while the destination is not open. -/
def cameTo (s : Depot ι) (i : Nat) : List Dispatch :=
  if s.isOpen = true then s.routed i else (s.dest.workers[i]?.map Worker.queued).getD []

theorem cameTo_of_open (ho : s.isOpen = true) (i : Nat) : s.cameTo i = s.routed i := if_pos ho

theorem cameTo_of_not_open (ho : ¬s.isOpen = true) (i : Nat) :
    s.cameTo i = (s.dest.workers[i]?.map Worker.queued).getD [] :=
  if_neg ho

/-- The numbers of published dispatches that a worker still has to confirm. -/
def toConfirm (s : Depot ι) (i : Nat) : List Nat :=
  (s.dest.workers[i]?.map Worker.toConfirm).getD []

theorem toConfirm_eq {i : Nat} {w : Worker} (hw : s.dest.workers[i]? = some w) :
    s.toConfirm i = w.toConfirm := by
  rw [toConfirm, hw]
  rfl

theorem toConfirm_set {i : Nat} {w v : Worker} (hw : s.dest.workers[i]? = some w)
    (hd : s'.dest.workers = s.dest.workers.set i v) (j : Nat) :
    s'.toConfirm j = if j = i then v.toConfirm else s.toConfirm j := by
  split
  · rename_i hij
    subst hij
    refine toConfirm_eq ?_
    rw [hd, List.getElem?_set_self (List.getElem?_eq_some_iff.1 hw).1]
  · rename_i hij
    rw [toConfirm, toConfirm, hd, List.getElem?_set_ne (Ne.symm hij)]

theorem toConfirm_eq_nil {i : Nat} (h : ∀ w ∈ s.dest.workers, w.toConfirm = []) :
    s.toConfirm i = [] := by
  unfold toConfirm
  cases hw : s.dest.workers[i]? with
  | none => rfl
  | some w => exact h w (List.mem_of_getElem? hw)

/-- A worker published the dispatch and confirmed it, since the destination was opened. -/
def Acknowledged (s : Depot ι) (x : Dispatch) : Prop :=
  s.isOpen = true ∧ ∃ i, x ∈ s.acceptedBy i ∧ x.seq ∉ s.toConfirm i

/-! ## The balance -/

/-- The tracker agrees with where the dispatches are. -/
structure Balanced (s : Depot ι) : Prop where
  front : ∀ p, s.dest.tracker.pending.head? = some p → p.acked = false
  due : ∀ i, (s.toConfirm i).Nodup ∧ ∀ q ∈ s.toConfirm i, ∃ x ∈ s.acceptedBy i, x.seq = q
  source : ∀ p ∈ s.dest.tracker.pending, s.Entering p.dispatch ∨ ∃ i, p.dispatch ∈ s.cameTo i
  flag : ∀ p ∈ s.dest.tracker.pending, p.acked = true ↔ s.Acknowledged p.dispatch
  waits : ∀ i, ∀ x ∈ s.cameTo i, s.Acknowledged x ∨ s.Waits x.seq
  behind : ∀ x, s.Acknowledged x →
    (∃ p ∈ s.dest.tracker.pending, p.seq = x.seq) ∨ ∀ p ∈ s.dest.tracker.pending, x.seq < p.seq

/-- The tracker stays as it is, and so does what came to workers and what they acknowledged. -/
theorem Balanced.keep (h : Balanced s) (ht : s'.dest.tracker = s.dest.tracker)
    (hcame : ∀ i, s'.cameTo i = s.cameTo i) (hack : ∀ x, s'.Acknowledged x ↔ s.Acknowledged x)
    (hent : ∀ x, s.Entering x → s'.Entering x)
    (hdue : ∀ i, (s'.toConfirm i).Nodup ∧ ∀ q ∈ s'.toConfirm i, ∃ x ∈ s'.acceptedBy i, x.seq = q) :
    Balanced s' where
  front := ht ▸ h.front
  due := hdue
  source := by
    intro p hp
    refine (h.source p (ht ▸ hp)).imp (hent _) fun ⟨i, hx⟩ => ⟨i, ?_⟩
    rwa [hcame]
  flag := by
    intro p hp
    rw [hack]
    exact h.flag p (ht ▸ hp)
  waits := by
    intro i x hx
    rw [hcame] at hx
    unfold Waits
    rw [hack, ht]
    exact h.waits i x hx
  behind := by
    intro x hx
    rw [ht]
    exact h.behind x ((hack x).1 hx)

/-- Nothing is published or confirmed. -/
theorem Balanced.same (h : Balanced s) (ht : s'.dest.tracker = s.dest.tracker)
    (ho : s'.isOpen = s.isOpen) (hcame : ∀ i, s'.cameTo i = s.cameTo i)
    (hacc : ∀ i, s'.acceptedBy i = s.acceptedBy i) (hconf : ∀ i, s'.toConfirm i = s.toConfirm i)
    (hent : ∀ x, s.Entering x → s'.Entering x) : Balanced s' := by
  refine h.keep ht hcame (fun x => ?_) hent fun i => ?_
  · simp only [Acknowledged, ho, hacc, hconf]
  · rw [hconf, hacc]
    exact h.due i

/-- One worker at work changes, publishes nothing and confirms nothing. -/
theorem Balanced.set (h : Balanced s) (hopen : s.isOpen = true) {i : Nat} {w v : Worker}
    (hw : s.dest.workers[i]? = some w) (hd : s'.dest.workers = s.dest.workers.set i v)
    (hv : v.toConfirm = w.toConfirm) (ht : s'.dest.tracker = s.dest.tracker)
    (ho : s'.isOpen = s.isOpen) (hr : s'.routed = s.routed) (hc : s'.caller = s.caller)
    (hacc : ∀ i, s'.acceptedBy i = s.acceptedBy i) : Balanced s' := by
  refine h.same ht ho (fun j => ?_) hacc (fun j => ?_) fun x hx => ?_
  · rw [cameTo_of_open (ho ▸ hopen), cameTo_of_open hopen, hr]
  · rw [toConfirm_set hw hd]
    split
    · rename_i hij
      rw [hij, toConfirm_eq hw, hv]
    · rfl
  · rwa [Entering, hc]

/-! ### The numbers of what came to workers -/

/-- What came to a worker is known under its number, and the worker belongs to it. -/
theorem knows_of_cameTo (hs : Sound s) (hflow : s.isOpen = true → Flow s) {i : Nat} {x : Dispatch}
    (hx : x ∈ s.cameTo i) : s.Knows i x := by
  by_cases ho : s.isOpen = true
  · rw [cameTo_of_open ho] at hx
    exact (hflow ho).known i x hx
  · rw [cameTo_of_not_open ho] at hx
    obtain ⟨w, hw, hx⟩ := exists_of_mem_queued hx
    exact hs.numbered.held i w hw x hx

/-- Dispatches that are known under one number are one. -/
theorem Knows.dispatch_eq {i j : Nat} {x y : Dispatch} (hx : s.Knows i x) (hy : s.Knows j y)
    (h : x.seq = y.seq) : x = y := by
  obtain ⟨seq, m⟩ := x
  obtain ⟨seq', m'⟩ := y
  obtain rfl : seq = seq' := h
  obtain rfl := Option.some.inj (hx.1.symm.trans hy.1)
  rfl

/-- The entry under the number of a dispatch stands for it. -/
theorem dispatch_eq_of_seq (ht : Tracked s) {p : PendingAck Mutation}
    (hp : p ∈ s.dest.tracker.pending) {x : Dispatch} (hx : s.sent[x.seq]? = some x.mutation)
    (h : p.seq = x.seq) : p.dispatch = x := by
  obtain ⟨seq, m⟩ := x
  obtain rfl : p.seq = seq := h
  exact congrArg (Dispatch.mk p.seq) (Option.some.inj ((ht.item p hp).symm.trans hx))

theorem Acknowledged.knows (hflow : s.isOpen = true → Flow s) {x : Dispatch}
    (h : s.Acknowledged x) : ∃ i, x ∈ s.routed i ∧ s.Knows i x := by
  obtain ⟨ho, i, hx, -⟩ := h
  have hk := (hflow ho).knows hx
  cases hw : s.dest.workers[i]? with
  | none =>
    rw [(hflow ho).stray i hw] at hx
    cases hx
  | some w => exact ⟨i, (prefix_of_flow ((hflow ho).flow i w hw)).subset hx, hk⟩

theorem Acknowledged.seq_lt (hflow : s.isOpen = true → Flow s) {x : Dispatch}
    (h : s.Acknowledged x) : x.seq < s.sent.length := by
  obtain ⟨i, -, hk⟩ := h.knows hflow
  exact (List.getElem?_eq_some_iff.1 hk.1).1

/-! ### The changes -/

/-- A dispatch that is tracked newly waits, and is about to be put into a queue. -/
theorem balanced_enrolled (hs : Sound s) (hflow : s.isOpen = true → Flow s) (h : Balanced s)
    {i : Nat} {m : Mutation} {ms : List Mutation} (hc : s.caller = .assigned i m ms) :
    Balanced { s with
      dest := { s.dest with tracker := (s.dest.tracker.register m).2 }
      caller := .placing i ⟨s.dest.tracker.nextSeq, m⟩ ms
      sent := s.sent ++ [m] } where
  front := by
    intro p hp
    rcases hps : s.dest.tracker.pending with _ | ⟨q, qs⟩
    · simp only [AckTracker.register, hps, List.nil_append, List.head?_cons, Option.some.injEq]
        at hp
      exact hp ▸ rfl
    · refine h.front p ?_
      simp only [AckTracker.register, hps, List.cons_append, List.head?_cons] at hp ⊢
      exact hp
  due := h.due
  source := by
    intro p hp
    rcases List.mem_append.1 hp with hp | hp
    · refine Or.inr ((h.source p hp).resolve_left ?_)
      rintro ⟨j, ns, hcall⟩
      rw [hc] at hcall
      cases hcall
    · obtain rfl := List.mem_singleton.1 hp
      exact Or.inl ⟨i, ms, rfl⟩
  flag := by
    intro p hp
    rcases List.mem_append.1 hp with hp | hp
    · exact h.flag p hp
    · obtain rfl := List.mem_singleton.1 hp
      -- What is acknowledged was sent before, under a smaller number.
      refine iff_of_false Bool.false_ne_true fun hack => ?_
      have hack : s.Acknowledged ⟨s.dest.tracker.nextSeq, m⟩ := hack
      exact Nat.ne_of_lt (hack.seq_lt hflow) hs.tracked.next
  waits := by
    intro j x hx
    refine (h.waits j x hx).imp_right ?_
    rintro ⟨p, hp, hw⟩
    exact ⟨p, List.mem_append_left _ hp, hw⟩
  behind := by
    intro x hx
    have hx : s.Acknowledged x := hx
    rcases h.behind x hx with ⟨p, hp, hseq⟩ | hlt
    · exact Or.inl ⟨p, List.mem_append_left _ hp, hseq⟩
    · refine Or.inr (List.forall_mem_append.2 ⟨hlt, fun p hp => ?_⟩)
      obtain rfl := List.mem_singleton.1 hp
      exact hs.tracked.next ▸ hx.seq_lt hflow

/-- A dispatch that is placed comes to its worker, and nothing else comes to any. -/
theorem mem_cameTo_placed {i : Nat} {x : Dispatch} {w : Worker}
    (hw : s.dest.workers[i]? = some w)
    (hd : s'.dest.workers = s.dest.workers.set i (w.push (.dispatch x)))
    (ho : s'.isOpen = s.isOpen)
    (hr : s'.routed = fun j => if j = i then s.routed j ++ [x] else s.routed j) (j : Nat)
    (y : Dispatch) : y ∈ s'.cameTo j ↔ y ∈ s.cameTo j ∨ j = i ∧ y = x := by
  by_cases hopen : s.isOpen = true
  · rw [cameTo_of_open (ho ▸ hopen), cameTo_of_open hopen, hr]
    by_cases hij : j = i <;> simp [hij]
  · rw [cameTo_of_not_open (ho ▸ hopen), cameTo_of_not_open hopen, hd]
    by_cases hij : j = i
    · subst hij
      rw [List.getElem?_set_self (List.getElem?_eq_some_iff.1 hw).1, hw]
      simp
    · simp [hij, Ne.symm hij]

/-- A dispatch comes to its worker and waits as before. -/
theorem balanced_placed (hwait : Waiting s) (h : Balanced s) {i : Nat} {x : Dispatch}
    {ms : List Mutation} {w : Worker} (hc : s.caller = .placing i x ms)
    (hw : s.dest.workers[i]? = some w)
    (hd : s'.dest.workers = s.dest.workers.set i (w.push (.dispatch x)))
    (ht : s'.dest.tracker = s.dest.tracker) (ho : s'.isOpen = s.isOpen)
    (he : s'.events = s.events)
    (hr : s'.routed = fun j => if j = i then s.routed j ++ [x] else s.routed j) :
    Balanced s' := by
  have hconf : ∀ j, s'.toConfirm j = s.toConfirm j := by
    intro j
    rw [toConfirm_set hw hd]
    split
    · rename_i hij
      rw [hij, toConfirm_eq hw]
      rfl
    · rfl
  have hack : ∀ y, s'.Acknowledged y ↔ s.Acknowledged y := by
    intro y
    simp only [Acknowledged, acceptedBy, ho, he, hconf]
  have hcame := mem_cameTo_placed hw hd ho hr
  exact {
    front := ht ▸ h.front
    due := fun j => by
      simp only [hconf, acceptedBy, he]
      exact h.due j
    source := fun p hp => by
      rw [ht] at hp
      rcases h.source p hp with ⟨j, ns, hcall⟩ | ⟨j, hx⟩
      · rw [hc] at hcall
        cases hcall
        exact Or.inr ⟨i, (hcame i _).2 (Or.inr ⟨rfl, rfl⟩)⟩
      · exact Or.inr ⟨j, (hcame j _).2 (Or.inl hx)⟩
    flag := fun p hp => by
      rw [hack]
      exact h.flag p (ht ▸ hp)
    waits := fun j y hy => by
      unfold Waits
      rw [hack, ht]
      rcases (hcame j y).1 hy with hy | ⟨-, rfl⟩
      · exact h.waits j y hy
      · exact Or.inr (hwait.placing i y ms hc)
    behind := fun y hy => by
      rw [ht]
      exact h.behind y ((hack y).1 hy) }

/-- What a worker has published but not confirmed is not acknowledged yet. -/
theorem balanced_accepted (hs : Sound s) (hflow : Flow s) (hopen : s.isOpen = true)
    (h : Balanced s) {i : Nat} {w : Worker} (hw : s.dest.workers[i]? = some w)
    (hp : w.phase = .publishing) (hacc : s'.events = s.events ++ [.answered i w.batch .accepted])
    (hd : s'.dest.workers =
      s.dest.workers.set i { w with phase := .acknowledging (w.batch.map (·.seq)) })
    (ht : s'.dest.tracker = s.dest.tracker) (ho : s'.isOpen = s.isOpen)
    (hr : s'.routed = s.routed) (hc : s'.caller = s.caller) : Balanced s' := by
  have hself : s'.acceptedBy i = s.acceptedBy i ++ w.batch := by
    rw [acceptedBy_append hacc]
    simp [PublishEvent.publishedBy]
  have hother := acceptedBy_note hacc
  have hconf := toConfirm_set hw hd
  have hnone : s.toConfirm i = [] := by
    rw [toConfirm_eq hw, Worker.toConfirm_of_publishing hp]
  have hnew : s'.toConfirm i = w.batch.map (·.seq) := (hconf i).trans (if_pos rfl)
  -- What the worker published before has lower numbers than the batch.
  have horder : ∀ x ∈ s.acceptedBy i, ∀ y ∈ w.batch, x.seq < y.seq := by
    have hwhole := whole_of_busy (hflow.flow i w hw) (by simp [hp])
    have hsorted := hflow.order i
    rw [← hwhole, Worker.unpublished_of_publishing hp] at hsorted
    exact fun x hx y hy =>
      (List.pairwise_append.1 hsorted).2.2 x hx y (List.mem_append_left _ hy)
  have hack : ∀ x, s'.Acknowledged x ↔ s.Acknowledged x := by
    intro x
    refine and_congr (by rw [ho]) (exists_congr fun j => ?_)
    by_cases hij : j = i
    · subst hij
      rw [hself, hnew, hnone, List.mem_append, List.mem_map]
      constructor
      · rintro ⟨hx, hn⟩
        exact ⟨hx.resolve_right fun hb => hn ⟨x, hb, rfl⟩, List.not_mem_nil⟩
      · rintro ⟨hx, -⟩
        refine ⟨Or.inl hx, ?_⟩
        rintro ⟨y, hy, hseq⟩
        exact Nat.ne_of_gt (horder x hx y hy) hseq
    · rw [hother j hij, hconf j, if_neg hij]
  -- So only what the worker has to confirm is new.
  refine h.keep ht (fun j => ?_) hack (fun x hx => ?_) fun j => ?_
  · rw [cameTo_of_open (ho ▸ hopen), cameTo_of_open hopen, hr]
  · rwa [Entering, hc]
  · by_cases hij : j = i
    · subst hij
      rw [hnew, hself]
      have hbatch := (List.pairwise_append.1 (hs.numbered.order j w hw)).1
      refine ⟨List.pairwise_map.2 (hbatch.imp fun hlt => Nat.ne_of_lt hlt), fun q hq => ?_⟩
      obtain ⟨x, hx, rfl⟩ := List.mem_map.1 hq
      exact ⟨x, List.mem_append_right _ hx, rfl⟩
    · rw [hconf j, if_neg hij, hother j hij]
      exact h.due j

/-- The dispatch that a worker confirms is acknowledged from then on. -/
theorem acknowledged_confirmed (hflow : Flow s) (hopen : s.isOpen = true) {i : Nat} {w : Worker}
    {x : Dispatch} {left : List Nat} (hw : s.dest.workers[i]? = some w)
    (hd : s'.dest.workers = s.dest.workers.set i { w with phase := .acknowledging left })
    (ho : s'.isOpen = s.isOpen) (he : s'.events = s.events) (hx : x ∈ s.acceptedBy i)
    (hold : s.toConfirm i = x.seq :: left) (hnodup : (x.seq :: left).Nodup) (y : Dispatch) :
    s'.Acknowledged y ↔ s.Acknowledged y ∨ y = x := by
  have hconf : ∀ j, s'.toConfirm j = if j = i then left else s.toConfirm j := toConfirm_set hw hd
  have hacc : ∀ j, s'.acceptedBy j = s.acceptedBy j := fun j => by simp only [acceptedBy, he]
  constructor
  · rintro ⟨-, j, hy, hn⟩
    rw [hacc] at hy
    by_cases hij : j = i
    · subst hij
      rw [hconf, if_pos rfl] at hn
      -- The worker has one number less to confirm, and that is the number of `x`.
      by_cases hseq : y.seq = x.seq
      · exact Or.inr ((hflow.knows hy).dispatch_eq (hflow.knows hx) hseq)
      · exact Or.inl ⟨hopen, j, hy, by simp [hold, hseq, hn]⟩
    · rw [hconf, if_neg hij] at hn
      exact Or.inl ⟨hopen, j, hy, hn⟩
  · rintro (⟨-, j, hy, hn⟩ | rfl)
    · refine ⟨ho ▸ hopen, j, by rwa [hacc], ?_⟩
      rw [hconf]
      split
      · rename_i hij
        rw [hij, hold] at hn
        exact fun hm => hn (List.mem_cons_of_mem _ hm)
      · exact hn
    · refine ⟨ho ▸ hopen, i, by rwa [hacc], ?_⟩
      rw [hconf, if_pos rfl]
      exact (List.nodup_cons.1 hnodup).1

/-- A worker confirms the next dispatch of its batch. -/
theorem balanced_confirmed (hs : Sound s) (hflow : Flow s) (hopen : s.isOpen = true)
    (h : Balanced s) {i : Nat} {w : Worker} {seq : Nat} {left : List Nat}
    (hw : s.dest.workers[i]? = some w) (hp : w.phase = .acknowledging (seq :: left))
    (hd : s'.dest.workers = s.dest.workers.set i { w with phase := .acknowledging left })
    (ht : s'.dest.tracker = s.dest.tracker.ack seq) (ho : s'.isOpen = s.isOpen)
    (hr : s'.routed = s.routed) (he : s'.events = s.events) (hc : s'.caller = s.caller) :
    Balanced s' := by
  have hold : s.toConfirm i = seq :: left := by
    rw [toConfirm_eq hw, Worker.toConfirm_of_acknowledging hp]
  obtain ⟨hnodup, hdue⟩ := h.due i
  rw [hold] at hnodup hdue
  obtain ⟨x, hx, rfl⟩ := hdue seq List.mem_cons_self
  have hk := hflow.knows hx
  have hack := acknowledged_confirmed hflow hopen hw hd ho he hx hold hnodup
  have hcame : ∀ j, s'.cameTo j = s.cameTo j := fun j => by
    rw [cameTo_of_open (ho ▸ hopen), cameTo_of_open hopen, hr]
  refine ⟨?_, fun j => ?_, fun p hp => ?_, fun p hp => ?_, fun j y hy => ?_, fun y hy => ?_⟩
  · rw [ht]
    exact AckTracker.front_ack h.front x.seq
  · simp only [toConfirm_set hw hd, acceptedBy, he]
    split
    · rename_i hij
      exact ⟨(List.nodup_cons.1 hnodup).2, fun q hq => hij ▸ hdue q (List.mem_cons_of_mem _ hq)⟩
    · exact h.due j
  · rw [ht] at hp
    obtain ⟨q, hq, rfl⟩ := AckTracker.exists_mark_of_mem_ack hp
    simp only [AckTracker.dispatch_mark, hcame, Entering, hc]
    exact h.source q hq
  · rw [ht] at hp
    obtain ⟨q, hq, rfl⟩ := AckTracker.exists_mark_of_mem_ack hp
    rw [AckTracker.dispatch_mark, AckTracker.mark_acked, hack, h.flag q hq]
    refine or_congr_right ⟨fun hseq => dispatch_eq_of_seq hs.tracked hq hk.1 hseq, fun heq => ?_⟩
    rw [← heq, PendingAck.dispatch_seq]
  · rw [hcame] at hy
    rw [hack]
    by_cases hseq : y.seq = x.seq
    · exact Or.inl (Or.inr ((knows_of_cameTo hs (fun _ => hflow) hy).dispatch_eq hk hseq))
    · refine (h.waits j y hy).imp Or.inl fun hwait => ?_
      unfold Waits
      rw [ht]
      exact waits_ack hseq hwait
  · -- What is acknowledged now was pending, or stood before all that was.
    have hbefore : (∃ p ∈ s.dest.tracker.pending, p.seq = y.seq) ∨
        ∀ p ∈ s.dest.tracker.pending, y.seq < p.seq := by
      rcases (hack y).1 hy with hy | rfl
      · exact h.behind y hy
      · have hin : y ∈ s.cameTo i := by
          rw [cameTo_of_open hopen]
          exact (prefix_of_flow (hflow.flow i w hw)).subset hx
        rcases h.waits i y hin with hy | ⟨p, hp, hseq, -⟩
        · exact h.behind y hy
        · exact Or.inl ⟨p, hp, hseq⟩
    rw [ht]
    rcases hbefore with ⟨p, hp, hseq⟩ | hlt
    · exact hseq ▸ AckTracker.mem_or_before_ack hs.tracked.sorted x.seq hp
    · refine Or.inr fun p hp => ?_
      obtain ⟨q, hq, rfl⟩ := AckTracker.exists_mark_of_mem_ack hp
      rw [AckTracker.mark_seq]
      exact hlt q hq

/-- When the destination is opened, what is in the queues has come to the workers. -/
theorem balanced_opened (h : Balanced s) (hopen : ¬s.isOpen = true)
    (hd : s'.dest.workers = s.dest.workers.map (·.start))
    (ht : s'.dest.tracker = s.dest.tracker) (ho : s'.isOpen = true)
    (hr : s'.routed = fun i => (s.dest.workers[i]?.map Worker.queued).getD [])
    (he : s'.events = []) (hc : s'.caller = s.caller) : Balanced s' := by
  have hacc : ∀ i, s'.acceptedBy i = [] := fun i => by
    rw [acceptedBy, he]
    rfl
  refine h.keep ht (fun i => ?_) (fun x => ?_) (fun x hx => by rwa [Entering, hc]) fun i => ?_
  · rw [cameTo_of_open ho, cameTo_of_not_open hopen, hr]
  · -- Nothing counts as acknowledged while the destination is shut, nor right after.
    refine iff_of_false ?_ fun hx => hopen hx.1
    rintro ⟨-, i, hx, -⟩
    rw [hacc] at hx
    cases hx
  · rw [toConfirm_eq_nil fun v hv => ?_]
    · exact ⟨List.nodup_nil, fun q hq => absurd hq List.not_mem_nil⟩
    · rw [hd] at hv
      obtain ⟨w, -, rfl⟩ := List.mem_map.1 hv
      rfl

/-- The threads of an open destination are told to stop. -/
theorem balanced_told (h : Balanced s) (hc : s.caller.isPlain = true)
    (hd : s'.dest.workers =
      s.dest.workers.map fun w => if w.hasThread && w.hasQueue then w.push .stop else w)
    (ht : s'.dest.tracker = s.dest.tracker) (ho : s'.isOpen = s.isOpen)
    (hr : s'.routed = s.routed) (he : s'.events = s.events) : Balanced s' := by
  have hqueued : ∀ w : Worker,
      (if w.hasThread && w.hasQueue then w.push .stop else w).queued = w.queued := by
    intro w
    split
    · exact Worker.queued_push_stop w
    · rfl
  have hphase : ∀ w : Worker,
      (if w.hasThread && w.hasQueue then w.push .stop else w).toConfirm = w.toConfirm := by
    intro w
    split <;> rfl
  refine h.same ht ho (fun i => ?_) (fun i => by simp only [acceptedBy, he]) (fun i => ?_) ?_
  · simp only [cameTo, ho, hr, hd, List.getElem?_map, Option.map_map]
    congr 3
    exact funext hqueued
  · simp only [toConfirm, hd, List.getElem?_map, Option.map_map]
    congr 2
    exact funext hphase
  · rintro x ⟨i, ms, hcall⟩
    rw [hcall] at hc
    cases hc

/-- Nothing is pending, and nothing is in a queue. -/
theorem balanced_of_new (ht : s.dest.tracker.pending = []) (ho : ¬s.isOpen = true)
    (hnew : ∀ w ∈ s.dest.workers, w = .new) : Balanced s := by
  have hcame : ∀ i, s.cameTo i = [] := by
    intro i
    rw [cameTo_of_not_open ho]
    cases hw : s.dest.workers[i]? with
    | none => rfl
    | some w =>
      rw [hnew w (List.mem_of_getElem? hw)]
      rfl
  have hconf : ∀ i, s.toConfirm i = [] := fun i =>
    toConfirm_eq_nil fun w hw => by
      rw [hnew w hw]
      rfl
  refine ⟨fun p hp => ?_, fun i => ?_, fun p hp => ?_, fun p hp => ?_, fun i x hx => ?_,
    fun x hx => absurd hx.1 ho⟩
  · rw [ht] at hp
    cases hp
  · rw [hconf]
    exact ⟨List.nodup_nil, fun q hq => absurd hq List.not_mem_nil⟩
  · rw [ht] at hp
    cases hp
  · rw [ht] at hp
    cases hp
  · rw [hcame] at hx
    cases hx

theorem balanced_start {p : DestinationPlan} {d : Destination ι} (h : p.build = .ok d) :
    Balanced (start d) := by
  unfold DestinationPlan.build at h
  split at h
  · cases h
  · cases h
    exact balanced_of_new rfl Bool.false_ne_true fun w hw => List.eq_of_mem_replicate hw

/-! ### Every change -/

theorem balanced_step (hs : Sound s) (hpool : 0 < s.dest.poolSize)
    (hflow : s.isOpen = true → Flow s) (hcalm : Calm s) (h : Balanced s) (hst : Step s s')
    (hcalm' : Calm s') : Balanced s' := by
  -- A busy worker runs, and workers only run while the destination is open.
  have hopen : ∀ {i : Nat} {w : Worker}, s.dest.workers[i]? = some w → w.phase ≠ .collecting →
      s.isOpen = true := fun hw hp => hcalm.isOpen hs hw ((hs.sane _ _ hw).busy hp).1
  cases hst with
  | same => exact h
  | called hc hc' =>
    refine h.same rfl rfl (fun _ => rfl) (fun _ => rfl) (fun _ => rfl) ?_
    rintro x ⟨i, ms, hcall⟩
    rw [hcall] at hc
    cases hc
  | asked hc =>
    refine h.same rfl rfl (fun _ => rfl) (fun _ => rfl) (fun _ => rfl) ?_
    rintro x ⟨i, ms, hcall⟩
    rw [hcall] at hc
    cases hc
  | assigned hc hf hr =>
    refine h.same rfl rfl (fun _ => rfl) (fun _ => rfl) (fun _ => rfl) ?_
    rintro x ⟨i, ms, hcall⟩
    rw [hc] at hcall
    cases hcall
  | enrolled hc => exact balanced_enrolled hs hflow h hc
  | placed hc hw hq => exact balanced_placed (hcalm.waiting hs) h hc hw rfl rfl rfl rfl rfl
  | turnedAway hc hw hq =>
    -- A worker turns something away only after a crash.
    rw [hcalm _ (List.mem_of_getElem? hw)] at hq
    cases hq
  | pulled hw hc hst hlt hq =>
    have ho := hcalm.isOpen hs hw (Worker.isCollecting_iff.1 hc).1
    exact h.set ho hw rfl rfl rfl rfl rfl rfl fun _ => rfl
  | heardStop hw hc hst hq =>
    have ho := hcalm.isOpen hs hw (Worker.isCollecting_iff.1 hc).1
    exact h.set ho hw rfl rfl rfl rfl rfl rfl fun _ => rfl
  | gaveUp hw hc hb hf =>
    obtain ⟨hr, hp⟩ := Worker.isCollecting_iff.1 hc
    exact h.set (hcalm.isOpen hs hw hr) hw rfl (Worker.toConfirm_of_collecting hp).symm rfl rfl rfl
      rfl fun _ => rfl
  | took hw hc hb hf =>
    obtain ⟨hr, hp⟩ := Worker.isCollecting_iff.1 hc
    exact h.set (hcalm.isOpen hs hw hr) hw rfl (Worker.toConfirm_of_collecting hp).symm rfl rfl rfl
      rfl fun _ => (acceptedBy_append rfl).trans (List.append_nil _)
  | accepted hw hp =>
    have ho := hopen hw (by rw [hp]; exact nofun)
    exact balanced_accepted hs (hflow ho) ho h hw hp rfl rfl rfl rfl rfl rfl
  | refused hw hp =>
    exact h.set (hopen hw (by rw [hp]; exact nofun)) hw rfl (Worker.toConfirm_of_publishing hp).symm
      rfl rfl rfl rfl fun _ => (acceptedBy_append rfl).trans (List.append_nil _)
  | reported hw hp =>
    exact h.set (hopen hw (by rw [hp]; exact nofun)) hw rfl (Worker.toConfirm_of_failing hp).symm
      rfl rfl rfl rfl fun _ => (acceptedBy_append rfl).trans (List.append_nil _)
  | @crashedIdle i w hw hc hb =>
    -- A crash takes the queue away, and all queues are there afterwards.
    have hq := hcalm' w.crash (List.mem_set (List.getElem?_eq_some_iff.1 hw).1 _)
    cases hq
  | @crashed i w hw hp =>
    have hq := hcalm' w.crash (List.mem_set (List.getElem?_eq_some_iff.1 hw).1 _)
    cases hq
  | confirmed hw hp =>
    have ho := hopen hw (by rw [hp]; exact nofun)
    exact balanced_confirmed hs (hflow ho) ho h hw hp rfl rfl rfl rfl rfl rfl
  | finished hw hp =>
    exact h.set (hopen hw (by rw [hp]; exact nofun)) hw rfl
      (Worker.toConfirm_of_acknowledging hp).symm rfl rfl rfl rfl fun _ => rfl
  | exited hw hc hst hb =>
    have ho := hcalm.isOpen hs hw (Worker.isCollecting_iff.1 hc).1
    exact h.set ho hw rfl rfl rfl rfl rfl rfl fun _ => rfl
  | opened hc hn hp => exact balanced_opened h (not_open hs hc hn) rfl rfl rfl rfl rfl rfl
  | openFailed hc hn hr =>
    rw [startFrom_of_parked _ _ fun w hw => ?_] at hr
    · cases hr
    · obtain ⟨i, hi⟩ := List.mem_iff_getElem?.1 hw
      exact hcalm.parked hs (not_open hs hc hn) hi
  | toldToStop hc => exact balanced_told h hc rfl rfl rfl rfl rfl
  | closed hc hq hany =>
    obtain ⟨w, hw, hthread⟩ := hany
    obtain ⟨i, hi⟩ := List.mem_iff_getElem?.1 hw
    have ho : s.isOpen = true := by
      by_contra ho
      simp [Worker.hasThread, hcalm.parked hs ho hi] at hthread
    refine balanced_of_new rfl Bool.false_ne_true (List.forall_mem_map.2 fun u hu => ?_)
    obtain ⟨j, hj⟩ := List.mem_iff_getElem?.1 hu
    exact Worker.join_eq_new (hasThread_of_open hs ho hj) (hcalm u hu)
  | closedIdle hc ht =>
    have ho : s.isOpen = false := by
      -- There is a worker, and it had a thread if the destination were open.
      have hw := List.getElem?_eq_getElem hpool
      by_contra ho
      have hthread := hasThread_of_open hs (by simpa using ho) hw
      rw [ht _ (List.getElem_mem hpool)] at hthread
      cases hthread
    refine h.same rfl ho.symm (fun i => ?_) (fun _ => rfl) (fun _ => rfl) ?_
    · simp only [cameTo, ho]
    · rintro x ⟨i, ms, hcall⟩
      rw [hc] at hcall
      cases hcall

end Depot

end ChangeFeed
