import ChangeFeed.Proofs.Destination.Depot
import ChangeFeed.Proofs.Settling

/-!
# Dispatches on their way

What holds of a destination at work in every state that it can come to, open or not.

**Threads** (`Depot.Stage`). Either no worker has a thread, or all have one and the destination is
open, or a queue is lost for good.

**Numbers** (`Depot.Numbered`). What is under way is what was sent under its number, for the worker
that it belongs to, in the order of the numbers. What is pending is what was sent under its number,
and the last safe item was sent before all that is pending.

**Waiting** (`Depot.Waiting`). What is not published yet is pending and not acknowledged.

**Publishing** (`Depot.Honest`). What is acknowledged was published.
-/

namespace ChangeFeed

theorem Caller.not_closing_of_plain {c : Caller} (h : c.isPlain = true) : c.isClosing = false := by
  cases c <;> first | rfl | cases h

theorem forall_getElem?_set {α : Type} {P : Nat → α → Prop} {as : List α} {i : Nat} {a : α}
    (h : ∀ j b, as[j]? = some b → P j b) (ha : P i a) :
    ∀ j b, (as.set i a)[j]? = some b → P j b := by
  intro j b hb
  rw [List.getElem?_set] at hb
  split at hb
  · rename_i hij
    split at hb
    · cases hb
      exact hij ▸ ha
    · cases hb
  · exact h j b hb

theorem forall_getElem?_map {α β : Type} {P : Nat → β → Prop} {as : List α} {f : α → β}
    (h : ∀ j a, as[j]? = some a → P j (f a)) : ∀ j b, (as.map f)[j]? = some b → P j b := by
  intro j b hb
  rw [List.getElem?_map, Option.map_eq_some_iff] at hb
  obtain ⟨a, ha, rfl⟩ := hb
  exact h j a ha

theorem getElem?_map_of_eq {α β : Type} {as : List α} {j : Nat} {a : α} (h : as[j]? = some a)
    (f : α → β) : (as.map f)[j]? = some (f a) := by
  rw [List.getElem?_map, h]
  rfl

namespace Depot

variable {ι : Type} {s s' : Depot ι}

/-! ## Workers -/

/-- Nothing about any worker contradicts itself. -/
def AllSane (s : Depot ι) : Prop :=
  ∀ (i : Nat) (w : Worker), s.dest.workers[i]? = some w →
    w.Sane s.dest.batchSize s.caller.isClosing

/-- Opening starts some parked workers and leaves the others as they are. -/
theorem getElem?_startFrom {name : String} {i : Nat} {ws vs : List Worker}
    {r : Except Error Unit} (hr : Destination.startFrom name i ws = (r, vs)) {j : Nat}
    {v : Worker} (h : vs[j]? = some v) :
    ∃ w, ws[j]? = some w ∧ (v = w ∨ w.status = .parked ∧ v = w.start) := by
  obtain rfl : (Destination.startFrom name i ws).2 = vs := by rw [hr]
  clear hr
  induction ws generalizing i j with
  | nil => cases h
  | cons w ws ih =>
    unfold Destination.startFrom at h
    split at h
    · rename_i hp
      cases j with
      | zero =>
        cases h
        exact ⟨w, rfl, Or.inr ⟨hp, rfl⟩⟩
      | succ j => exact ih h
    · exact ⟨v, h, Or.inl rfl⟩

/-- Opening fails at a worker that has no queue to work on, and leaves it as it is. -/
theorem mem_startFrom {name : String} {i : Nat} {ws vs : List Worker} {r : Except Error Unit}
    (hr : Destination.startFrom name i ws = (r, vs)) {w : Worker} (hw : w ∈ ws)
    (hp : w.status ≠ .parked) : w ∈ vs := by
  obtain rfl : (Destination.startFrom name i ws).2 = vs := by rw [hr]
  clear hr
  induction ws generalizing i with
  | nil => cases hw
  | cons v ws ih =>
    unfold Destination.startFrom
    split
    · rename_i hv
      rcases List.mem_cons.1 hw with rfl | hw
      · exact absurd hv hp
      · exact List.mem_cons_of_mem _ (ih hw)
    · exact hw

theorem AllSane.of_eq (h : AllSane s) (hd : s'.dest.workers = s.dest.workers)
    (hn : s'.dest.batchSize = s.dest.batchSize)
    (hc : s'.caller.isClosing = s.caller.isClosing) : AllSane s' := by
  unfold AllSane at *
  rw [hd, hn, hc]
  exact h

theorem sane_step (h : AllSane s) (hst : Step s s') : AllSane s' := by
  cases hst with
  | same => exact h
  | called hs hc =>
    refine h.of_eq rfl rfl ?_
    rw [Caller.not_closing_of_plain hs]
    exact Caller.not_closing_of_plain hc
  | asked hs => exact h.of_eq rfl rfl (Caller.not_closing_of_plain hs).symm
  | assigned hs hf hr => exact h.of_eq rfl rfl (by rw [hs]; rfl)
  | enrolled hs => exact h.of_eq rfl rfl (by rw [hs]; rfl)
  | placed hs hw hq =>
    unfold AllSane at h
    rw [hs] at h
    exact forall_getElem?_set h ((h _ _ hw).push hq _)
  | turnedAway hs hw hq => exact h.of_eq rfl rfl (by rw [hs]; rfl)
  | pulled hw hc hs hlt hq => exact forall_getElem?_set h ((h _ _ hw).pulled hc hs hlt hq)
  | heardStop hw hc hs hq => exact forall_getElem?_set h ((h _ _ hw).heardStop hc hq)
  | gaveUp hw hc hb hf => exact forall_getElem?_set h (h _ _ hw).drop
  | took hw hc hb hf =>
    exact forall_getElem?_set h ((h _ _ hw).turned (Worker.isCollecting_iff.1 hc).1 hb _)
  | accepted hw hp =>
    have hbusy := (h _ _ hw).busy (by rw [hp]; exact nofun)
    exact forall_getElem?_set h ((h _ _ hw).turned hbusy.1 hbusy.2 _)
  | refused hw hp =>
    have hbusy := (h _ _ hw).busy (by rw [hp]; exact nofun)
    exact forall_getElem?_set h ((h _ _ hw).turned hbusy.1 hbusy.2 _)
  | reported hw hp => exact forall_getElem?_set h (h _ _ hw).drop
  | crashedIdle hw hc hb => exact forall_getElem?_set h (Worker.sane_crash _ _ _)
  | crashed hw hp => exact forall_getElem?_set h (Worker.sane_crash _ _ _)
  | confirmed hw hp =>
    have hbusy := (h _ _ hw).busy (by rw [hp]; exact nofun)
    exact forall_getElem?_set h ((h _ _ hw).turned hbusy.1 hbusy.2 _)
  | finished hw hp => exact forall_getElem?_set h (h _ _ hw).drop
  | exited hw hc hs hb => exact forall_getElem?_set h ((h _ _ hw).exited hc hs hb)
  | opened hs hn hp =>
    unfold AllSane at h ⊢
    rw [hs] at h ⊢
    exact forall_getElem?_map fun j w hw => (h j w hw).start
  | openFailed hs hn hr =>
    unfold AllSane at h ⊢
    rw [hs] at h ⊢
    intro j v hv
    obtain ⟨w, hw, rfl | ⟨-, rfl⟩⟩ := getElem?_startFrom hr hv
    · exact h j v hw
    · exact (h j w hw).start
  | toldToStop hs =>
    unfold AllSane at h
    rw [Caller.not_closing_of_plain hs] at h
    exact forall_getElem?_map fun j w hw => (h j w hw).toldToStop
  | closed hs hq ht =>
    exact forall_getElem?_map fun j w hw => (h j w hw).join (hq w (List.mem_of_getElem? hw))
  | closedIdle hs ht =>
    intro j w hw
    have hthread := ht w (List.mem_of_getElem? hw)
    simp only [Worker.hasThread, Bool.or_eq_false_iff, beq_eq_false_iff_ne] at hthread
    exact (h j w hw).recast hthread.1.1 hthread.1.2 false

/-! ## Threads -/

/-- Has a worker lost its queue for good? -/
def HasLost (s : Depot ι) : Prop :=
  ∃ (i : Nat) (w : Worker), s.dest.workers[i]? = some w ∧ w.status = .lost

/-- Only the thread of a running worker can end. -/
theorem HasLost.set (h : HasLost s) {i : Nat} {w v : Worker} (hw : s.dest.workers[i]? = some w)
    (hd : s'.dest.workers = s.dest.workers.set i v)
    (hv : v.status = w.status ∨ w.status = .running) : HasLost s' := by
  obtain ⟨j, l, hl, hst⟩ := h
  unfold HasLost
  rw [hd]
  by_cases hij : i = j
  · subst hij
    obtain rfl := Option.some.inj (hw.symm.trans hl)
    refine ⟨i, v, List.getElem?_set_self (List.getElem?_eq_some_iff.1 hw).1, ?_⟩
    rcases hv with hv | hv
    · rw [hv, hst]
    · rw [hst] at hv
      cases hv
  · exact ⟨j, l, by rw [List.getElem?_set_ne hij, hl], hst⟩

theorem HasLost.map (h : HasLost s) {f : Worker → Worker}
    (hd : s'.dest.workers = s.dest.workers.map f)
    (hf : ∀ w, w.status = .lost → (f w).status = .lost) : HasLost s' := by
  obtain ⟨j, l, hl, hst⟩ := h
  unfold HasLost
  rw [hd]
  exact ⟨j, f l, getElem?_map_of_eq hl f, hf l hst⟩

theorem HasLost.startFrom (h : HasLost s) {name : String} {i : Nat} {r : Except Error Unit}
    (hr : Destination.startFrom name i s.dest.workers = (r, s'.dest.workers)) : HasLost s' := by
  obtain ⟨j, l, hl, hst⟩ := h
  have hm := mem_startFrom hr (List.mem_of_getElem? hl) (by rw [hst]; exact nofun)
  obtain ⟨k, hk⟩ := List.mem_iff_getElem?.1 hm
  exact ⟨k, l, hk, hst⟩

theorem status_told (w : Worker) :
    (if w.hasThread && w.hasQueue then w.push .stop else w).status = w.status := by
  split <;> rfl

theorem status_join_of_lost {w : Worker} (h : w.status = .lost) : w.join.status = .lost := by
  simp [Worker.join, h]

/-- A queue that is lost stays lost. -/
theorem lost_step (hsane : AllSane s) (h : HasLost s) (hst : Step s s') : HasLost s' := by
  cases hst with
  | placed hs hw hq => exact h.set hw rfl (Or.inl rfl)
  | pulled hw hc hs hlt hq => exact h.set hw rfl (Or.inl rfl)
  | heardStop hw hc hs hq => exact h.set hw rfl (Or.inl rfl)
  | gaveUp hw hc hb hf => exact h.set hw rfl (Or.inl rfl)
  | took hw hc hb hf => exact h.set hw rfl (Or.inl rfl)
  | accepted hw hp => exact h.set hw rfl (Or.inl rfl)
  | refused hw hp => exact h.set hw rfl (Or.inl rfl)
  | reported hw hp => exact h.set hw rfl (Or.inl rfl)
  | crashedIdle hw hc hb => exact h.set hw rfl (Or.inr (Worker.isCollecting_iff.1 hc).1)
  | crashed hw hp =>
    exact h.set hw rfl (Or.inr ((hsane _ _ hw).busy (by rw [hp]; exact nofun)).1)
  | confirmed hw hp => exact h.set hw rfl (Or.inl rfl)
  | finished hw hp => exact h.set hw rfl (Or.inl rfl)
  | exited hw hc hs hb => exact h.set hw rfl (Or.inr (Worker.isCollecting_iff.1 hc).1)
  | opened hs hn hp =>
    obtain ⟨j, l, hl, hst⟩ := h
    rw [hp l (List.mem_of_getElem? hl)] at hst
    cases hst
  | openFailed hs hn hr => exact h.startFrom hr
  | toldToStop hs => exact h.map rfl fun w hw => (status_told w).trans hw
  | closed hs hq ht => exact h.map rfl fun w hw => status_join_of_lost hw
  | _ => exact h

/-- Which threads there are. -/
inductive Stage (s : Depot ι) : Prop where
  | parked (hs : s.dest.started = false) (ho : s.isOpen = false)
      (hw : ∀ (i : Nat) (w : Worker), s.dest.workers[i]? = some w → w.status = .parked)
  | lost (hs : s.dest.started = false) (ho : s.isOpen = false) (hl : HasLost s)
  | atWork (hs : s.dest.started = !s.caller.isClosing) (ho : s.isOpen = true)
      (hw : ∀ (i : Nat) (w : Worker), s.dest.workers[i]? = some w → w.hasThread = true)

theorem Stage.of_eq (h : Stage s) (hd : s'.dest.workers = s.dest.workers)
    (hs : s'.dest.started = s.dest.started) (ho : s'.isOpen = s.isOpen)
    (hc : s'.caller.isClosing = s.caller.isClosing) : Stage s' := by
  cases h with
  | parked h₁ h₂ h₃ => exact .parked (hs ▸ h₁) (ho ▸ h₂) (hd ▸ h₃)
  | lost h₁ h₂ h₃ =>
    refine .lost (hs ▸ h₁) (ho ▸ h₂) ?_
    unfold HasLost
    rw [hd]
    exact h₃
  | atWork h₁ h₂ h₃ => exact .atWork (by rw [hs, hc, h₁]) (ho ▸ h₂) (hd ▸ h₃)

/-- A worker that changes keeps its status, or its thread works and stays until it is waited for. -/
theorem Stage.set (h : Stage s) {i : Nat} {w v : Worker} (hw : s.dest.workers[i]? = some w)
    (hd : s'.dest.workers = s.dest.workers.set i v)
    (hv : v.status = w.status ∨ w.status = .running ∧ v.hasThread = true)
    (hs : s'.dest.started = s.dest.started)
    (ho : s'.isOpen = s.isOpen) (hc : s'.caller.isClosing = s.caller.isClosing) : Stage s' := by
  cases h with
  | parked h₁ h₂ h₃ =>
    refine .parked (hs ▸ h₁) (ho ▸ h₂) (hd ▸ forall_getElem?_set h₃ ?_)
    rcases hv with hv | hv
    · rw [hv, h₃ i w hw]
    · rw [h₃ i w hw] at hv
      cases hv.1
  | lost h₁ h₂ h₃ => exact .lost (hs ▸ h₁) (ho ▸ h₂) (h₃.set hw hd (hv.imp_right And.left))
  | atWork h₁ h₂ h₃ =>
    refine .atWork (by rw [hs, hc, h₁]) (ho ▸ h₂) (hd ▸ forall_getElem?_set h₃ ?_)
    rcases hv with hv | hv
    · have hthread := h₃ i w hw
      rwa [Worker.hasThread, ← hv] at hthread
    · exact hv.2

theorem stage_step (hsane : AllSane s) (h : Stage s) (hst : Step s s') : Stage s' := by
  cases hst with
  | same => exact h
  | called hs hc =>
    refine h.of_eq rfl rfl rfl ?_
    rw [Caller.not_closing_of_plain hs]
    exact Caller.not_closing_of_plain hc
  | asked hs => exact h.of_eq rfl rfl rfl (Caller.not_closing_of_plain hs).symm
  | assigned hs hf hr => exact h.of_eq rfl rfl rfl (by rw [hs]; rfl)
  | enrolled hs => exact h.of_eq rfl rfl rfl (by rw [hs]; rfl)
  | placed hs hw hq => exact h.set hw rfl (Or.inl rfl) rfl rfl (by rw [hs]; rfl)
  | turnedAway hs hw hq => exact h.of_eq rfl rfl rfl (by rw [hs]; rfl)
  | pulled hw hc hs hlt hq => exact h.set hw rfl (Or.inl rfl) rfl rfl rfl
  | heardStop hw hc hs hq => exact h.set hw rfl (Or.inl rfl) rfl rfl rfl
  | gaveUp hw hc hb hf => exact h.set hw rfl (Or.inl rfl) rfl rfl rfl
  | took hw hc hb hf => exact h.set hw rfl (Or.inl rfl) rfl rfl rfl
  | accepted hw hp => exact h.set hw rfl (Or.inl rfl) rfl rfl rfl
  | refused hw hp => exact h.set hw rfl (Or.inl rfl) rfl rfl rfl
  | reported hw hp => exact h.set hw rfl (Or.inl rfl) rfl rfl rfl
  | crashedIdle hw hc hb =>
    exact h.set hw rfl (Or.inr ⟨(Worker.isCollecting_iff.1 hc).1, rfl⟩) rfl rfl rfl
  | crashed hw hp =>
    have hr := ((hsane _ _ hw).busy (by rw [hp]; exact nofun)).1
    exact h.set hw rfl (Or.inr ⟨hr, rfl⟩) rfl rfl rfl
  | confirmed hw hp => exact h.set hw rfl (Or.inl rfl) rfl rfl rfl
  | finished hw hp => exact h.set hw rfl (Or.inl rfl) rfl rfl rfl
  | exited hw hc hs hb =>
    exact h.set hw rfl (Or.inr ⟨(Worker.isCollecting_iff.1 hc).1, rfl⟩) rfl rfl rfl
  | opened hs hn hp =>
    refine .atWork ?_ rfl (forall_getElem?_map fun j w hw => rfl)
    show true = !s.caller.isClosing
    rw [hs, Bool.not_false]
  | openFailed hs hn hr =>
    cases h with
    | parked h₁ h₂ h₃ =>
      -- Every worker has its queue, so none of them fails to start.
      rw [startFrom_of_parked _ _ fun w hw => ?_] at hr
      · cases hr
      · obtain ⟨j, hj⟩ := List.mem_iff_getElem?.1 hw
        exact h₃ j w hj
    | lost h₁ h₂ h₃ => exact .lost rfl h₂ (h₃.startFrom hr)
    | atWork h₁ h₂ h₃ =>
      rw [hn, hs] at h₁
      cases h₁
  | toldToStop hs =>
    cases h with
    | parked h₁ h₂ h₃ =>
      exact .parked rfl h₂ (forall_getElem?_map fun j w hw => by rw [status_told, h₃ j w hw])
    | lost h₁ h₂ h₃ => exact .lost rfl h₂ (h₃.map rfl fun w hw => (status_told w).trans hw)
    | atWork h₁ h₂ h₃ =>
      refine .atWork rfl h₂ (forall_getElem?_map fun j w hw => ?_)
      have := h₃ j w hw
      rwa [Worker.hasThread, status_told]
  | closed hs hq ht =>
    cases h with
    | parked h₁ h₂ h₃ =>
      obtain ⟨w, hw, hthread⟩ := ht
      obtain ⟨j, hj⟩ := List.mem_iff_getElem?.1 hw
      simp [Worker.hasThread, h₃ j w hj] at hthread
    | lost h₁ h₂ h₃ => exact .lost rfl rfl (h₃.map rfl fun w hw => status_join_of_lost hw)
    | atWork h₁ h₂ h₃ =>
      -- A worker that crashed has no queue to give back when its thread is joined.
      by_cases hcrash : ∃ (j : Nat) (w : Worker), s.dest.workers[j]? = some w ∧ w.status = .crashed
      · obtain ⟨j, w, hw, hc⟩ := hcrash
        exact .lost rfl rfl ⟨j, w.join, getElem?_map_of_eq hw _, by simp [Worker.join, hc]⟩
      · refine .parked rfl rfl (forall_getElem?_map fun j w hw => ?_)
        have hr := hq w (List.mem_of_getElem? hw)
        have hthread := h₃ j w hw
        have hc : w.status ≠ .crashed := fun hc => hcrash ⟨j, w, hw, hc⟩
        cases hst : w.status <;> simp_all [Worker.hasThread, Worker.join]
  | closedIdle hs ht =>
    cases h with
    | parked h₁ h₂ h₃ => exact .parked rfl rfl h₃
    | lost h₁ h₂ h₃ => exact .lost rfl rfl h₃
    | atWork h₁ h₂ h₃ =>
      -- Each worker has a thread, and none has one: there are no workers.
      refine .parked rfl rfl fun j w hw => ?_
      have hthread := h₃ j w hw
      rw [ht w (List.mem_of_getElem? hw)] at hthread
      cases hthread

/-! ## Numbers -/

/-- The dispatch was sent under its number, and belongs to the worker. -/
def Knows (s : Depot ι) (i : Nat) (x : Dispatch) : Prop :=
  s.sent[x.seq]? = some x.mutation ∧ s.dest.route x.mutation = .ok i

/-- What is under way is what was sent, in the order of the numbers. -/
structure Numbered (s : Depot ι) : Prop where
  held : ∀ (i : Nat) (w : Worker), s.dest.workers[i]? = some w → ∀ x ∈ w.held, s.Knows i x
  order : ∀ (i : Nat) (w : Worker), s.dest.workers[i]? = some w →
    w.held.Pairwise fun x y => x.seq < y.seq
  assigned : ∀ i m ms, s.caller = .assigned i m ms → s.dest.route m = .ok i
  placing : ∀ i x ms, s.caller = .placing i x ms → s.Knows i x ∧
    ∀ (j : Nat) (w : Worker), s.dest.workers[j]? = some w → ∀ y ∈ w.held, y.seq < x.seq

theorem route_eq {d d' : Destination ι} (h : d'.workers.length = d.workers.length)
    (m : Mutation) : d'.route m = d.route m := by
  have hp : d'.poolSize = d.poolSize := h
  have hw : d'.workerOf = d.workerOf := by
    funext key
    simp only [Destination.workerOf, hp]
  simp only [Destination.route, hp, hw]

theorem Knows.mono {i : Nat} {x : Dispatch} (h : s.Knows i x)
    (hd : s'.dest.workers.length = s.dest.workers.length) {ms : List Mutation}
    (hs : s'.sent = s.sent ++ ms) : s'.Knows i x := by
  refine ⟨?_, (route_eq hd _).trans h.2⟩
  rw [hs, List.getElem?_append_left (List.getElem?_eq_some_iff.1 h.1).1]
  exact h.1

/-- Two dispatches under one number are for one worker. -/
theorem Knows.eq {i j : Nat} {x y : Dispatch} (hx : s.Knows i x) (hy : s.Knows j y)
    (h : x.seq = y.seq) : i = j := by
  have hm : x.mutation = y.mutation := by
    have := hx.1
    rw [h, hy.1] at this
    exact (Option.some.inj this).symm
  have hi := hx.2
  rw [hm, hy.2] at hi
  exact (Except.ok.inj hi).symm

/-- Nothing new is under way, and no mutation is half sent that was not before. -/
theorem Numbered.shrink (h : Numbered s)
    (hlen : s'.dest.workers.length = s.dest.workers.length)
    (hd : ∀ (i : Nat) (v : Worker), s'.dest.workers[i]? = some v →
      ∃ w, s.dest.workers[i]? = some w ∧ v.held.Sublist w.held)
    (hs : s'.sent = s.sent)
    (hc : s'.caller = s.caller ∨ (s'.caller.isPlain || s'.caller.isClosing) = true) :
    Numbered s' where
  held := by
    intro i v hv x hx
    obtain ⟨w, hw, hsub⟩ := hd i v hv
    exact (h.held i w hw x (hsub.subset hx)).mono hlen (by rw [hs, List.append_nil])
  order := by
    intro i v hv
    obtain ⟨w, hw, hsub⟩ := hd i v hv
    exact (h.order i w hw).sublist hsub
  assigned := by
    intro i m ms hcall
    rcases hc with hc | hc
    · exact (route_eq hlen m).trans (h.assigned i m ms (hc ▸ hcall))
    · rw [hcall] at hc
      cases hc
  placing := by
    intro i x ms hcall
    rcases hc with hc | hc
    · obtain ⟨hk, hlt⟩ := h.placing i x ms (hc ▸ hcall)
      refine ⟨hk.mono hlen (by rw [hs, List.append_nil]), fun j v hv y hy => ?_⟩
      obtain ⟨w, hw, hsub⟩ := hd j v hv
      exact hlt j w hw y (hsub.subset hy)
    · rw [hcall] at hc
      cases hc

theorem Numbered.set (h : Numbered s) {i : Nat} {w v : Worker}
    (hw : s.dest.workers[i]? = some w) (hd : s'.dest.workers = s.dest.workers.set i v)
    (hv : v.held.Sublist w.held) (hs : s'.sent = s.sent) (hc : s'.caller = s.caller) :
    Numbered s' := by
  refine h.shrink (by rw [hd, List.length_set]) ?_ hs (Or.inl hc)
  rw [hd]
  exact forall_getElem?_set (fun j u hu => ⟨u, hu, List.Sublist.refl _⟩) ⟨w, hw, hv⟩

theorem Numbered.map (h : Numbered s) {f : Worker → Worker}
    (hd : s'.dest.workers = s.dest.workers.map f) (hf : ∀ w, (f w).held.Sublist w.held)
    (hs : s'.sent = s.sent)
    (hc : s'.caller = s.caller ∨ (s'.caller.isPlain || s'.caller.isClosing) = true) :
    Numbered s' := by
  refine h.shrink (by rw [hd, List.length_map]) ?_ hs hc
  rw [hd]
  exact forall_getElem?_map fun j w hw => ⟨w, hw, hf w⟩

theorem length_startFrom {name : String} {i : Nat} {ws vs : List Worker}
    {r : Except Error Unit} (hr : Destination.startFrom name i ws = (r, vs)) :
    vs.length = ws.length := by
  obtain rfl : (Destination.startFrom name i ws).2 = vs := by rw [hr]
  clear hr
  induction ws generalizing i with
  | nil => rfl
  | cons w ws ih =>
    unfold Destination.startFrom
    split
    · exact congrArg (· + 1) ih
    · rfl

theorem Numbered.seq_lt (h : Numbered s) {i : Nat} {w : Worker}
    (hw : s.dest.workers[i]? = some w) {x : Dispatch} (hx : x ∈ w.held) :
    x.seq < s.sent.length :=
  (List.getElem?_eq_some_iff.1 (h.held i w hw x hx).1).1

theorem numbered_step (hn : s.dest.tracker.nextSeq = s.sent.length) (h : Numbered s)
    (hst : Step s s') : Numbered s' := by
  cases hst with
  | same => exact h
  | called hs hc => exact h.shrink rfl (fun j w hw => ⟨w, hw, .refl _⟩) rfl (Or.inr (by simp [hc]))
  | asked hs => exact h.shrink rfl (fun j w hw => ⟨w, hw, .refl _⟩) rfl (Or.inr rfl)
  | assigned hs hf hr =>
    exact {
      held := h.held
      order := h.order
      assigned := fun _ _ _ hcall => by
        cases hcall
        exact hr
      placing := by
        intro _ _ _ hcall
        cases hcall }
  | @enrolled i m ms hs =>
    exact {
      held := fun j w hw x hx => (h.held j w hw x hx).mono rfl rfl
      order := h.order
      assigned := by
        intro _ _ _ hcall
        cases hcall
      placing := fun _ _ _ hcall => by
        cases hcall
        -- The tracker gives the next number, which is larger than all that are held.
        refine ⟨⟨?_, h.assigned i m ms hs⟩, fun j w hw y hy => ?_⟩
        · simp [hn]
        · have hlt := h.seq_lt hw hy
          rwa [← hn] at hlt }
  | @placed i x ms w hs hw hq =>
    obtain ⟨hk, hlt⟩ := h.placing i x ms hs
    have hlen : (s.dest.workers.set i (w.push (.dispatch x))).length = s.dest.workers.length :=
      List.length_set
    refine ⟨?_, ?_, ?_, ?_⟩
    · refine forall_getElem?_set (fun j v hv y hy => ?_) fun y hy => ?_
      · exact (h.held j v hv y hy).mono hlen (List.append_nil _).symm
      · -- The dispatch goes to the end of the queue, and everything held stays as it was.
        rw [Worker.held_push] at hy
        rcases List.mem_append.1 hy with hy | hy
        · exact (h.held i w hw y hy).mono hlen (List.append_nil _).symm
        · obtain rfl := List.mem_singleton.1 hy
          exact hk.mono hlen (List.append_nil _).symm
    · refine forall_getElem?_set h.order ?_
      rw [Worker.held_push]
      refine List.pairwise_append.2 ⟨h.order i w hw, List.pairwise_singleton _ _, ?_⟩
      intro y hy z hz
      obtain rfl := List.mem_singleton.1 hz
      exact hlt i w hw y hy
    · intro _ _ _ hcall
      cases hcall
    · intro _ _ _ hcall
      cases hcall
  | turnedAway hs hw hq => exact h.shrink rfl (fun j w hw => ⟨w, hw, .refl _⟩) rfl (Or.inr rfl)
  | pulled hw hc hs hlt hq => exact h.set hw rfl (Worker.held_pulled hq ▸ .refl _) rfl rfl
  | heardStop hw hc hs hq => exact h.set hw rfl (Worker.held_heardStop hq ▸ .refl _) rfl rfl
  | gaveUp hw hc hb hf => exact h.set hw rfl (Worker.held_drop _) rfl rfl
  | took hw hc hb hf => exact h.set hw rfl (.refl _) rfl rfl
  | accepted hw hp => exact h.set hw rfl (.refl _) rfl rfl
  | refused hw hp => exact h.set hw rfl (.refl _) rfl rfl
  | reported hw hp => exact h.set hw rfl (Worker.held_drop _) rfl rfl
  | crashedIdle hw hc hb => exact h.set hw rfl (List.nil_sublist _) rfl rfl
  | crashed hw hp => exact h.set hw rfl (List.nil_sublist _) rfl rfl
  | confirmed hw hp => exact h.set hw rfl (.refl _) rfl rfl
  | finished hw hp => exact h.set hw rfl (Worker.held_drop _) rfl rfl
  | exited hw hc hs hb => exact h.set hw rfl (.refl _) rfl rfl
  | opened hs hn hp => exact h.map rfl Worker.held_start rfl (Or.inl rfl)
  | openFailed hs hn hr =>
    refine h.shrink (length_startFrom hr) (fun j v hv => ?_) rfl (Or.inl rfl)
    obtain ⟨w, hw, rfl | ⟨-, rfl⟩⟩ := getElem?_startFrom hr hv
    · exact ⟨v, hw, .refl _⟩
    · exact ⟨w, hw, w.held_start⟩
  | toldToStop hs => exact h.map rfl (fun w => Worker.held_told w ▸ .refl _) rfl (Or.inr rfl)
  | closed hs hq ht => exact h.map rfl Worker.held_join rfl (Or.inr rfl)
  | closedIdle hs ht => exact h.shrink rfl (fun j w hw => ⟨w, hw, .refl _⟩) rfl (Or.inr rfl)

/-! ## The tracker -/

/-- What is pending is what was sent, and the last safe item was sent before. -/
structure Tracked (s : Depot ι) : Prop where
  next : s.dest.tracker.nextSeq = s.sent.length
  sorted : s.dest.tracker.pending.Pairwise fun p q => p.seq < q.seq
  item : ∀ p ∈ s.dest.tracker.pending, s.sent[p.seq]? = some p.item
  last : ∀ m, s.dest.tracker.last = some m →
    ∃ k, s.sent[k]? = some m ∧ ∀ p ∈ s.dest.tracker.pending, k < p.seq

theorem Tracked.of_eq (h : Tracked s) (ht : s'.dest.tracker = s.dest.tracker)
    (hs : s'.sent = s.sent) : Tracked s' where
  next := by rw [ht, hs, h.next]
  sorted := ht ▸ h.sorted
  item := by
    rw [ht, hs]
    exact h.item
  last := by
    rw [ht, hs]
    exact h.last

/-- Pending dispatches that are marked or fewer, and settled, fit what was sent just as well. -/
theorem Tracked.settle (h : Tracked s) {ps : List (PendingAck Mutation)}
    (hsorted : ps.Pairwise fun p q => p.seq < q.seq)
    (hps : ∀ p ∈ ps, ∃ q ∈ s.dest.tracker.pending, p.seq = q.seq ∧ p.item = q.item)
    (ht : AckTracker.Settled ps s.dest.tracker.last s'.dest.tracker)
    (hn : s'.dest.tracker.nextSeq = s.dest.tracker.nextSeq) (hs : s'.sent = s.sent) :
    Tracked s' where
  next := by rw [hn, hs, h.next]
  sorted := ht.pairwise hsorted
  item := by
    intro p hp
    obtain ⟨q, hq, hseq, hitem⟩ := hps p (ht.mem hp)
    rw [hs, hseq, hitem, h.item q hq]
  last := by
    intro m hm
    rw [hs]
    rcases ht.last hsorted with hl | ⟨p, hp, -, hl, hlt⟩
    · obtain ⟨k, hk, hlt⟩ := h.last m (hl ▸ hm)
      refine ⟨k, hk, fun p hp => ?_⟩
      obtain ⟨q, hq, hseq, -⟩ := hps p (ht.mem hp)
      exact hseq ▸ hlt q hq
    · obtain ⟨q, hq, hseq, hitem⟩ := hps p hp
      refine ⟨p.seq, ?_, hlt⟩
      rw [hseq, h.item q hq, ← hitem, ← hl, hm]

theorem tracked_step (h : Tracked s) (hst : Step s s') : Tracked s' := by
  cases hst with
  | enrolled hs =>
    exact {
      next := by simp [AckTracker.register, h.next]
      sorted := by
        refine List.pairwise_append.2 ⟨h.sorted, List.pairwise_singleton _ _, fun p hp q hq => ?_⟩
        obtain rfl := List.mem_singleton.1 hq
        show p.seq < s.dest.tracker.nextSeq
        rw [h.next]
        exact (List.getElem?_eq_some_iff.1 (h.item p hp)).1
      item := by
        intro p hp
        rcases List.mem_append.1 hp with hp | hp
        · have hi := h.item p hp
          rw [List.getElem?_append_left (List.getElem?_eq_some_iff.1 hi).1]
          exact hi
        · obtain rfl := List.mem_singleton.1 hp
          simp [h.next]
      last := by
        intro m hm
        obtain ⟨k, hk, hlt⟩ := h.last m hm
        have hk' := (List.getElem?_eq_some_iff.1 hk).1
        refine ⟨k, ?_, fun p hp => ?_⟩
        · rw [List.getElem?_append_left hk']
          exact hk
        · rcases List.mem_append.1 hp with hp | hp
          · exact hlt p hp
          · obtain rfl := List.mem_singleton.1 hp
            exact h.next ▸ hk' }
  | @turnedAway i x ms w e hs hw hq =>
    exact h.settle (h.sorted.filter _) (fun p hp => ⟨p, (List.mem_filter.1 hp).1, rfl, rfl⟩)
      (AckTracker.settled_cancel _ x.seq) (AckTracker.nextSeq_cancel _ _) rfl
  | @confirmed i w seq left hw hp =>
    refine h.settle (by simpa [List.pairwise_map] using h.sorted) (fun p hp => ?_)
      (AckTracker.settled_ack _ seq) (AckTracker.nextSeq_ack _ _) rfl
    obtain ⟨q, hq, rfl⟩ := List.mem_map.1 hp
    exact ⟨q, hq, AckTracker.mark_seq seq q, AckTracker.mark_item seq q⟩
  | closed hs hq ht =>
    exact {
      next := h.next
      sorted := List.Pairwise.nil
      item := fun p hp => absurd hp List.not_mem_nil
      last := fun m hm => by
        obtain ⟨k, hk, -⟩ := h.last m hm
        exact ⟨k, hk, fun p hp => absurd hp List.not_mem_nil⟩ }
  -- Nothing else touches the tracker, or what was sent.
  | _ => exact h.of_eq rfl rfl

/-! ## Publishing -/

/-- The worker acknowledges only dispatches of its batch, and this is published. -/
def Acknowledges (pub : List Mutation) (w : Worker) : Prop :=
  ∀ left, w.phase = .acknowledging left →
    (∀ q ∈ left, ∃ x ∈ w.batch, x.seq = q) ∧ ∀ x ∈ w.batch, x.mutation ∈ pub

/-- What is acknowledged was published. -/
structure Honest (s : Depot ι) : Prop where
  acking : ∀ (i : Nat) (w : Worker), s.dest.workers[i]? = some w → Acknowledges s.published w
  acked : ∀ p ∈ s.dest.tracker.pending, p.acked = true → p.item ∈ s.published

theorem acknowledges_of_collecting {pub : List Mutation} {w : Worker}
    (h : w.phase = .collecting) : Acknowledges pub w := by
  intro left hp
  rw [h] at hp
  cases hp

theorem Acknowledges.mono {pub pub' : List Mutation} {w : Worker} (h : Acknowledges pub w)
    (hsub : pub ⊆ pub') : Acknowledges pub' w := fun left hp =>
  ⟨(h left hp).1, fun x hx => hsub ((h left hp).2 x hx)⟩

theorem acknowledges_start (pub : List Mutation) (w : Worker) : Acknowledges pub w.start :=
  acknowledges_of_collecting rfl

theorem acknowledges_told {pub : List Mutation} {w : Worker} (h : Acknowledges pub w) :
    Acknowledges pub (if w.hasThread && w.hasQueue then w.push .stop else w) := by
  split
  · exact h
  · exact h

theorem acknowledges_join {pub : List Mutation} {w : Worker} (h : Acknowledges pub w) :
    Acknowledges pub w.join := by
  unfold Worker.join
  split
  · exact acknowledges_of_collecting rfl
  · exact acknowledges_of_collecting rfl
  · exact h
  · exact h

/-- Whatever counts as acknowledged after one more acknowledgement was published. -/
theorem acked_mark (hn : Numbered s) (ht : Tracked s) (h : Honest s) {i : Nat} {w : Worker}
    {seq : Nat} {left : List Nat} (hw : s.dest.workers[i]? = some w)
    (hp : w.phase = .acknowledging (seq :: left)) :
    ∀ p ∈ s.dest.tracker.pending.map (AckTracker.mark seq), p.acked = true →
      p.item ∈ s.published := by
  intro p hp' ha
  obtain ⟨q, hq, rfl⟩ := List.mem_map.1 hp'
  rw [AckTracker.mark_item]
  rcases (AckTracker.mark_acked seq q).1 ha with ha | rfl
  · exact h.acked q hq ha
  · obtain ⟨hleft, hbatch⟩ := h.acking i w hw _ hp
    obtain ⟨x, hx, hseq⟩ := hleft _ List.mem_cons_self
    have hk := (hn.held i w hw x (List.mem_append_left _ hx)).1
    rw [hseq, ht.item q hq] at hk
    rw [Option.some.inj hk]
    exact hbatch x hx

theorem honest_step (hn : Numbered s) (ht : Tracked s) (h : Honest s) (hst : Step s s') :
    Honest s' := by
  cases hst with
  | same => exact h
  | called hs hc => exact ⟨h.acking, h.acked⟩
  | asked hs => exact ⟨h.acking, h.acked⟩
  | assigned hs hf hr => exact ⟨h.acking, h.acked⟩
  | enrolled hs =>
    refine ⟨h.acking, fun p hp ha => ?_⟩
    rcases List.mem_append.1 hp with hp | hp
    · exact h.acked p hp ha
    · obtain rfl := List.mem_singleton.1 hp
      cases ha
  | placed hs hw hq =>
    have hack := h.acking _ _ hw
    exact ⟨forall_getElem?_set h.acking fun left hp => hack left hp, h.acked⟩
  | @turnedAway i x ms w e hs hw hq =>
    refine ⟨h.acking, fun p hp ha => ?_⟩
    have hp := (AckTracker.settled_cancel s.dest.tracker x.seq).mem hp
    exact h.acked p (List.mem_filter.1 hp).1 ha
  | pulled hw hc hs hlt hq =>
    have hcollecting := (Worker.isCollecting_iff.1 hc).2
    exact ⟨forall_getElem?_set h.acking (acknowledges_of_collecting hcollecting), h.acked⟩
  | heardStop hw hc hs hq =>
    have hcollecting := (Worker.isCollecting_iff.1 hc).2
    exact ⟨forall_getElem?_set h.acking (acknowledges_of_collecting hcollecting), h.acked⟩
  | gaveUp hw hc hb hf =>
    exact ⟨forall_getElem?_set h.acking (acknowledges_of_collecting rfl), h.acked⟩
  | took hw hc hb hf =>
    refine ⟨forall_getElem?_set h.acking fun left hp => ?_, h.acked⟩
    cases hp
  | @accepted i w hw hp =>
    -- What is published grows by the batch, and just this batch is acknowledged next.
    have hsub : s.published ⊆ s.published ++ w.batch.map (·.mutation) := List.subset_append_left _ _
    refine ⟨forall_getElem?_set (fun j v hv => (h.acking j v hv).mono hsub) ?_,
      fun p hp ha => hsub (h.acked p hp ha)⟩
    intro left hp
    cases hp
    refine ⟨fun q hq => ?_, fun x hx => List.mem_append_right _ (List.mem_map_of_mem hx)⟩
    obtain ⟨x, hx, rfl⟩ := List.mem_map.1 hq
    exact ⟨x, hx, rfl⟩
  | refused hw hp =>
    refine ⟨forall_getElem?_set h.acking fun left hp => ?_, h.acked⟩
    cases hp
  | reported hw hp =>
    exact ⟨forall_getElem?_set h.acking (acknowledges_of_collecting rfl), h.acked⟩
  | crashedIdle hw hc hb =>
    exact ⟨forall_getElem?_set h.acking (acknowledges_of_collecting rfl), h.acked⟩
  | crashed hw hp =>
    exact ⟨forall_getElem?_set h.acking (acknowledges_of_collecting rfl), h.acked⟩
  | @confirmed i w seq left hw hp =>
    obtain ⟨hleft, hbatch⟩ := h.acking i w hw _ hp
    refine ⟨forall_getElem?_set h.acking fun l hl => ?_, fun p hpend ha => ?_⟩
    · cases hl
      exact ⟨fun q hq => hleft q (List.mem_cons_of_mem _ hq), hbatch⟩
    · exact acked_mark hn ht h hw hp p ((AckTracker.settled_ack s.dest.tracker seq).mem hpend) ha
  | finished hw hp =>
    exact ⟨forall_getElem?_set h.acking (acknowledges_of_collecting rfl), h.acked⟩
  | exited hw hc hs hb =>
    have hcollecting := (Worker.isCollecting_iff.1 hc).2
    exact ⟨forall_getElem?_set h.acking (acknowledges_of_collecting hcollecting), h.acked⟩
  | opened hs hn hp => exact ⟨forall_getElem?_map fun j w _ => acknowledges_start _ w, h.acked⟩
  | openFailed hs hn hr =>
    refine ⟨fun j v hv => ?_, h.acked⟩
    obtain ⟨w, hw, rfl | ⟨-, rfl⟩⟩ := getElem?_startFrom hr hv
    · exact h.acking j v hw
    · exact acknowledges_start _ w
  | toldToStop hs =>
    exact ⟨forall_getElem?_map fun j w hw => acknowledges_told (h.acking j w hw), h.acked⟩
  | closed hs hq ht =>
    exact ⟨forall_getElem?_map fun j w hw => acknowledges_join (h.acking j w hw),
      fun p hp => absurd hp List.not_mem_nil⟩
  | closedIdle hs ht => exact ⟨h.acking, h.acked⟩

/-! ## Waiting -/

/-- The number is pending and not acknowledged. -/
def Waits (s : Depot ι) (seq : Nat) : Prop :=
  ∃ p ∈ s.dest.tracker.pending, p.seq = seq ∧ p.acked = false

/-- What is not published yet is waited for. -/
structure Waiting (s : Depot ι) : Prop where
  unpublished : ∀ (i : Nat) (w : Worker), s.dest.workers[i]? = some w →
    ∀ x ∈ w.unpublished, s.Waits x.seq
  placing : ∀ i x ms, s.caller = .placing i x ms → s.Waits x.seq

theorem waits_ack {d : Destination ι} {seq q : Nat} (hne : q ≠ seq)
    (h : ∃ p ∈ d.tracker.pending, p.seq = q ∧ p.acked = false) :
    ∃ p ∈ (d.tracker.ack seq).pending, p.seq = q ∧ p.acked = false := by
  obtain ⟨p, hp, rfl, ha⟩ := h
  have hm : AckTracker.mark seq p = p := if_neg hne
  exact ⟨p, (AckTracker.settled_ack _ seq).mem_of_not_acked (hm ▸ List.mem_map_of_mem hp) ha, rfl,
    ha⟩

theorem waits_cancel {d : Destination ι} {seq q : Nat} (hne : q ≠ seq)
    (h : ∃ p ∈ d.tracker.pending, p.seq = q ∧ p.acked = false) :
    ∃ p ∈ (d.tracker.cancel seq).pending, p.seq = q ∧ p.acked = false := by
  obtain ⟨p, hp, rfl, ha⟩ := h
  have hf : p ∈ d.tracker.pending.filter (·.seq != seq) :=
    List.mem_filter.2 ⟨hp, by simpa using hne⟩
  exact ⟨p, (AckTracker.settled_cancel _ seq).mem_of_not_acked hf ha, rfl, ha⟩

theorem Waiting.shrink (h : Waiting s)
    (hd : ∀ (i : Nat) (v : Worker), s'.dest.workers[i]? = some v →
      ∃ w, s.dest.workers[i]? = some w ∧ v.unpublished ⊆ w.unpublished)
    (ht : s'.dest.tracker = s.dest.tracker)
    (hc : s'.caller = s.caller ∨ (s'.caller.isPlain || s'.caller.isClosing) = true) :
    Waiting s' where
  unpublished := by
    intro i v hv x hx
    obtain ⟨w, hw, hsub⟩ := hd i v hv
    unfold Waits
    rw [ht]
    exact h.unpublished i w hw x (hsub hx)
  placing := by
    intro i x ms hcall
    rcases hc with hc | hc
    · unfold Waits
      rw [ht]
      exact h.placing i x ms (hc ▸ hcall)
    · rw [hcall] at hc
      cases hc

theorem Waiting.set (h : Waiting s) {i : Nat} {w v : Worker}
    (hw : s.dest.workers[i]? = some w) (hd : s'.dest.workers = s.dest.workers.set i v)
    (hv : v.unpublished ⊆ w.unpublished) (ht : s'.dest.tracker = s.dest.tracker)
    (hc : s'.caller = s.caller) : Waiting s' := by
  refine h.shrink ?_ ht (Or.inl hc)
  rw [hd]
  exact forall_getElem?_set (fun j u hu => ⟨u, hu, List.Subset.refl _⟩) ⟨w, hw, hv⟩

theorem Waiting.map (h : Waiting s) {f : Worker → Worker}
    (hd : s'.dest.workers = s.dest.workers.map f) (hf : ∀ w, (f w).unpublished ⊆ w.unpublished)
    (ht : s'.dest.tracker = s.dest.tracker)
    (hc : s'.caller = s.caller ∨ (s'.caller.isPlain || s'.caller.isClosing) = true) :
    Waiting s' := by
  refine h.shrink ?_ ht hc
  rw [hd]
  exact forall_getElem?_map fun j w hw => ⟨w, hw, hf w⟩

/-- The dispatch that a worker acknowledges is not among those that still wait. -/
theorem seq_ne_of_acking (hn : Numbered s) (hh : Honest s) {i : Nat} {w : Worker} {seq : Nat}
    {left : List Nat} (hw : s.dest.workers[i]? = some w)
    (hp : w.phase = .acknowledging (seq :: left)) {j : Nat} {v : Worker}
    (hv : s.dest.workers[j]? = some v) {x : Dispatch} (hx : x ∈ v.unpublished) :
    x.seq ≠ seq := by
  obtain ⟨y, hy, rfl⟩ := (hh.acking i w hw _ hp).1 seq List.mem_cons_self
  intro hxy
  have hkx := hn.held j v hv x (v.unpublished_sublist.subset hx)
  have hky := hn.held i w hw y (List.mem_append_left _ hy)
  obtain rfl := hkx.eq hky hxy
  obtain rfl := Option.some.inj (hv.symm.trans hw)
  -- In one worker the batch comes before the queue.
  rw [Worker.unpublished_of_acknowledging hp] at hx
  have hlt := (List.pairwise_append.1 (hn.order j v hv)).2.2 y hy x hx
  omega

theorem waiting_step (hsane : AllSane s) (hstage : Stage s) (hn : Numbered s) (hh : Honest s)
    (h : HasLost s ∨ Waiting s) (hst : Step s s') : HasLost s' ∨ Waiting s' := by
  rcases h with h | h
  · exact Or.inl (lost_step hsane h hst)
  cases hst with
  | same => exact Or.inr h
  | called hs hc =>
    exact Or.inr (h.shrink (fun j w hw => ⟨w, hw, .refl _⟩) rfl (Or.inr (by simp [hc])))
  | asked hs => exact Or.inr (h.shrink (fun j w hw => ⟨w, hw, .refl _⟩) rfl (Or.inr rfl))
  | assigned hs hf hr =>
    refine Or.inr ⟨h.unpublished, fun _ _ _ hcall => ?_⟩
    cases hcall
  | enrolled hs =>
    refine Or.inr ⟨fun j w hw x hx => ?_, fun _ _ _ hcall => ?_⟩
    · obtain ⟨p, hp, hw⟩ := h.unpublished j w hw x hx
      exact ⟨p, List.mem_append_left _ hp, hw⟩
    · cases hcall
      exact ⟨_, List.mem_append_right _ List.mem_cons_self, rfl, rfl⟩
  | @placed i x ms w hs hw hq =>
    refine Or.inr ⟨forall_getElem?_set h.unpublished fun y hy => ?_, fun _ _ _ hcall => ?_⟩
    · rw [Worker.unpublished_push] at hy
      rcases List.mem_append.1 hy with hy | hy
      · exact h.unpublished i w hw y hy
      · obtain rfl := List.mem_singleton.1 hy
        exact h.placing i y ms hs
    · cases hcall
  | @turnedAway i x ms w e hs hw hq =>
    refine Or.inr ⟨fun j v hv y hy => ?_, fun _ _ _ hcall => ?_⟩
    · -- What is turned away is newer than all that is held.
      have hlt := (hn.placing i x ms hs).2 j v hv y (v.unpublished_sublist.subset hy)
      exact waits_cancel (Nat.ne_of_lt hlt) (h.unpublished j v hv y hy)
    · cases hcall
  | pulled hw hc hs hlt hq =>
    exact Or.inr (h.set hw rfl
      (Worker.unpublished_pulled (Worker.isCollecting_iff.1 hc).2 hq ▸ .refl _) rfl rfl)
  | heardStop hw hc hs hq =>
    exact Or.inr (h.set hw rfl (Worker.unpublished_heardStop hq ▸ .refl _) rfl rfl)
  | gaveUp hw hc hb hf => exact Or.inr (h.set hw rfl (Worker.unpublished_drop _) rfl rfl)
  | took hw hc hb hf =>
    exact Or.inr (h.set hw rfl
      (Worker.unpublished_publishing (Worker.isCollecting_iff.1 hc).2 ▸ .refl _) rfl rfl)
  | accepted hw hp =>
    refine Or.inr (h.set hw rfl ?_ rfl rfl)
    rw [Worker.unpublished_acknowledging]
    exact (Worker.queued_sublist _).subset
  | refused hw hp =>
    exact Or.inr (h.set hw rfl (Worker.unpublished_failing hp _ ▸ .refl _) rfl rfl)
  | reported hw hp => exact Or.inr (h.set hw rfl (Worker.unpublished_drop _) rfl rfl)
  | crashedIdle hw hc hb => exact Or.inr (h.set hw rfl (List.nil_subset _) rfl rfl)
  | crashed hw hp => exact Or.inr (h.set hw rfl (List.nil_subset _) rfl rfl)
  | @confirmed i w seq left hw hp =>
    refine Or.inr ⟨forall_getElem?_set (fun j v hv x hx => ?_) fun x hx => ?_, fun j x ms hs => ?_⟩
    · exact waits_ack (seq_ne_of_acking hn hh hw hp hv hx) (h.unpublished j v hv x hx)
    · have hx : x ∈ w.unpublished := by
        rw [Worker.unpublished_of_acknowledging hp]
        exact hx
      exact waits_ack (seq_ne_of_acking hn hh hw hp hw hx) (h.unpublished i w hw x hx)
    · -- What the caller is about to place is newer than the batch.
      obtain ⟨y, hy, rfl⟩ := (hh.acking i w hw _ hp).1 seq List.mem_cons_self
      have hlt := (hn.placing j x ms hs).2 i w hw y (List.mem_append_left _ hy)
      exact waits_ack (Nat.ne_of_gt hlt) (h.placing j x ms hs)
  | finished hw hp => exact Or.inr (h.set hw rfl (Worker.unpublished_drop _) rfl rfl)
  | exited hw hc hs hb => exact Or.inr (h.set hw rfl (.refl _) rfl rfl)
  | opened hs hn hp =>
    exact Or.inr (h.map rfl (fun w => (Worker.unpublished_start w).subset) rfl (Or.inl rfl))
  | openFailed hs hn hr =>
    refine Or.inr (h.shrink (fun j v hv => ?_) rfl (Or.inl rfl))
    obtain ⟨w, hw, rfl | ⟨-, rfl⟩⟩ := getElem?_startFrom hr hv
    · exact ⟨v, hw, .refl _⟩
    · exact ⟨w, hw, (Worker.unpublished_start w).subset⟩
  | toldToStop hs =>
    exact Or.inr (h.map rfl (fun w => Worker.unpublished_told w ▸ .refl _) rfl (Or.inr rfl))
  | closed hs hq hany =>
    cases hstage with
    | parked h₁ h₂ h₃ =>
      obtain ⟨w, hw, hthread⟩ := hany
      obtain ⟨j, hj⟩ := List.mem_iff_getElem?.1 hw
      simp [Worker.hasThread, h₃ j w hj] at hthread
    | lost h₁ h₂ h₃ => exact Or.inl (h₃.map rfl fun w hw => status_join_of_lost hw)
    | atWork h₁ h₂ h₃ =>
      -- Every queue is emptied, so nothing is left that could wait.
      refine Or.inr ⟨forall_getElem?_map fun j w hw x hx => ?_, fun _ _ _ hcall => ?_⟩
      · rw [Worker.unpublished_join (hsane j w hw) (h₃ j w hw)] at hx
        cases hx
      · cases hcall
  | closedIdle hs ht =>
    exact Or.inr (h.shrink (fun j w hw => ⟨w, hw, .refl _⟩) rfl (Or.inr rfl))

/-! ## All of it -/

/-- What holds of a destination in every state. -/
structure Sound (s : Depot ι) : Prop where
  sane : AllSane s
  stage : Stage s
  numbered : Numbered s
  tracked : Tracked s
  honest : Honest s
  waiting : HasLost s ∨ Waiting s

theorem sound_step (h : Sound s) (hst : Step s s') : Sound s' where
  sane := sane_step h.sane hst
  stage := stage_step h.sane h.stage hst
  numbered := numbered_step h.tracked.next h.numbered hst
  tracked := tracked_step h.tracked hst
  honest := honest_step h.numbered h.tracked h.honest hst
  waiting := waiting_step h.sane h.stage h.numbered h.honest h.waiting hst

theorem sane_new (n : Nat) (c : Bool) : Worker.new.Sane n c where
  size := Nat.zero_le n
  busy := fun hp => absurd rfl hp
  idle := fun _ => rfl
  gone := fun _ => rfl
  shape := rfl
  stopped := fun hr => by cases hr
  ended := fun he => by cases he

theorem sound_start {p : DestinationPlan} {d : Destination ι} (h : p.build = .ok d) :
    Sound (start d) := by
  unfold DestinationPlan.build at h
  split at h
  · cases h
  · cases h
    have hnew : ∀ (i : Nat) (w : Worker), (List.replicate p.poolSize Worker.new)[i]? = some w →
        w = .new := fun i w hw => List.eq_of_mem_replicate (List.mem_of_getElem? hw)
    exact {
      sane := fun i w hw => by
        obtain rfl := hnew i w hw
        exact sane_new _ _
      stage := .parked rfl rfl fun i w hw => by
        obtain rfl := hnew i w hw
        rfl
      numbered := {
        held := fun i w hw x hx => by
          rw [hnew i w hw] at hx
          cases hx
        order := fun i w hw => by
          rw [hnew i w hw]
          exact List.Pairwise.nil
        assigned := fun _ _ _ hc => by cases hc
        placing := fun _ _ _ hc => by cases hc }
      tracked := {
        next := rfl
        sorted := List.Pairwise.nil
        item := fun p hp => absurd hp List.not_mem_nil
        last := fun m hm => by cases hm }
      honest := {
        acking := fun i w hw => by
          rw [hnew i w hw]
          exact acknowledges_of_collecting rfl
        acked := fun p hp => absurd hp List.not_mem_nil }
      waiting := Or.inr {
        unpublished := fun i w hw x hx => by
          rw [hnew i w hw] at hx
          cases hx
        placing := fun _ _ _ hc => by cases hc } }

end Depot

end ChangeFeed
