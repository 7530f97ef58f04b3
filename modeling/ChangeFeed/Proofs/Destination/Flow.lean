import ChangeFeed.Proofs.Destination.Dispatches

/-!
# From queues to the publisher

For each worker of an open destination, what it published and what it still holds is what was routed
to it, in the same order; or it gave something up, and publishes nothing more.

**The flow** (`Depot.Flow`). With what is known of all that was routed to a worker: it belongs
there, and it was sent in that order.

Main result: `flow_step`.
-/

namespace ChangeFeed

/-- What an event tells to be published. -/
def PublishEvent.published : PublishEvent → List Dispatch
  | .answered _ b .accepted => b
  | _ => []

/-- What an event tells that a worker published. -/
def PublishEvent.publishedBy (i : Nat) : PublishEvent → List Dispatch
  | .answered j b .accepted => if j = i then b else []
  | _ => []

namespace Depot

variable {ι : Type} {s s' : Depot ι}

/-- What a worker published since the destination was opened. -/
def acceptedBy (i : Nat) (s : Depot ι) : List Dispatch := s.events.flatMap (·.publishedBy i)

theorem acceptedBy_append {i : Nat} {e : PublishEvent} (h : s'.events = s.events ++ [e]) :
    s'.acceptedBy i = s.acceptedBy i ++ e.publishedBy i := by
  simp [acceptedBy, h]

/-! ## The flow -/

/-- The worker published what was routed to it, apart from what it still holds. -/
def Whole (s : Depot ι) (i : Nat) (w : Worker) : Prop :=
  s.acceptedBy i ++ w.unpublished = s.routed i

/-- The worker gave something up, and has nothing more to publish. -/
def Broken (s : Depot ι) (i : Nat) (w : Worker) : Prop :=
  s.acceptedBy i <+: s.routed i ∧ w.phase = .collecting ∧
    (s.dest.failed = true ∨ w.status = .crashed)

/-- What was routed to each worker, and what became of it. -/
structure Flow (s : Depot ι) : Prop where
  known : ∀ i, ∀ x ∈ s.routed i, s.Knows i x
  order : ∀ i, (s.routed i).Pairwise fun x y => x.seq < y.seq
  placing : ∀ i x ms, s.caller = .placing i x ms → ∀ j, ∀ y ∈ s.routed j, y.seq < x.seq
  stray : ∀ i, s.dest.workers[i]? = none → s.acceptedBy i = []
  flow : ∀ (i : Nat) (w : Worker), s.dest.workers[i]? = some w → s.Whole i w ∨ s.Broken i w

theorem prefix_of_flow {i : Nat} {w : Worker} (h : s.Whole i w ∨ s.Broken i w) :
    s.acceptedBy i <+: s.routed i := by
  rcases h with h | h
  · exact ⟨_, h⟩
  · exact h.1

/-- A worker that is not gathering a batch gave nothing up. -/
theorem whole_of_busy {i : Nat} {w : Worker} (h : s.Whole i w ∨ s.Broken i w)
    (hp : w.phase ≠ .collecting) : s.Whole i w :=
  h.resolve_right fun hb => hp hb.2.1

theorem Flow.mono (h : Flow s) (hlen : s'.dest.workers.length = s.dest.workers.length)
    {ms : List Mutation} (hs : s'.sent = s.sent ++ ms) (hr : s'.routed = s.routed)
    (hc : ∀ i x ms, s'.caller = .placing i x ms → ∀ j, ∀ y ∈ s.routed j, y.seq < x.seq)
    (hstray : ∀ i, s'.dest.workers[i]? = none → s'.acceptedBy i = [])
    (hf : ∀ (i : Nat) (w : Worker), s'.dest.workers[i]? = some w → s'.Whole i w ∨ s'.Broken i w) :
    Flow s' where
  known := by
    intro i x hx
    rw [hr] at hx
    exact (h.known i x hx).mono hlen hs
  order := hr ▸ h.order
  placing := hr ▸ hc
  stray := hstray
  flow := hf

/-- Workers, events and routes stay as they are. -/
theorem Flow.same (h : Flow s) (hd : s'.dest.workers = s.dest.workers)
    (hfail : s'.dest.failed = s.dest.failed) {ms : List Mutation} (hs : s'.sent = s.sent ++ ms)
    (hr : s'.routed = s.routed) (he : s'.events = s.events)
    (hc : ∀ i x ms, s'.caller = .placing i x ms → ∀ j, ∀ y ∈ s.routed j, y.seq < x.seq) :
    Flow s' := by
  refine h.mono (by rw [hd]) hs hr hc ?_ ?_
  · unfold acceptedBy
    rw [hd, he]
    exact h.stray
  · unfold Whole Broken acceptedBy
    rw [hd, hfail, hr, he]
    exact h.flow

/-- One worker changes, and what it holds fits what it published. -/
theorem Flow.set (h : Flow s) {i : Nat} {w v : Worker} (hw : s.dest.workers[i]? = some w)
    (hd : s'.dest.workers = s.dest.workers.set i v) (hs : s'.sent = s.sent)
    (hr : s'.routed = s.routed) (hc : s'.caller = s.caller)
    (hfail : s.dest.failed = true → s'.dest.failed = true)
    (he : ∀ j ≠ i, s'.acceptedBy j = s.acceptedBy j) (hv : s'.Whole i v ∨ s'.Broken i v) :
    Flow s' := by
  refine h.mono (by rw [hd, List.length_set]) (by rw [hs, List.append_nil]) hr
    (hc ▸ h.placing) ?_ ?_
  · intro j hj
    rw [hd, List.getElem?_set] at hj
    split at hj
    · rename_i hij
      subst hij
      rw [if_pos (List.getElem?_eq_some_iff.1 hw).1] at hj
      cases hj
    · rename_i hij
      rw [he j (Ne.symm hij), h.stray j hj]
  · intro j u hu
    rw [hd] at hu
    by_cases hij : j = i
    · subst hij
      rw [List.getElem?_set_self (List.getElem?_eq_some_iff.1 hw).1] at hu
      cases hu
      exact hv
    · rw [List.getElem?_set_ne (Ne.symm hij)] at hu
      unfold Whole Broken
      rw [he j hij, hr]
      exact (h.flow j u hu).imp_right fun hb => ⟨hb.1, hb.2.1, hb.2.2.imp_left hfail⟩

/-- A worker that holds what it held before fits as well as before. -/
theorem flow_keep {i : Nat} {w v : Worker} (h : s.Whole i w ∨ s.Broken i w)
    (hu : v.unpublished = w.unpublished) (hp : w.phase = .collecting → v.phase = .collecting)
    (hst : w.status = .crashed → v.status = .crashed) : s.Whole i v ∨ s.Broken i v := by
  rcases h with h | h
  · refine Or.inl ?_
    rw [Whole, hu]
    exact h
  · exact Or.inr ⟨h.1, hp h.2.1, h.2.2.imp_right hst⟩

theorem publishedBy_of_ne {i j : Nat} (hij : j ≠ i) (b : List Dispatch) (v : Verdict) :
    (PublishEvent.answered i b v).publishedBy j = [] := by
  cases v <;> simp [PublishEvent.publishedBy, hij.symm]

/-- An event of one worker tells of nothing that another published. -/
theorem acceptedBy_note {i : Nat} {b : List Dispatch} {v : Verdict}
    (he : s'.events = s.events ++ [.answered i b v]) :
    ∀ j ≠ i, s'.acceptedBy j = s.acceptedBy j := by
  intro j hij
  rw [acceptedBy_append he, publishedBy_of_ne hij, List.append_nil]

/-- A worker that crashes, or reports that its batch was refused, gave something up. -/
theorem Flow.give (h : Flow s) {i : Nat} {w v : Worker} {e : PublishEvent}
    (hw : s.dest.workers[i]? = some w) (hd : s'.dest.workers = s.dest.workers.set i v)
    (hs : s'.sent = s.sent) (hr : s'.routed = s.routed) (hc : s'.caller = s.caller)
    (hfail : s.dest.failed = true → s'.dest.failed = true)
    (he : s'.events = s.events ++ [e]) (hno : ∀ j, e.publishedBy j = [])
    (hv : v.phase = .collecting) (hb : s'.dest.failed = true ∨ v.status = .crashed) : Flow s' := by
  have hacc : ∀ j, s'.acceptedBy j = s.acceptedBy j := by
    intro j
    rw [acceptedBy_append he, hno, List.append_nil]
  refine h.set hw hd hs hr hc hfail (fun j _ => hacc j) (Or.inr ⟨?_, hv, hb⟩)
  rw [hacc, hr]
  exact prefix_of_flow (h.flow i w hw)

theorem flow_placed (hs : Sound s) (h : Flow s) {i : Nat} {x : Dispatch} {ms : List Mutation}
    {w : Worker} (hc : s.caller = .placing i x ms) (hw : s.dest.workers[i]? = some w) :
    Flow { s.setWorker i (w.push (.dispatch x)) with
      caller := .sending ms
      routed := fun j => if j = i then s.routed j ++ [x] else s.routed j } := by
  have hlen : (s.dest.workers.set i (w.push (.dispatch x))).length = s.dest.workers.length :=
    List.length_set
  have hlt := h.placing i x ms hc
  refine ⟨fun j y hy => ?_, fun j => ?_, ?_, fun j hj => ?_, fun j v hv => ?_⟩
  · have hk : s.Knows j y := by
      simp only at hy
      split at hy
      · rename_i hij
        subst hij
        rcases List.mem_append.1 hy with hy | hy
        · exact h.known j y hy
        · obtain rfl := List.mem_singleton.1 hy
          exact (hs.numbered.placing j y ms hc).1
      · exact h.known j y hy
    exact hk.mono hlen (List.append_nil _).symm
  · simp only
    split
    · refine List.pairwise_append.2 ⟨h.order j, List.pairwise_singleton _ _, fun y hy z hz => ?_⟩
      obtain rfl := List.mem_singleton.1 hz
      exact hlt j y hy
    · exact h.order j
  · intro _ _ _ hcall
    cases hcall
  · refine h.stray j (List.getElem?_eq_none_iff.2 ?_)
    rw [← hlen]
    exact List.getElem?_eq_none_iff.1 hj
  · by_cases hij : j = i
    · subst hij
      have hv : (s.dest.workers.set j (w.push (.dispatch x)))[j]? = some v := hv
      rw [List.getElem?_set_self (List.getElem?_eq_some_iff.1 hw).1] at hv
      cases hv
      -- The route of the worker and what it holds grow by the same dispatch.
      rcases h.flow j w hw with hf | hf
      · refine Or.inl ?_
        show s.acceptedBy j ++ _ = if j = j then s.routed j ++ [x] else s.routed j
        rw [if_pos rfl, Worker.unpublished_push, ← List.append_assoc, hf]
      · refine Or.inr ⟨?_, hf.2⟩
        show s.acceptedBy j <+: if j = j then s.routed j ++ [x] else s.routed j
        rw [if_pos rfl]
        exact hf.1.trans (List.prefix_append _ _)
    · have hv : (s.dest.workers.set i (w.push (.dispatch x)))[j]? = some v := hv
      rw [List.getElem?_set_ne (Ne.symm hij)] at hv
      have hf := h.flow j v hv
      unfold Whole Broken
      simp only [if_neg hij]
      exact hf

theorem getD_queued {i : Nat} {w : Worker} (hw : s.dest.workers[i]? = some w) :
    (s.dest.workers[i]?.map Worker.queued).getD [] = w.queued := by
  rw [hw]
  rfl

theorem exists_of_mem_queued {i : Nat} {x : Dispatch}
    (hx : x ∈ (s.dest.workers[i]?.map Worker.queued).getD []) :
    ∃ w, s.dest.workers[i]? = some w ∧ x ∈ w.held := by
  cases hw : s.dest.workers[i]? with
  | none =>
    rw [hw] at hx
    cases hx
  | some w =>
    rw [getD_queued hw] at hx
    exact ⟨w, rfl, List.mem_append_right _ hx⟩

/-- When the destination is opened, what is in the queues counts as routed. -/
theorem flow_opened (hs : Sound s) :
    Flow { s with
      dest := { s.dest with
        failed := false
        workers := s.dest.workers.map (·.start)
        started := true }
      isOpen := true
      routed := fun i => (s.dest.workers[i]?.map Worker.queued).getD []
      events := [] } := by
  have hlen : (s.dest.workers.map (·.start)).length = s.dest.workers.length :=
    List.length_map _
  refine ⟨fun j y hy => ?_, fun j => ?_, ?_, fun j hj => rfl, ?_⟩
  · obtain ⟨w, hw, hy⟩ := exists_of_mem_queued hy
    exact (hs.numbered.held j w hw y hy).mono hlen (List.append_nil _).symm
  · cases hw : s.dest.workers[j]? with
    | none =>
      simp only [hw]
      exact List.Pairwise.nil
    | some w =>
      simp only [getD_queued hw]
      exact (hs.numbered.order j w hw).sublist (List.sublist_append_right _ _)
  · intro i x ms hcall j y hy
    obtain ⟨w, hw, hy⟩ := exists_of_mem_queued hy
    exact (hs.numbered.placing i x ms hcall).2 j w hw y hy
  · refine forall_getElem?_map fun j w hw => ?_
    unfold Whole Broken
    simp only [getD_queued hw]
    exact Or.inl rfl

/-- A destination that is open is started as long as nobody closes it. -/
theorem not_open (hs : Sound s) (hc : s.caller.isClosing = false) (hn : s.dest.started = false) :
    ¬s.isOpen = true := by
  intro ho
  cases hs.stage with
  | parked h₁ h₂ h₃ =>
    rw [h₂] at ho
    cases ho
  | lost h₁ h₂ h₃ =>
    rw [h₂] at ho
    cases ho
  | atWork h₁ h₂ h₃ =>
    rw [hn, hc] at h₁
    cases h₁

/-- An open destination has a thread for each worker. -/
theorem hasThread_of_open (hs : Sound s) (ho : s.isOpen = true) {i : Nat} {w : Worker}
    (hw : s.dest.workers[i]? = some w) : w.hasThread = true := by
  cases hs.stage with
  | parked h₁ h₂ h₃ =>
    rw [h₂] at ho
    cases ho
  | lost h₁ h₂ h₃ =>
    rw [h₂] at ho
    cases ho
  | atWork h₁ h₂ h₃ => exact h₃ i w hw

/-- An open destination has no queue that is lost, so all that is not published waits. -/
theorem waiting_of_open (hs : Sound s) (ho : s.isOpen = true) : Waiting s := by
  refine hs.waiting.resolve_left ?_
  rintro ⟨i, w, hw, hl⟩
  have hthread := hasThread_of_open hs ho hw
  simp [Worker.hasThread, hl] at hthread

theorem flow_step (hs : Sound s) (h : s.isOpen = true → Flow s) (hst : Step s s')
    (ho : s'.isOpen = true) : Flow s' := by
  cases hst with
  | same => exact h ho
  | @called c hs hc =>
    refine (h ho).same rfl rfl (List.append_nil _).symm rfl rfl fun i x ms hcall => ?_
    obtain rfl : c = .placing i x ms := hcall
    cases hc
  | asked hs =>
    refine (h ho).same rfl rfl (List.append_nil _).symm rfl rfl fun i x ms hcall => ?_
    cases hcall
  | assigned hs hf hr =>
    refine (h ho).same rfl rfl (List.append_nil _).symm rfl rfl fun i x ms hcall => ?_
    cases hcall
  | enrolled hc =>
    refine (h ho).same rfl rfl rfl rfl rfl fun i x ms hcall j y hy => ?_
    cases hcall
    -- The number is the next one, and what was routed has a number already.
    have hlt := (List.getElem?_eq_some_iff.1 ((h ho).known j y hy).1).1
    rwa [← hs.tracked.next] at hlt
  | placed hc hw hq => exact flow_placed hs (h ho) hc hw
  | turnedAway hs hw hq =>
    refine (h ho).same rfl rfl (List.append_nil _).symm rfl rfl fun i x ms hcall => ?_
    cases hcall
  | @pulled i w x rest hw hc hst hlt hq =>
    have hp := (Worker.isCollecting_iff.1 hc).2
    exact (h ho).set hw rfl rfl rfl rfl id (fun _ _ => rfl)
      (flow_keep ((h ho).flow i w hw) (Worker.unpublished_pulled hp hq) id id)
  | @heardStop i w rest hw hc hst hq =>
    exact (h ho).set hw rfl rfl rfl rfl id (fun _ _ => rfl)
      (flow_keep ((h ho).flow i w hw) (Worker.unpublished_heardStop hq) id id)
  | @gaveUp i w hw hc hb hf =>
    exact (h ho).set hw rfl rfl rfl rfl id (fun _ _ => rfl)
      (Or.inr ⟨prefix_of_flow ((h ho).flow i w hw), rfl, Or.inl hf⟩)
  | @took i w hw hc hb hf =>
    have he : ∀ j, acceptedBy j ((s.setWorker i { w with phase := .publishing }).note
        (.taken i w.batch)) = s.acceptedBy j := by
      intro j
      rw [acceptedBy_append rfl]
      exact List.append_nil _
    obtain ⟨hr, hp⟩ := Worker.isCollecting_iff.1 hc
    -- No failure is known and the worker runs, so it has not given anything up.
    have hwhole : s.Whole i w := by
      refine ((h ho).flow i w hw).resolve_right ?_
      rintro ⟨-, -, hbroken | hbroken⟩
      · rw [hf] at hbroken
        cases hbroken
      · rw [hr] at hbroken
        cases hbroken
    refine (h ho).set hw rfl rfl rfl rfl id (fun j _ => he j) (Or.inl ?_)
    rw [Whole, he, Worker.unpublished_publishing hp]
    exact hwhole
  | @accepted i w hw hp =>
    have hwhole := whole_of_busy ((h ho).flow i w hw) (by rw [hp]; exact nofun)
    refine (h ho).set hw rfl rfl rfl rfl id (acceptedBy_note rfl) (Or.inl ?_)
    rw [Whole, acceptedBy_append rfl, Worker.unpublished_acknowledging]
    simp only [PublishEvent.publishedBy, if_true]
    rw [List.append_assoc, ← Worker.unpublished_of_publishing hp]
    exact hwhole
  | @refused i w e hw hp =>
    have hwhole := whole_of_busy ((h ho).flow i w hw) (by rw [hp]; exact nofun)
    refine (h ho).set hw rfl rfl rfl rfl id (acceptedBy_note rfl) (Or.inl ?_)
    rw [Whole, acceptedBy_append rfl, Worker.unpublished_failing hp]
    simp only [PublishEvent.publishedBy, List.append_nil]
    exact hwhole
  | reported hw hp =>
    exact (h ho).give hw rfl rfl rfl rfl (fun _ => rfl) rfl (fun _ => rfl) rfl (Or.inl rfl)
  | crashedIdle hw hc hb =>
    exact (h ho).give hw rfl rfl rfl rfl id rfl (fun _ => rfl) rfl (Or.inr rfl)
  | crashed hw hp =>
    exact (h ho).give hw rfl rfl rfl rfl id rfl (fun _ => rfl) rfl (Or.inr rfl)
  | @confirmed i w seq left hw hp =>
    refine (h ho).set hw rfl rfl rfl rfl id (fun _ _ => rfl)
      (flow_keep ((h ho).flow i w hw) ?_ (fun hc => ?_) id)
    · rw [Worker.unpublished_acknowledging, Worker.unpublished_of_acknowledging hp]
    · rw [hp] at hc
      cases hc
  | @finished i w hw hp =>
    refine (h ho).set hw rfl rfl rfl rfl id (fun _ _ => rfl)
      (flow_keep ((h ho).flow i w hw) ?_ (fun _ => rfl) id)
    rw [Worker.unpublished_of_acknowledging hp]
    rfl
  | @exited i w hw hc hst hb =>
    have hr := (Worker.isCollecting_iff.1 hc).1
    refine (h ho).set hw rfl rfl rfl rfl id (fun _ _ => rfl)
      (flow_keep ((h ho).flow i w hw) rfl id (fun hcr => ?_))
    rw [hr] at hcr
    cases hcr
  | opened hc hn hp => exact flow_opened hs
  | openFailed hc hn hr => exact (not_open hs hc hn ho).elim
  | toldToStop hc =>
    have hlen : s.dest.stopAll.workers.length = s.dest.workers.length := List.length_map _
    refine (h ho).mono hlen (List.append_nil _).symm rfl ?_ (fun j hj => ?_) ?_
    · intro _ _ _ hcall
      cases hcall
    · refine (h ho).stray j (List.getElem?_eq_none_iff.2 ?_)
      rw [← hlen]
      exact List.getElem?_eq_none_iff.1 hj
    · refine forall_getElem?_map fun j w hw => ?_
      -- A worker that is told to stop has the same to publish.
      refine flow_keep ((h ho).flow j w hw) (Worker.unpublished_told w) (fun hp => ?_) fun hst => ?_
      · split
        · exact hp
        · exact hp
      · rw [status_told]
        exact hst
  | closed hs hq ht => cases ho
  | closedIdle hs ht => cases ho

end Depot

end ChangeFeed
