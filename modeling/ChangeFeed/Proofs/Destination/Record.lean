import ChangeFeed.Proofs.Destination.Flow

/-!
# What happens to batches

Batches of an open destination are taken up, published or not, and failures get around, in an order
that says who may still take up a batch.

**Events** (`PublishEvent.InTurn`). A batch is published only after it was taken up. A worker that
failed with a batch takes up no other, and once it has reported that its batch was refused, no
worker does.

**The record** (`Depot.Record`). Each worker is where the events have it (`Depot.Marked`), and what
it failed with stays pending.

Main result: `record_step`.
-/

namespace ChangeFeed

/-- The worker that an event is about. -/
def PublishEvent.worker : PublishEvent → Nat
  | .taken i _ | .answered i _ _ | .reported i | .crashed i => i

/-! ## Events -/

theorem append_singleton_eq {α : Type} {as bs cs : List α} {a b : α}
    (h : as ++ [a] = bs ++ b :: cs) :
    (∃ ds, cs = ds ++ [a] ∧ as = bs ++ b :: ds) ∨ cs = [] ∧ as = bs ∧ a = b := by
  rcases List.eq_nil_or_concat cs with rfl | ⟨ds, c, rfl⟩
  · obtain ⟨has, ha⟩ := List.append_inj' h rfl
    exact Or.inr ⟨rfl, has, (List.cons.inj ha).1⟩
  · rw [List.concat_eq_append] at h ⊢
    rw [← List.cons_append, ← List.append_assoc] at h
    obtain ⟨has, ha⟩ := List.append_inj' h rfl
    obtain rfl := (List.cons.inj ha).1
    exact Or.inl ⟨ds, rfl, has⟩

namespace PublishEvent

/-- Events as they can follow each other. `n` is the largest size of a batch. -/
inductive InTurn (n : Nat) : List PublishEvent → Prop where
  | nil : InTurn n []
  | taken {es : List PublishEvent} {i : Nat} {b : List Dispatch} (h : InTurn n es) (hb : b ≠ [])
      (hn : b.length ≤ n) (hr : ∀ j, .reported j ∉ es)
      (ha : ∀ c v, .answered i c v ∈ es → v = .accepted) : InTurn n (es ++ [.taken i b])
  | answered {es : List PublishEvent} {i : Nat} {b : List Dispatch} {v : Verdict}
      (h : InTurn n es) (hb : .taken i b ∈ es) : InTurn n (es ++ [.answered i b v])
  | reported {es : List PublishEvent} {i : Nat} {b : List Dispatch} {e : Error}
      (h : InTurn n es) (hb : .answered i b (.refused e) ∈ es) : InTurn n (es ++ [.reported i])
  | crashed {es : List PublishEvent} {i : Nat} (h : InTurn n es) : InTurn n (es ++ [.crashed i])

namespace InTurn

variable {n : Nat} {es : List PublishEvent}

theorem sized (h : InTurn n es) {i : Nat} {b : List Dispatch} (hm : .taken i b ∈ es) :
    b ≠ [] ∧ b.length ≤ n := by
  induction h with
  | nil => cases hm
  | taken h hb hn hr ha ih =>
    rcases List.mem_append.1 hm with hm | hm
    · exact ih hm
    · cases List.mem_singleton.1 hm
      exact ⟨hb, hn⟩
  | _ =>
    rename_i ih
    rcases List.mem_append.1 hm with hm | hm
    · exact ih hm
    · cases List.mem_singleton.1 hm

theorem asked (h : InTurn n es) {before later : List PublishEvent} {i : Nat} {b : List Dispatch}
    {v : Verdict} (he : es = before ++ .answered i b v :: later) : .taken i b ∈ before := by
  induction h generalizing later with
  | nil => exact absurd he.symm (by simp)
  | answered h hb ih =>
    rcases append_singleton_eq he with ⟨ds, -, hes⟩ | ⟨-, rfl, hev⟩
    · exact ih hes
    · cases hev
      exact hb
  | _ =>
    rename_i ih
    rcases append_singleton_eq he with ⟨ds, -, hes⟩ | ⟨-, -, hev⟩
    · exact ih hes
    · cases hev

/-- Nothing is reported before a batch was refused. -/
theorem refused_of_reported (h : InTurn n es) {before later : List PublishEvent} {i : Nat}
    (he : es = before ++ .reported i :: later) :
    ∃ b e, .answered i b (.refused e) ∈ before := by
  induction h generalizing later with
  | nil => exact absurd he.symm (by simp)
  | reported h hb ih =>
    rcases append_singleton_eq he with ⟨ds, -, hes⟩ | ⟨-, rfl, hev⟩
    · exact ih hes
    · cases hev
      exact ⟨_, _, hb⟩
  | _ =>
    rename_i ih
    rcases append_singleton_eq he with ⟨ds, -, hes⟩ | ⟨-, -, hev⟩
    · exact ih hes
    · cases hev

/-- After a report no batch is taken up. -/
theorem halted (h : InTurn n es) {before later : List PublishEvent} {i : Nat}
    (he : es = before ++ .reported i :: later) (j : Nat) (c : List Dispatch) :
    .taken j c ∉ later := by
  intro hm
  induction h generalizing later with
  | nil => exact absurd he.symm (by simp)
  | taken h hb hn hr ha ih =>
    rcases append_singleton_eq he with ⟨ds, rfl, rfl⟩ | ⟨rfl, -, -⟩
    · exact hr i (List.mem_append_right _ List.mem_cons_self)
    · cases hm
  | _ =>
    rename_i ih
    rcases append_singleton_eq he with ⟨ds, rfl, hes⟩ | ⟨rfl, -, -⟩
    · rcases List.mem_append.1 hm with hm | hm
      · exact ih hes hm
      · cases List.mem_singleton.1 hm
    · cases hm

/-- After a worker failed with a batch it takes up no other. -/
theorem stopped (h : InTurn n es) {before later : List PublishEvent} {i : Nat}
    {b : List Dispatch} {v : Verdict} (he : es = before ++ .answered i b v :: later)
    (hv : v ≠ .accepted) (c : List Dispatch) : .taken i c ∉ later := by
  intro hm
  induction h generalizing later with
  | nil => exact absurd he.symm (by simp)
  | @taken es j d h hb hn hr ha ih =>
    rcases append_singleton_eq he with ⟨ds, rfl, hes⟩ | ⟨rfl, -, -⟩
    · rcases List.mem_append.1 hm with hm | hm
      · exact ih hes hm
      · cases List.mem_singleton.1 hm
        refine hv (ha b v ?_)
        rw [hes]
        exact List.mem_append_right _ List.mem_cons_self
    · cases hm
  | _ =>
    rename_i ih
    rcases append_singleton_eq he with ⟨ds, rfl, hes⟩ | ⟨rfl, -, -⟩
    · rcases List.mem_append.1 hm with hm | hm
      · exact ih hes hm
      · cases List.mem_singleton.1 hm
    · cases hm

end InTurn

end PublishEvent

namespace Depot

variable {ι : Type} {s s' : Depot ι}

/-! ## The record -/

/-- A worker is where the events have it. -/
structure Marked (es : List PublishEvent) (i : Nat) (w : Worker) : Prop where
  crashed : w.status = .crashed ↔ .crashed i ∈ es ∨ ∃ b, .answered i b .crashed ∈ es
  publishing : w.phase = .publishing → .taken i w.batch ∈ es
  failing : ∀ e, w.phase = .failing e → .answered i w.batch (.refused e) ∈ es
  refused : ∀ b e, .answered i b (.refused e) ∈ es →
    w.phase = .failing e ∨ .reported i ∈ es ∧ w.phase = .collecting

/-- The worker goes on, and nothing happens to its batch. -/
structure GoesOn (w v : Worker) : Prop where
  crashed : v.status = .crashed ↔ w.status = .crashed
  publishing : v.phase = .publishing → w.phase = .publishing ∧ v.batch = w.batch
  failing : ∀ e, v.phase = .failing e ↔ w.phase = .failing e
  batch : ∀ e, w.phase = .failing e → v.batch = w.batch
  collecting : w.phase = .collecting → v.phase = .collecting

theorem GoesOn.refl (w : Worker) : GoesOn w w :=
  ⟨.rfl, fun h => ⟨h, rfl⟩, fun _ => .rfl, fun _ _ => rfl, id⟩

theorem GoesOn.push (w : Worker) (m : WorkerMessage) : GoesOn w (w.push m) :=
  ⟨.rfl, fun h => ⟨h, rfl⟩, fun _ => .rfl, fun _ _ => rfl, id⟩

/-- A worker that gathers a batch afterwards goes on, unless its batch was refused. -/
theorem GoesOn.of_collecting {w v : Worker} (hp : v.phase = .collecting)
    (hs : v.status = .crashed ↔ w.status = .crashed) (hf : ∀ e, w.phase ≠ .failing e) :
    GoesOn w v where
  crashed := hs
  publishing := fun h => by
    rw [hp] at h
    cases h
  failing := fun e => by
    rw [hp]
    exact iff_of_false nofun (hf e)
  batch := fun e h => absurd h (hf e)
  collecting := fun _ => hp

theorem Marked.goesOn {es : List PublishEvent} {i : Nat} {w v : Worker} (h : Marked es i w)
    (hv : GoesOn w v) : Marked es i v where
  crashed := hv.crashed.trans h.crashed
  publishing := fun hp => by
    rw [(hv.publishing hp).2]
    exact h.publishing (hv.publishing hp).1
  failing := fun e hp => by
    have hw := (hv.failing e).1 hp
    rw [hv.batch e hw]
    exact h.failing e hw
  refused := fun b e hm =>
    (h.refused b e hm).imp (hv.failing e).2 fun ⟨hr, hc⟩ => ⟨hr, hv.collecting hc⟩

/-- An event about another worker changes nothing for this one. -/
theorem Marked.other {es : List PublishEvent} {i : Nat} {w : Worker} (h : Marked es i w)
    {e : PublishEvent} (he : e.worker ≠ i) : Marked (es ++ [e]) i w := by
  have hmem : ∀ {f : PublishEvent}, f.worker = i → (f ∈ es ++ [e] ↔ f ∈ es) := by
    intro f hf
    rw [List.mem_append, List.mem_singleton]
    refine or_iff_left ?_
    rintro rfl
    exact he hf
  refine ⟨?_, fun hp => (hmem rfl).2 (h.publishing hp), fun f hp => (hmem rfl).2 (h.failing f hp),
    fun b f hm => ?_⟩
  · simp only [hmem (f := .crashed i) rfl, hmem (f := .answered i _ _) rfl]
    exact h.crashed
  · rw [hmem (f := .reported i) rfl]
    exact h.refused b f ((hmem rfl).1 hm)

/-- What happened to batches, and what follows from it. -/
structure Record (s : Depot ι) : Prop where
  turns : PublishEvent.InTurn s.dest.batchSize s.events
  known : ∀ e ∈ s.events, e.worker < s.dest.workers.length
  failed : s.dest.failed = true ↔ ∃ i, .reported i ∈ s.events
  marked : ∀ (i : Nat) (w : Worker), s.dest.workers[i]? = some w → Marked s.events i w
  lost : ∀ i b v, .answered i b v ∈ s.events → v ≠ .accepted →
    ∀ x ∈ b, x ∈ s.routed i ∧ s.Waits x.seq

theorem Record.keep (h : Record s) (he : s'.events = s.events)
    (hf : s'.dest.failed = s.dest.failed) (hb : s'.dest.batchSize = s.dest.batchSize)
    (hlen : s'.dest.workers.length = s.dest.workers.length)
    (hr : ∀ i, s.routed i ⊆ s'.routed i)
    (hd : ∀ (i : Nat) (v : Worker), s'.dest.workers[i]? = some v →
      ∃ w, s.dest.workers[i]? = some w ∧ GoesOn w v)
    (hw : ∀ i b v, .answered i b v ∈ s.events → v ≠ .accepted → ∀ x ∈ b, s.Waits x.seq →
      s'.Waits x.seq) : Record s' where
  turns := by
    rw [he, hb]
    exact h.turns
  known := by
    rw [he, hlen]
    exact h.known
  failed := by
    rw [hf, he]
    exact h.failed
  marked := by
    intro i v hv
    obtain ⟨w, hw, hgo⟩ := hd i v hv
    rw [he]
    exact (h.marked i w hw).goesOn hgo
  lost := by
    intro i b v hm hv x hx
    rw [he] at hm
    obtain ⟨hroute, hwait⟩ := h.lost i b v hm hv x hx
    exact ⟨hr i hroute, hw i b v hm hv x hx hwait⟩

theorem Record.set (h : Record s) {i : Nat} {w v : Worker} (hw : s.dest.workers[i]? = some w)
    (hd : s'.dest.workers = s.dest.workers.set i v) (he : s'.events = s.events)
    (hf : s'.dest.failed = s.dest.failed) (hb : s'.dest.batchSize = s.dest.batchSize)
    (hr : s'.routed = s.routed) (ht : s'.dest.tracker = s.dest.tracker) (hv : GoesOn w v) :
    Record s' := by
  refine h.keep he hf hb (by rw [hd, List.length_set]) (fun j => hr ▸ List.Subset.refl _) ?_
    fun i b v hm hv x hx hwx => ?_
  · rw [hd]
    exact forall_getElem?_set (fun j u hu => ⟨u, hu, .refl u⟩) ⟨w, hw, hv⟩
  · unfold Waits
    rw [ht]
    exact hwx

/-- One worker changes together with a new event about it. -/
theorem Record.note (h : Record s) {i : Nat} {w v : Worker} {e : PublishEvent}
    (hw : s.dest.workers[i]? = some w) (hd : s'.dest.workers = s.dest.workers.set i v)
    (he : s'.events = s.events ++ [e]) (hi : e.worker = i)
    (hb : s'.dest.batchSize = s.dest.batchSize) (hr : s'.routed = s.routed)
    (ht : s'.dest.tracker = s.dest.tracker)
    (hfail : s'.dest.failed = true ↔ s.dest.failed = true ∨ ∃ j, e = .reported j)
    (hturns : PublishEvent.InTurn s.dest.batchSize (s.events ++ [e]))
    (hv : Marked (s.events ++ [e]) i v)
    (hlost : ∀ j b u, e = .answered j b u → u ≠ .accepted →
      ∀ x ∈ b, x ∈ s.routed j ∧ s.Waits x.seq) : Record s' where
  turns := by rwa [he, hb]
  known := by
    rw [he, hd, List.length_set]
    refine List.forall_mem_append.2 ⟨h.known, fun f hf => ?_⟩
    rw [List.mem_singleton.1 hf, hi]
    exact (List.getElem?_eq_some_iff.1 hw).1
  failed := by
    rw [hfail, h.failed, he]
    simp only [List.mem_append, List.mem_singleton, exists_or, eq_comm]
  marked := by
    rw [he, hd]
    intro j u hu
    by_cases hij : i = j
    · subst hij
      rw [List.getElem?_set_self (List.getElem?_eq_some_iff.1 hw).1] at hu
      cases hu
      exact hv
    · rw [List.getElem?_set_ne hij] at hu
      exact (h.marked j u hu).other (hi ▸ hij)
  lost := by
    intro j b u hm hu
    unfold Waits
    rw [hr, ht]
    rw [he] at hm
    rcases List.mem_append.1 hm with hm | hm
    · exact h.lost j b u hm hu
    · exact hlost j b u (List.mem_singleton.1 hm).symm hu

/-- A worker that has failed with a batch has nothing to acknowledge. -/
theorem Record.not_acknowledging (hs : Sound s) (h : Record s) {i : Nat} {b : List Dispatch}
    {v : Verdict} (hm : .answered i b v ∈ s.events) (hv : v ≠ .accepted) {w : Worker}
    (hw : s.dest.workers[i]? = some w) (left : List Nat) : w.phase ≠ .acknowledging left := by
  intro hp
  cases v with
  | accepted => exact hv rfl
  | refused e =>
    rcases (h.marked i w hw).refused b e hm with hf | ⟨-, hc⟩
    · rw [hf] at hp
      cases hp
    · rw [hc] at hp
      cases hp
  | crashed =>
    have hcr := (h.marked i w hw).crashed.2 (Or.inr ⟨b, hm⟩)
    have hrun := ((hs.sane i w hw).busy (by rw [hp]; exact nofun)).1
    rw [hcr] at hrun
    cases hrun

/-- What a worker failed with is not acknowledged: that is only done by workers whose batch was
published. -/
theorem Record.ne_acking (hs : Sound s) (hflow : Flow s) (h : Record s) {i : Nat} {w : Worker}
    {seq : Nat} {left : List Nat} (hw : s.dest.workers[i]? = some w)
    (hp : w.phase = .acknowledging (seq :: left)) {j : Nat} {b : List Dispatch} {v : Verdict}
    (hm : .answered j b v ∈ s.events) (hv : v ≠ .accepted) {x : Dispatch} (hx : x ∈ b) :
    x.seq ≠ seq := by
  obtain ⟨y, hy, rfl⟩ := (hs.honest.acking i w hw _ hp).1 seq List.mem_cons_self
  intro hxy
  have hky := hs.numbered.held i w hw y (List.mem_append_left _ hy)
  -- One number is known to one worker, so the worker that acknowledges is the one that failed.
  obtain rfl := (hflow.known j x (h.lost j b v hm hv x hx).1).eq hky hxy
  exact h.not_acknowledging hs hm hv hw _ hp

/-- The batch of a worker at the publisher was routed to it and is waited for. -/
theorem batch_waits (hs : Sound s) (hflow : Flow s) (ho : s.isOpen = true) {i : Nat} {w : Worker}
    (hw : s.dest.workers[i]? = some w) (hp : w.phase = .publishing) :
    ∀ x ∈ w.batch, x ∈ s.routed i ∧ s.Waits x.seq := by
  intro x hx
  have hwhole := whole_of_busy (hflow.flow i w hw) (by rw [hp]; exact nofun)
  have hmem : x ∈ w.unpublished := by
    rw [Worker.unpublished_of_publishing hp]
    exact List.mem_append_left _ hx
  refine ⟨?_, (waiting_of_open hs ho).unpublished i w hw x hmem⟩
  rw [← hwhole]
  exact List.mem_append_right _ hmem

theorem record_opened {workers : List Worker} (hd : s.dest.workers = workers.map (·.start))
    (hf : s.dest.failed = false) (he : s.events = []) : Record s where
  turns := he ▸ .nil
  known := by simp [he]
  failed := by simp [hf, he]
  marked := by
    rw [hd, he]
    refine forall_getElem?_map fun i w _ => ?_
    constructor <;> simp [Worker.start]
  lost := by simp [he]

/-- A worker takes its batch up. Nobody has failed so far. -/
theorem record_took (hs : Sound s) (h : Record s) {i : Nat} {w : Worker}
    (hw : s.dest.workers[i]? = some w) (hc : w.isCollecting = true) (hb : w.batch ≠ [])
    (hf : s.dest.failed = false) :
    Record ((s.setWorker i { w with phase := .publishing }).note (.taken i w.batch)) := by
  obtain ⟨hr, hp⟩ := Worker.isCollecting_iff.1 hc
  have hm := h.marked i w hw
  have hno : ∀ j, .reported j ∉ s.events := fun j hj => by
    rw [h.failed.2 ⟨j, hj⟩] at hf
    cases hf
  -- A refusal that is not reported leaves its worker failing, and this one collects.
  have hrefused : ∀ b e, .answered i b (.refused e) ∉ s.events := by
    intro b e hbe
    rcases hm.refused b e hbe with hfail | ⟨hrep, -⟩
    · rw [hp] at hfail
      cases hfail
    · exact hno i hrep
  have hcrashed : ¬(.crashed i ∈ s.events ∨ ∃ b, .answered i b .crashed ∈ s.events) := by
    rw [← hm.crashed, hr]
    exact nofun
  -- So the earlier batches of the worker were all published.
  have haccepted : ∀ c v, .answered i c v ∈ s.events → v = .accepted := by
    intro c v hcv
    cases v with
    | accepted => rfl
    | refused e => exact absurd hcv (hrefused c e)
    | crashed => exact absurd (Or.inr ⟨c, hcv⟩) hcrashed
  refine h.note hw rfl rfl rfl rfl rfl rfl (by simp [setWorker, Depot.note])
    (.taken h.turns hb (hs.sane i w hw).size hno haccepted) ⟨?_, fun _ => ?_, nofun, ?_⟩ nofun
  · show w.status = .crashed ↔ _
    simpa using hm.crashed
  · exact List.mem_append_right _ List.mem_cons_self
  · intro b e hbe
    exact absurd (by simpa using hbe) (hrefused b e)

/-- What an answer makes of a worker at the publisher. -/
structure Answered (u : Verdict) (w v : Worker) : Prop where
  crashed : v.status = .crashed ↔ u = .crashed
  publishing : v.phase ≠ .publishing
  failing : ∀ e, v.phase = .failing e ↔ u = .refused e
  batch : ∀ e, u = .refused e → v.batch = w.batch

theorem answered_accepted {w : Worker} (hr : w.status = .running) (left : List Nat) :
    Answered .accepted w { w with phase := .acknowledging left } := by
  constructor <;> simp [hr]

theorem answered_refused {w : Worker} (hr : w.status = .running) (e : Error) :
    Answered (.refused e) w { w with phase := .failing e } := by
  constructor <;> simp [hr, eq_comm]

theorem answered_crashed (w : Worker) : Answered .crashed w w.crash := by
  constructor <;> simp [Worker.crash]

/-- The publisher answers to a worker. -/
theorem record_answered (hs : Sound s) (hflow : Flow s) (h : Record s) (ho : s.isOpen = true)
    {i : Nat} {w v : Worker} {u : Verdict} (hw : s.dest.workers[i]? = some w)
    (hp : w.phase = .publishing) (hd : s'.dest.workers = s.dest.workers.set i v)
    (he : s'.events = s.events ++ [.answered i w.batch u])
    (hf : s'.dest.failed = s.dest.failed) (hb : s'.dest.batchSize = s.dest.batchSize)
    (hr : s'.routed = s.routed) (ht : s'.dest.tracker = s.dest.tracker) (hv : Answered u w v) :
    Record s' := by
  have hm := h.marked i w hw
  -- A worker whose batch was refused is at the publisher no more.
  have hrefused : ∀ b e, .answered i b (.refused e) ∉ s.events := by
    intro b e hbe
    rcases hm.refused b e hbe with hfail | ⟨-, hc⟩
    · rw [hp] at hfail
      cases hfail
    · rw [hp] at hc
      cases hc
  have hcrashed : ¬(.crashed i ∈ s.events ∨ ∃ b, .answered i b .crashed ∈ s.events) := by
    rw [← hm.crashed, ((hs.sane i w hw).busy (by rw [hp]; exact nofun)).1]
    exact nofun
  refine h.note hw hd he rfl hb hr ht (by simp [hf])
    (.answered h.turns (hm.publishing hp)) ⟨?_, fun hpub => absurd hpub hv.publishing,
    fun e hfail => ?_, fun b e hbe => ?_⟩ ?_
  · rw [not_or, not_exists] at hcrashed
    simp [hv.crashed, hcrashed.1, hcrashed.2, eq_comm]
  · have hu := (hv.failing e).1 hfail
    rw [hv.batch e hu, hu]
    exact List.mem_append_right _ List.mem_cons_self
  · rcases List.mem_append.1 hbe with hbe | hbe
    · exact absurd hbe (hrefused b e)
    · cases List.mem_singleton.1 hbe
      exact Or.inl ((hv.failing e).2 rfl)
  · intro j b u' heq hu'
    cases heq
    exact batch_waits hs hflow ho hw hp

/-- A worker whose batch was refused lets the others know. -/
theorem record_reported (h : Record s) {i : Nat} {w : Worker} {e : Error}
    (hw : s.dest.workers[i]? = some w) (hp : w.phase = .failing e) :
    Record { s.note (.reported i) with
      dest := { s.dest with workers := s.dest.workers.set i w.drop, failed := true } } := by
  have hm := h.marked i w hw
  refine h.note hw rfl rfl rfl rfl rfl rfl (by simp) (.reported h.turns (hm.failing e hp))
    ⟨?_, nofun, nofun, fun b f _ => Or.inr ⟨?_, rfl⟩⟩ nofun
  · show w.status = .crashed ↔ _
    simpa using hm.crashed
  · exact List.mem_append_right _ List.mem_cons_self

/-- The thread of a worker crashes before it has gathered anything. -/
theorem record_crashedIdle (h : Record s) {i : Nat} {w : Worker}
    (hw : s.dest.workers[i]? = some w) (hc : w.isCollecting = true) :
    Record ((s.setWorker i w.crash).note (.crashed i)) := by
  refine h.note hw rfl rfl rfl rfl rfl rfl (by simp [setWorker, Depot.note]) (.crashed h.turns)
    ⟨?_, nofun, nofun, fun b e hbe => Or.inr ⟨?_, rfl⟩⟩ nofun
  · exact iff_of_true rfl (Or.inl (List.mem_append_right _ List.mem_cons_self))
  · rcases (h.marked i w hw).refused b e (by simpa using hbe) with hf | ⟨hr, -⟩
    · rw [(Worker.isCollecting_iff.1 hc).2] at hf
      cases hf
    · exact List.mem_append_left _ hr

theorem record_step (hs : Sound s) (hflow : s.isOpen = true → Flow s)
    (h : s.isOpen = true → Record s) (hst : Step s s') (ho : s'.isOpen = true) : Record s' := by
  cases hst with
  | same => exact h ho
  | called hc hc' =>
    exact (h ho).keep rfl rfl rfl rfl (fun _ => .refl _) (fun j w hw => ⟨w, hw, .refl w⟩)
      fun _ _ _ _ _ _ _ hw => hw
  | asked hc =>
    exact (h ho).keep rfl rfl rfl rfl (fun _ => .refl _) (fun j w hw => ⟨w, hw, .refl w⟩)
      fun _ _ _ _ _ _ _ hw => hw
  | assigned hc hf hr =>
    exact (h ho).keep rfl rfl rfl rfl (fun _ => .refl _) (fun j w hw => ⟨w, hw, .refl w⟩)
      fun _ _ _ _ _ _ _ hw => hw
  | enrolled hc =>
    refine (h ho).keep rfl rfl rfl rfl (fun _ => .refl _) (fun j w hw => ⟨w, hw, .refl w⟩)
      fun _ _ _ _ _ x _ hw => ?_
    obtain ⟨p, hp, hw⟩ := hw
    exact ⟨p, List.mem_append_left _ hp, hw⟩
  | @placed i x ms w hc hw hq =>
    refine (h ho).keep rfl rfl rfl List.length_set (fun j => ?_)
      (forall_getElem?_set (fun j u hu => ⟨u, hu, .refl u⟩) ⟨w, hw, .push w _⟩)
      fun _ _ _ _ _ _ _ hw => hw
    simp only
    split
    · exact List.subset_append_left _ _
    · exact .refl _
  | @turnedAway i x ms w e hc hw hq =>
    refine (h ho).keep rfl rfl rfl rfl (fun _ => .refl _) (fun j w hw => ⟨w, hw, .refl w⟩)
      fun j b v hm hv y hy hwy => ?_
    -- What failed was routed before, so its number is smaller.
    have hlt := (hflow ho).placing i x ms hc j y (((h ho).lost j b v hm hv) y hy).1
    exact waits_cancel (Nat.ne_of_lt hlt) hwy
  | pulled hw hc hst hlt hq =>
    have hp := (Worker.isCollecting_iff.1 hc).2
    exact (h ho).set hw rfl rfl rfl rfl rfl rfl (.of_collecting hp .rfl (by simp [hp]))
  | heardStop hw hc hst hq =>
    have hp := (Worker.isCollecting_iff.1 hc).2
    exact (h ho).set hw rfl rfl rfl rfl rfl rfl (.of_collecting hp .rfl (by simp [hp]))
  | gaveUp hw hc hb hf =>
    have hp := (Worker.isCollecting_iff.1 hc).2
    exact (h ho).set hw rfl rfl rfl rfl rfl rfl (.of_collecting rfl .rfl (by simp [hp]))
  | took hw hc hb hf => exact record_took hs (h ho) hw hc hb hf
  | @accepted i w hw hp =>
    have hr := ((hs.sane i w hw).busy (by simp [hp])).1
    exact record_answered hs (hflow ho) (h ho) ho hw hp rfl rfl rfl rfl rfl rfl
      (answered_accepted hr _)
  | @refused i w e hw hp =>
    have hr := ((hs.sane i w hw).busy (by simp [hp])).1
    exact record_answered hs (hflow ho) (h ho) ho hw hp rfl rfl rfl rfl rfl rfl
      (answered_refused hr e)
  | reported hw hp => exact record_reported (h ho) hw hp
  | crashedIdle hw hc hb => exact record_crashedIdle (h ho) hw hc
  | crashed hw hp =>
    exact record_answered hs (hflow ho) (h ho) ho hw hp rfl rfl rfl rfl rfl rfl
      (answered_crashed _)
  | @confirmed i w seq left hw hp =>
    -- What is confirmed was published, so it is none of what failed.
    refine (h ho).keep rfl rfl rfl List.length_set (fun _ => .refl _)
      (forall_getElem?_set (fun j u hu => ⟨u, hu, .refl u⟩)
        ⟨w, hw, .rfl, by simp, by simp [hp], by simp [hp], by simp [hp]⟩)
      fun j b v hm hv x hx hwx => ?_
    exact waits_ack ((h ho).ne_acking hs (hflow ho) hw hp hm hv hx) hwx
  | finished hw hp =>
    exact (h ho).set hw rfl rfl rfl rfl rfl rfl (.of_collecting rfl .rfl (by simp [hp]))
  | exited hw hc hst hb =>
    obtain ⟨hr, hp⟩ := Worker.isCollecting_iff.1 hc
    exact (h ho).set hw rfl rfl rfl rfl rfl rfl (.of_collecting hp (by simp [hr]) (by simp [hp]))
  | opened hc hn hp => exact record_opened rfl rfl rfl
  | openFailed hc hn hr => exact (not_open hs hc hn ho).elim
  | toldToStop hc =>
    refine (h ho).keep rfl rfl rfl (List.length_map _) (fun _ => .refl _)
      (forall_getElem?_map fun j w hw => ⟨w, hw, ?_⟩) fun _ _ _ _ _ _ _ hw => hw
    split
    · exact .push w _
    · exact .refl w
  | closed hs hq ht => cases ho
  | closedIdle hs ht => cases ho

end Depot

end ChangeFeed
