import ChangeFeed.Proofs.Destination.Record

/-!
# Delivery in order

What a destination publishes between being opened and being closed, in whatever order its caller and
its workers take their steps.

**In order** (`Depot.InOrder`). What a worker published is the beginning of what was routed to it,
and the whole of it when the threads have ended, unless a batch was refused or the worker crashed.
What fails is not published again, and it is not passed over.

Main result: `delivers_in_order`.
-/

namespace ChangeFeed

namespace Depot

variable {ι : Type} {s s' : Depot ι}

/-! ## Keys -/

/-- Is this the key of the dispatched mutation? -/
def hasKey (key : String) (x : Dispatch) : Bool :=
  match x.mutation.key with
  | .ok k => k == key
  | .error _ => false

/-- What was published since the destination was opened, as it came. -/
def accepted (s : Depot ι) : List Dispatch := s.events.flatMap (·.published)

/-- The worker that all mutations of a key go to. -/
def workerOfKey (d : Destination ι) (key : String) : Nat :=
  if d.poolSize = 1 then 0 else d.workerOf key

theorem Knows.worker_of_key {i : Nat} {x : Dispatch} (h : s.Knows i x) {key : String}
    (hk : hasKey key x = true) : i = workerOfKey s.dest key := by
  have hr := h.2
  unfold hasKey at hk
  unfold Destination.route at hr
  unfold workerOfKey
  split at hr
  · rename_i h1
    rw [if_pos h1]
    exact (Except.ok.inj hr).symm
  · rename_i h1
    rw [if_neg h1]
    cases hx : x.mutation.key with
    | error e => simp [hx] at hk
    | ok k =>
      simp only [hx, beq_iff_eq] at hk
      rw [hx] at hr
      exact (Except.ok.inj hr).symm.trans (congrArg s.dest.workerOf hk)

/-- What a worker published belongs to the worker. -/
theorem Flow.knows (h : Flow s) {i : Nat} {x : Dispatch} (hx : x ∈ s.acceptedBy i) :
    s.Knows i x := by
  cases hw : s.dest.workers[i]? with
  | none =>
    rw [h.stray i hw] at hx
    cases hx
  | some w => exact h.known i x ((prefix_of_flow (h.flow i w hw)).subset hx)

theorem mem_acceptedBy {i : Nat} {b : List Dispatch} (h : .answered i b .accepted ∈ s.events)
    {x : Dispatch} (hx : x ∈ b) : x ∈ s.acceptedBy i :=
  List.mem_flatMap.2 ⟨_, h, by simpa [PublishEvent.publishedBy] using hx⟩

/-- What was published of a key was published by the worker of the key. -/
theorem filter_accepted (h : Flow s) (key : String) :
    s.accepted.filter (hasKey key) =
      (s.acceptedBy (workerOfKey s.dest key)).filter (hasKey key) := by
  have hevent : ∀ e ∈ s.events, e.published.filter (hasKey key) =
      (e.publishedBy (workerOfKey s.dest key)).filter (hasKey key) := by
    intro e he
    cases e with
    | answered j b v =>
      cases v with
      | accepted =>
        simp only [PublishEvent.published, PublishEvent.publishedBy]
        split
        · rfl
        · rename_i hj
          refine List.filter_eq_nil_iff.2 fun x hx hk => hj ?_
          exact (h.knows (mem_acceptedBy he hx)).worker_of_key hk
      | _ => rfl
    | _ => rfl
  unfold accepted acceptedBy
  rw [List.filter_flatMap, List.filter_flatMap, List.flatMap_def, List.flatMap_def,
    List.map_congr_left hevent]

/-! ## The main result -/

/-- What a destination publishes in order, from being opened until it is closed. -/
structure InOrder (n : Nat) (s : Depot ι) : Prop where
  /-- No batch is empty or too large. -/
  sized : ∀ i b, .taken i b ∈ s.events → b ≠ [] ∧ b.length ≤ n
  /-- Only batches that were taken up are published. -/
  asked : ∀ before i b v later, s.events = before ++ .answered i b v :: later →
    .taken i b ∈ before
  /-- What was routed to a worker is in the order of sending, and each belongs to the worker. -/
  sorted : ∀ i, (s.routed i).Pairwise (fun x y => x.seq < y.seq) ∧ ∀ x ∈ s.routed i, s.Knows i x
  /-- What a worker published is the beginning of what was routed to it. -/
  published : ∀ i, s.acceptedBy i <+: s.routed i
  /-- What was published of a key is the beginning of what was routed of it. -/
  keyed : ∀ key, s.accepted.filter (hasKey key) <+:
    (s.routed (workerOfKey s.dest key)).filter (hasKey key)
  /-- When the threads have ended and no batch was refused, a worker that did not crash has
  published all that was routed to it. -/
  whole : s.caller = .closing → s.dest.isQuiet = true →
    (∀ i b e, .answered i b (.refused e) ∉ s.events) →
    ∀ (i : Nat) (w : Worker), s.dest.workers[i]? = some w → w.status ≠ .crashed →
      s.acceptedBy i = s.routed i
  /-- A worker crashes with its publisher, or with nothing in its batch. -/
  crashed : ∀ (i : Nat) (w : Worker), s.dest.workers[i]? = some w →
    (w.status = .crashed ↔ .crashed i ∈ s.events ∨ ∃ b, .answered i b .crashed ∈ s.events)
  /-- A worker takes up no batch after one that the publisher refused or crashed on. -/
  stopped : ∀ before i b v later, s.events = before ++ .answered i b v :: later →
    v ≠ .accepted → ∀ c, .taken i c ∉ later
  /-- A worker whose batch was refused has let the others know, or does so next. -/
  reported : ∀ i b e, .answered i b (.refused e) ∈ s.events →
    .reported i ∈ s.events ∨ s.dest.refusal i = some e
  /-- Once it has, no worker takes up a batch. -/
  halted : ∀ before i later, s.events = before ++ .reported i :: later →
    (∃ b e, .answered i b (.refused e) ∈ before) ∧ ∀ j c, .taken j c ∉ later
  /-- The last safe mutation was sent before those of a batch that the publisher refused or crashed
  on, also once the destination is closed. -/
  unreached : ∀ i b v, .answered i b v ∈ s.events → v ≠ .accepted → ∀ m,
    s.dest.lastPublished = some m ∨ s.dest.closePool.2.lastPublished = some m →
    ∃ k, s.sent[k]? = some m ∧ ∀ x ∈ b, k < x.seq

/-- A failure is known only after a batch was refused. -/
theorem Record.refused_of_failed (h : Record s) (hf : s.dest.failed = true) :
    ∃ i b e, .answered i b (.refused e) ∈ s.events := by
  obtain ⟨i, hi⟩ := h.failed.1 hf
  obtain ⟨before, later, he⟩ := List.append_of_mem hi
  obtain ⟨b, e, hb⟩ := h.turns.refused_of_reported he
  refine ⟨i, b, e, ?_⟩
  rw [he]
  exact List.mem_append_left _ hb

/-- Without a refused batch, a worker that came to its end has published all that it got. -/
theorem acceptedBy_eq_routed (hs : Sound s) (hflow : Flow s) (hrec : Record s)
    (ho : s.isOpen = true) (hq : s.dest.isQuiet = true)
    (hno : ∀ i b e, .answered i b (.refused e) ∉ s.events) {i : Nat} {w : Worker}
    (hw : s.dest.workers[i]? = some w) (hc : w.status ≠ .crashed) :
    s.acceptedBy i = s.routed i := by
  have hr : w.status ≠ .running := by
    simp only [Destination.isQuiet, Destination.isBusy, Bool.not_eq_true', List.any_eq_false,
      beq_iff_eq] at hq
    exact hq w (List.mem_of_getElem? hw)
  have hthread := hasThread_of_open hs ho hw
  have he : w.status = .exited := by
    cases hst : w.status <;> simp_all [Worker.hasThread]
  have hsane := hs.sane i w hw
  have hempty : w.unpublished = [] := by
    rw [Worker.unpublished, Worker.unsent_of_collecting (hsane.collecting hr), hsane.idle hr,
      Worker.queued_of_nil (hsane.ended he).2]
    rfl
  rcases hflow.flow i w hw with hf | ⟨-, -, hf | hf⟩
  · rwa [Whole, hempty, List.append_nil] at hf
  · obtain ⟨j, b, e, hm⟩ := hrec.refused_of_failed hf
    exact absurd hm (hno j b e)
  · exact absurd hf hc

theorem lastPublished_closePool (d : Destination ι) :
    d.closePool.2.lastPublished = d.lastPublished := by
  unfold Destination.closePool Destination.lastPublished
  split <;> rfl

/-- The last safe mutation was sent before all that still waits. -/
theorem last_before_waiting (hs : Sound s) {m : Mutation} (hm : s.dest.lastPublished = some m)
    {b : List Dispatch} (hb : ∀ x ∈ b, s.Waits x.seq) :
    ∃ k, s.sent[k]? = some m ∧ ∀ x ∈ b, k < x.seq := by
  obtain ⟨k, hk, hlt⟩ := hs.tracked.last m hm
  refine ⟨k, hk, fun x hx => ?_⟩
  obtain ⟨p, hp, hseq, -⟩ := hb x hx
  exact hseq ▸ hlt p hp

theorem inOrder (hs : Sound s) (hflow : Flow s) (hrec : Record s) (ho : s.isOpen = true) :
    InOrder s.dest.batchSize s where
  sized := fun _ _ hm => hrec.turns.sized hm
  asked := fun _ _ _ _ _ he => hrec.turns.asked he
  sorted := fun i => ⟨hflow.order i, hflow.known i⟩
  published := by
    intro i
    cases hw : s.dest.workers[i]? with
    | none =>
      rw [hflow.stray i hw]
      exact List.nil_prefix
    | some w => exact prefix_of_flow (hflow.flow i w hw)
  keyed := by
    intro key
    rw [filter_accepted hflow]
    cases hw : s.dest.workers[workerOfKey s.dest key]? with
    | none =>
      rw [hflow.stray _ hw]
      exact List.nil_prefix
    | some w => exact (prefix_of_flow (hflow.flow _ w hw)).filter _
  whole := fun _ hq hno _ _ hw hc => acceptedBy_eq_routed hs hflow hrec ho hq hno hw hc
  crashed := fun i w hw => (hrec.marked i w hw).crashed
  stopped := fun _ _ _ _ _ he hv => hrec.turns.stopped he hv
  reported := by
    intro i b e hm
    have hw := List.getElem?_eq_getElem (hrec.known _ hm)
    rcases (hrec.marked i _ hw).refused b e hm with hp | ⟨hr, -⟩
    · exact Or.inr (refusal_eq_some.2 ⟨_, hw, hp⟩)
    · exact Or.inl hr
  halted := fun _ _ _ he => ⟨hrec.turns.refused_of_reported he, hrec.turns.halted he⟩
  unreached := by
    intro i b v hm hv m hlast
    rw [lastPublished_closePool, or_self] at hlast
    exact last_before_waiting hs hlast fun x hx => (hrec.lost i b v hm hv x hx).2

theorem batchSize_step (h : Step s s') : s'.dest.batchSize = s.dest.batchSize := by
  cases h <;> rfl

/-- **A destination delivers in order.** However its caller and its workers take turns. -/
theorem delivers_in_order {p : DestinationPlan} {d : Destination ι} (h : p.build = .ok d)
    (ms : List Move) (ho : ((start d).run ms).isOpen = true) :
    InOrder p.batchSize ((start d).run ms) := by
  have hsize : (start d).dest.batchSize = p.batchSize := by
    unfold DestinationPlan.build at h
    split at h
    · cases h
    · cases h
      rfl
  have hinv : Sound ((start d).run ms) ∧ ((start d).run ms).dest.batchSize = p.batchSize ∧
      (((start d).run ms).isOpen = true → Flow ((start d).run ms)) ∧
      (((start d).run ms).isOpen = true → Record ((start d).run ms)) := by
    refine run_induction (P := fun s => Sound s ∧ s.dest.batchSize = p.batchSize ∧
      (s.isOpen = true → Flow s) ∧ (s.isOpen = true → Record s)) ?_ ?_ ms
    · exact ⟨sound_start h, hsize, nofun, nofun⟩
    · intro s s' ⟨hs, hn, hflow, hrec⟩ hst
      exact ⟨sound_step hs hst, (batchSize_step hst).trans hn, flow_step hs hflow hst,
        record_step hs hflow hrec hst⟩
  obtain ⟨hs, hn, hflow, hrec⟩ := hinv
  rw [← hn]
  exact inOrder hs (hflow ho) (hrec ho) ho

/-- Two batches, of which the second is refused. -/
theorem delivers_in_order_refused :
    ∃ d : Destination Unit,
      DestinationPlan.build { name := "d", batchSize := 1 } = .ok d ∧
        ∃ s, s = (start d).run [.send [.raw ⟨⟨1, 0⟩, .insert, []⟩, .raw ⟨⟨2, 0⟩, .insert, []⟩],
            .proceed, .proceed, .proceed, .proceed, .proceed, .proceed, .proceed, .openPool,
            .pull 0, .begin 0, .answer 0 .accepted, .confirm 0, .confirm 0, .pull 0, .begin 0,
            .answer 0 (.refused (.destination "gone")), .report 0, .stopAll] ∧
          s.isOpen = true ∧ s.dest.failed = true ∧ s.acceptedBy 0 ≠ [] ∧ InOrder 1 s :=
  ⟨_, rfl, _, rfl, rfl, rfl, by decide,
    delivers_in_order (p := { name := "d", batchSize := 1 }) rfl _ rfl⟩

/-- Two workers have a batch each. The publisher crashes on the first, and the second is taken up
and published afterwards: nothing was refused, and what was routed to the first worker is not
published when the threads have ended. If the first batch is refused instead, the second may still
be taken up before its worker has let the other know. -/
theorem not_whole_after_crash :
    let users : Table := ⟨7, "users", "test", [⟨"id", .longLong, true, 0⟩], ["id"]⟩
    let context : RowContext := ⟨⟨1, 1⟩, ⟨"", 0, ""⟩, default, users, 1, none, 0⟩
    let insert (n : Int64) := Mutation.row (.insert context (Row.ofValues users [.long n]))
    let sends : List Move := [.openPool, .send [insert 1, insert 2], .proceed, .proceed, .proceed,
      .proceed, .proceed, .proceed, .proceed, .pull 0, .begin 0]
    let other : List Move := [.pull 1, .begin 1, .answer 1 .accepted]
    ∃ d : Destination Unit, DestinationPlan.build { name := "d", poolSize := 2 } = .ok d ∧
      (∃ s, s = (start d).run (sends ++ .answer 0 .crashed :: other ++
            [.confirm 1, .confirm 1, .stopAll, .pull 1, .leave 1]) ∧
          s.isOpen = true ∧ s.caller.isClosing = true ∧ s.dest.isQuiet = true ∧
          s.events = [.taken 0 [⟨0, insert 1⟩], .answered 0 [⟨0, insert 1⟩] .crashed,
            .taken 1 [⟨1, insert 2⟩], .answered 1 [⟨1, insert 2⟩] .accepted] ∧
          s.routed 0 = [⟨0, insert 1⟩] ∧ s.acceptedBy 0 = [] ∧
          (s.step .closePool).caller =
            .done (.error (.destination "worker 0 of d panicked"))) ∧
      ∃ s, s = (start d).run (sends ++ .answer 0 (.refused (.destination "gone")) :: other ++
            [.report 0]) ∧
          s.events = [.taken 0 [⟨0, insert 1⟩],
            .answered 0 [⟨0, insert 1⟩] (.refused (.destination "gone")),
            .taken 1 [⟨1, insert 2⟩], .answered 1 [⟨1, insert 2⟩] .accepted, .reported 0] :=
  ⟨_, rfl, ⟨_, rfl, by decide +kernel, by decide +kernel, by decide +kernel, by decide +kernel,
    by decide +kernel, by decide +kernel, by decide +kernel⟩, _, rfl, by decide +kernel⟩

end Depot

end ChangeFeed
