import ChangeFeed.Destination.Plan
import ChangeFeed.Proofs.Destination.Workers

/-!
# A destination at work

A destination together with the one who calls it, in every order in which the steps of the caller
and of the workers can follow each other, and with what is remembered of them.

**The state** (`Depot`). The destination, what its caller is about (`Caller`), and a record: what
it was asked to send, what was sent under which number, what was published, and since the
destination was opened last, what was routed to each worker and what happened to batches
(`PublishEvent`).

**Moves** (`Depot.Move`). The caller sends and closes; `proceed` is its next step within a call of
sending, in the midst of which the destination may be opened. Each worker pulls messages, begins
with a batch, gets an answer of any kind from the publisher, reports a failure, confirms what was
published and leaves, and may crash. That a batch was refused and that the others know of it are two
moves, with anything between them. A move that is not possible changes nothing.

**What a move does** (`Step`). Each change of the state, with what holds when it comes about. The
invariants of the modules beside this one are proved from it.

Main results: `step_of_move`; `conclude_eq` and `run_send`, which say that a destination with a real
publisher, and one that is sent mutations without a break, takes the same steps.
-/

namespace ChangeFeed

/-- What the one who calls a destination is about. -/
inductive Caller where
  /-- The last call came back. -/
  | done (r : Except Error Unit)
  /-- These are still to be sent. -/
  | sending (ms : List Mutation)
  /-- A mutation is known to go to a worker, and is about to be tracked. -/
  | assigned (worker : Nat) (m : Mutation) (rest : List Mutation)
  /-- A tracked mutation waits for room in the queue of a worker. -/
  | placing (worker : Nat) (x : Dispatch) (rest : List Mutation)
  /-- The threads were told to stop and are waited for. -/
  | closing
  deriving DecidableEq

/-- Is no mutation half sent, and does nobody wait for the end of threads? -/
def Caller.isPlain : Caller → Bool
  | done _ | sending _ => true
  | _ => false

/-- Does the caller wait for the end of threads? -/
def Caller.isClosing : Caller → Bool
  | closing => true
  | _ => false

/-- What happens to a worker and its batches. -/
inductive PublishEvent where
  /-- A worker turns to the publisher with a batch. -/
  | taken (worker : Nat) (batch : List Dispatch)
  | answered (worker : Nat) (batch : List Dispatch) (v : Verdict)
  /-- A worker whose batch was refused lets the others know. -/
  | reported (worker : Nat)
  /-- The thread of a worker crashed with nothing in its batch. -/
  | crashed (worker : Nat)
  deriving DecidableEq

/-- A destination, its caller, and what happened so far. -/
structure Depot (ι : Type) where
  dest : Destination ι
  caller : Caller
  /-- What it was asked to send, one call after the other. -/
  calls : List (List Mutation)
  /-- What was tracked, each under its place as its number. -/
  sent : List Mutation
  /-- What was published ever. -/
  published : List Mutation
  /-- Has the destination been opened and not been closed since? -/
  isOpen : Bool
  /-- What came into the queue of each worker, with what was in it when the destination was opened.
  -/
  routed : Nat → List Dispatch
  /-- What happened to batches since the destination was opened. -/
  events : List PublishEvent

namespace Depot

variable {ι ω : Type}

/-- A destination that nobody has called yet. -/
def start (d : Destination ι) : Depot ι :=
  { dest := d
    caller := .done (.ok ())
    calls := []
    sent := []
    published := []
    isOpen := false
    routed := fun _ => []
    events := [] }

/-! ## Moves -/

/-- What can happen next. -/
inductive Move where
  | send (ms : List Mutation)
  | proceed
  | openPool
  | stopAll
  | closePool
  | pull (i : Nat)
  | begin (i : Nat)
  | answer (i : Nat) (v : Verdict)
  | report (i : Nat)
  | crash (i : Nat)
  | confirm (i : Nat)
  | leave (i : Nat)

/-- The next step within a call of sending. -/
def proceed (s : Depot ι) : Depot ι :=
  match s.caller with
  | .sending [] => { s with caller := .done (.ok ()) }
  | .sending (m :: ms) =>
    match s.dest.assign m with
    | .error e => { s with caller := .done (.error e) }
    | .ok i => { s with caller := .assigned i m ms }
  | .assigned i m ms =>
    let (x, dest) := s.dest.enroll m
    { s with dest, caller := .placing i x ms, sent := s.sent ++ [m] }
  | .placing i x ms =>
    match s.dest.place i x with
    | (.placed, dest) =>
      { s with
        dest
        caller := .sending ms
        routed := fun j => if j = i then s.routed j ++ [x] else s.routed j }
    | (.refused e, dest) => { s with dest, caller := .done (.error e) }
    | (.waits .., _) => s
  | _ => s

/-- Somebody opens the destination. When this leads to threads, the record of the time since then
begins. -/
def openPool (s : Depot ι) : Depot ι :=
  if s.dest.started then s
  else
    match s.dest.openPool with
    | (.ok (), dest) =>
      { s with
        dest
        isOpen := true
        routed := fun i => (s.dest.workers[i]?.map Worker.queued).getD []
        events := [] }
    | (.error _, dest) => { s with dest }

/-- The threads have ended and the call of closing comes back. -/
def closePool (s : Depot ι) : Depot ι :=
  let (r, dest) := s.dest.closePool
  { s with dest, caller := .done r, isOpen := false }

/-- A worker begins with its batch. -/
def begin (i : Nat) (s : Depot ι) : Depot ι :=
  let dest := s.dest.begin i
  match s.dest.atPublisher i, dest.atPublisher i with
  | none, some batch => { s with dest, events := s.events ++ [.taken i batch] }
  | _, _ => { s with dest }

/-- The publisher answers to a worker. -/
def answer (i : Nat) (v : Verdict) (s : Depot ι) : Depot ι :=
  match s.dest.atPublisher i with
  | some batch =>
    { s with
      dest := s.dest.answer i v
      published := s.published ++ if v = .accepted then batch.map (·.mutation) else []
      events := s.events ++ [.answered i batch v] }
  | none => s

/-- A worker whose batch was refused lets the others know. -/
def report (i : Nat) (s : Depot ι) : Depot ι :=
  match s.dest.refusal i with
  | some _ => { s with dest := s.dest.report i, events := s.events ++ [.reported i] }
  | none => s

/-- The thread of a worker crashes with nothing in its batch. -/
def crash (i : Nat) (s : Depot ι) : Depot ι :=
  if (s.dest.workers[i]?.map Worker.isIdle).getD false then
    { s with dest := s.dest.crash i, events := s.events ++ [.crashed i] }
  else s

/-- What a move leads to. -/
def step (s : Depot ι) : Move → Depot ι
  | .send ms =>
    match s.caller with
    | .done _ => { s with caller := .sending ms, calls := s.calls ++ [ms] }
    | _ => s
  | .proceed => s.proceed
  | .openPool => if s.caller.isClosing then s else s.openPool
  | .stopAll =>
    match s.caller with
    | .done _ => { s with dest := s.dest.stopAll, caller := .closing }
    | _ => s
  | .closePool =>
    match s.caller with
    | .closing => if s.dest.isQuiet then s.closePool else s
    | _ => s
  | .pull i => { s with dest := s.dest.pull i }
  | .begin i => s.begin i
  | .answer i v => s.answer i v
  | .report i => s.report i
  | .crash i => s.crash i
  | .confirm i => { s with dest := s.dest.confirm i }
  | .leave i => { s with dest := s.dest.leave i }

/-- What moves lead to one after the other. -/
def run (s : Depot ι) (ms : List Move) : Depot ι := ms.foldl step s

/-- With a publisher and listeners of any kind, a worker's batch ends as the publisher's answer has
it. -/
theorem conclude_eq (outlet : Outlet ι ω) (i : Nat) (d : Destination ι) (w : ω) :
    (d.conclude outlet i w).1 =
      match d.atPublisher i with
      | some batch => d.answer i (outlet.publish i (batch.map (·.mutation)) w).1
      | none => d := by
  unfold Destination.conclude
  cases d.atPublisher i <;> rfl

/-! ## Sending as a whole -/

/-- What a caller is about once a mutation was offered. -/
def afterOffer (ms : List Mutation) : Offer → Caller
  | .placed => .sending ms
  | .refused e => .done (.error e)
  | .waits i x => .placing i x ms

/-- What a caller is about once mutations were sent. -/
def afterSending : Sending → Caller
  | .sent => .done (.ok ())
  | .failed e => .done (.error e)
  | .waits i x rest => .placing i x rest

theorem run_append (s : Depot ι) (ms ns : List Move) : s.run (ms ++ ns) = (s.run ms).run ns :=
  List.foldl_append

/-- What has to wait for room is left as it is. -/
theorem waits_of_place {d d' : Destination ι} {i j : Nat} {x y : Dispatch}
    (h : d.place i x = (.waits j y, d')) : j = i ∧ y = x ∧ d' = d := by
  unfold Destination.place at h
  split at h
  · split at h
    · cases h
    · split at h
      · cases h
      · cases h
        exact ⟨rfl, rfl, rfl⟩
  · cases h
    exact ⟨rfl, rfl, rfl⟩

/-- Three steps of the caller are the offer of a mutation. -/
theorem run_offer {s : Depot ι} {m : Mutation} {ms : List Mutation}
    (hs : s.caller = .sending (m :: ms)) :
    (s.run (List.replicate 3 .proceed)).dest = (s.dest.offer m).2 ∧
      (s.run (List.replicate 3 .proceed)).caller = afterOffer ms (s.dest.offer m).1 := by
  show s.proceed.proceed.proceed.dest = _ ∧ s.proceed.proceed.proceed.caller = _
  unfold Destination.offer
  cases ha : s.dest.assign m with
  | error e =>
    have h₁ : s.proceed = { s with caller := .done (.error e) } := by
      simp only [proceed, hs, ha]
    rw [h₁]
    exact ⟨rfl, rfl⟩
  | ok i =>
    have h₁ : s.proceed = { s with caller := .assigned i m ms } := by
      simp only [proceed, hs, ha]
    rw [h₁]
    rcases he : s.dest.enroll m with ⟨x, dest⟩
    have h₂ : ({ s with caller := .assigned i m ms } : Depot ι).proceed =
        { s with dest, caller := .placing i x ms, sent := s.sent ++ [m] } := by
      simp only [proceed, he]
    rw [h₂]
    simp only [proceed]
    rcases hp : dest.place i x with ⟨o, dest'⟩
    cases o with
    | placed => exact ⟨rfl, rfl⟩
    | refused e => exact ⟨rfl, rfl⟩
    | waits j y =>
      obtain ⟨rfl, rfl, rfl⟩ := waits_of_place hp
      exact ⟨rfl, rfl⟩

/-- Sending, when nothing comes in between, is what a destination does by itself. -/
theorem run_send {s : Depot ι} {ms : List Mutation} (hs : s.caller = .sending ms) :
    ∃ n, (s.run (List.replicate n .proceed)).dest = (s.dest.send ms).2 ∧
      (s.run (List.replicate n .proceed)).caller = afterSending (s.dest.send ms).1 := by
  induction ms generalizing s with
  | nil =>
    refine ⟨1, ?_⟩
    show s.proceed.dest = _ ∧ s.proceed.caller = _
    simp only [proceed, hs]
    exact ⟨rfl, rfl⟩
  | cons m ms ih =>
    obtain ⟨hdest, hcaller⟩ := run_offer hs
    rcases ho : s.dest.offer m with ⟨o, dest⟩
    rw [ho] at hdest hcaller
    unfold Destination.send
    rw [ho]
    cases o with
    | placed =>
      obtain ⟨n, hn⟩ := ih hcaller
      refine ⟨3 + n, ?_⟩
      rw [← List.replicate_append_replicate, run_append]
      rwa [hdest] at hn
    | refused e => exact ⟨3, hdest, hcaller⟩
    | waits i x => exact ⟨3, hdest, hcaller⟩

/-! ## What a move does -/

/-- The depot with another worker in the place of one. -/
def setWorker (i : Nat) (w : Worker) (s : Depot ι) : Depot ι :=
  { s with dest := { s.dest with workers := s.dest.workers.set i w } }

/-- The depot with one more event. -/
def note (e : PublishEvent) (s : Depot ι) : Depot ι := { s with events := s.events ++ [e] }

/-- The changes of a depot. -/
inductive Step (s : Depot ι) : Depot ι → Prop where
  | same : Step s s
  | asked {ms : List Mutation} (hs : s.caller.isPlain = true) :
      Step s { s with caller := .sending ms, calls := s.calls ++ [ms] }
  | called {c : Caller} (hs : s.caller.isPlain = true) (hc : c.isPlain = true) :
      Step s { s with caller := c }
  | assigned {i : Nat} {m : Mutation} {ms : List Mutation} (hs : s.caller = .sending (m :: ms))
      (hf : s.dest.failed = false) (hr : s.dest.route m = .ok i) :
      Step s { s with caller := .assigned i m ms }
  | enrolled {i : Nat} {m : Mutation} {ms : List Mutation} (hs : s.caller = .assigned i m ms) :
      Step s { s with
        dest := { s.dest with tracker := (s.dest.tracker.register m).2 }
        caller := .placing i ⟨s.dest.tracker.nextSeq, m⟩ ms
        sent := s.sent ++ [m] }
  | placed {i : Nat} {x : Dispatch} {ms : List Mutation} {w : Worker}
      (hs : s.caller = .placing i x ms) (hw : s.dest.workers[i]? = some w)
      (hq : w.hasQueue = true) :
      Step s { s.setWorker i (w.push (.dispatch x)) with
        caller := .sending ms
        routed := fun j => if j = i then s.routed j ++ [x] else s.routed j }
  | turnedAway {i : Nat} {x : Dispatch} {ms : List Mutation} {w : Worker} {e : Error}
      (hs : s.caller = .placing i x ms) (hw : s.dest.workers[i]? = some w)
      (hq : w.hasQueue = false) :
      Step s { s with
        dest := { s.dest with tracker := s.dest.tracker.cancel x.seq }
        caller := .done (.error e) }
  | pulled {i : Nat} {w : Worker} {x : Dispatch} {rest : List WorkerMessage}
      (hw : s.dest.workers[i]? = some w) (hc : w.isCollecting = true) (hs : w.stopping = false)
      (hlt : w.batch.length < s.dest.batchSize) (hq : w.queue = .dispatch x :: rest) :
      Step s (s.setWorker i { w with queue := rest, batch := w.batch ++ [x] })
  | heardStop {i : Nat} {w : Worker} {rest : List WorkerMessage}
      (hw : s.dest.workers[i]? = some w) (hc : w.isCollecting = true) (hs : w.stopping = false)
      (hq : w.queue = .stop :: rest) :
      Step s (s.setWorker i { w with queue := rest, stopping := true })
  | gaveUp {i : Nat} {w : Worker} (hw : s.dest.workers[i]? = some w)
      (hc : w.isCollecting = true) (hb : w.batch ≠ []) (hf : s.dest.failed = true) :
      Step s (s.setWorker i w.drop)
  | took {i : Nat} {w : Worker} (hw : s.dest.workers[i]? = some w)
      (hc : w.isCollecting = true) (hb : w.batch ≠ []) (hf : s.dest.failed = false) :
      Step s ((s.setWorker i { w with phase := .publishing }).note (.taken i w.batch))
  | accepted {i : Nat} {w : Worker} (hw : s.dest.workers[i]? = some w)
      (hp : w.phase = .publishing) :
      Step s { (s.setWorker i { w with phase := .acknowledging (w.batch.map (·.seq)) }).note
          (.answered i w.batch .accepted) with
        published := s.published ++ w.batch.map (·.mutation) }
  | refused {i : Nat} {w : Worker} {e : Error} (hw : s.dest.workers[i]? = some w)
      (hp : w.phase = .publishing) :
      Step s ((s.setWorker i { w with phase := .failing e }).note
        (.answered i w.batch (.refused e)))
  | reported {i : Nat} {w : Worker} {e : Error} (hw : s.dest.workers[i]? = some w)
      (hp : w.phase = .failing e) :
      Step s { s.note (.reported i) with
        dest := { s.dest with workers := s.dest.workers.set i w.drop, failed := true } }
  | crashedIdle {i : Nat} {w : Worker} (hw : s.dest.workers[i]? = some w)
      (hc : w.isCollecting = true) (hb : w.batch = []) :
      Step s ((s.setWorker i w.crash).note (.crashed i))
  | crashed {i : Nat} {w : Worker} (hw : s.dest.workers[i]? = some w)
      (hp : w.phase = .publishing) :
      Step s ((s.setWorker i w.crash).note (.answered i w.batch .crashed))
  | confirmed {i : Nat} {w : Worker} {seq : Nat} {left : List Nat}
      (hw : s.dest.workers[i]? = some w) (hp : w.phase = .acknowledging (seq :: left)) :
      Step s { s with
        dest := { s.dest with
          workers := s.dest.workers.set i { w with phase := .acknowledging left }
          tracker := s.dest.tracker.ack seq } }
  | finished {i : Nat} {w : Worker} (hw : s.dest.workers[i]? = some w)
      (hp : w.phase = .acknowledging []) : Step s (s.setWorker i w.drop)
  | exited {i : Nat} {w : Worker} (hw : s.dest.workers[i]? = some w) (hc : w.isCollecting = true)
      (hs : w.stopping = true) (hb : w.batch = []) :
      Step s (s.setWorker i { w with status := .exited })
  | opened (hs : s.caller.isClosing = false) (hn : s.dest.started = false)
      (hp : ∀ w ∈ s.dest.workers, w.status = .parked) :
      Step s { s with
        dest := { s.dest with
          failed := false
          workers := s.dest.workers.map (·.start)
          started := true }
        isOpen := true
        routed := fun i => (s.dest.workers[i]?.map Worker.queued).getD []
        events := [] }
  | openFailed {e : Error} {ws : List Worker} (hs : s.caller.isClosing = false)
      (hn : s.dest.started = false)
      (hr : Destination.startFrom s.dest.name 0 s.dest.workers = (.error e, ws)) :
      Step s { s with dest := { s.dest with failed := false, workers := ws, started := false } }
  | toldToStop (hs : s.caller.isPlain = true) :
      Step s { s with dest := s.dest.stopAll, caller := .closing }
  | closed {r : Except Error Unit} (hs : s.caller = .closing)
      (hq : ∀ w ∈ s.dest.workers, w.status ≠ .running)
      (ht : ∃ w ∈ s.dest.workers, w.hasThread = true) :
      Step s { s with
        dest := { s.dest with
          started := false
          workers := s.dest.workers.map (·.join)
          tracker := s.dest.tracker.discard }
        caller := .done r
        isOpen := false }
  | closedIdle {r : Except Error Unit} (hs : s.caller = .closing)
      (ht : ∀ w ∈ s.dest.workers, w.hasThread = false) :
      Step s { s with
        dest := { s.dest with started := false }
        caller := .done r
        isOpen := false }

theorem modify_eq {d : Destination ι} {i : Nat} {w : Worker} (hw : d.workers[i]? = some w)
    (f : Worker → Worker) : d.modify i f = { d with workers := d.workers.set i (f w) } := by
  unfold Destination.modify
  rw [List.modify_eq_set, hw]
  rfl

theorem modify_of_none {d : Destination ι} {i : Nat} (hw : d.workers[i]? = none)
    (f : Worker → Worker) : d.modify i f = d := by
  unfold Destination.modify
  rw [List.modify_eq_self (List.getElem?_eq_none_iff.1 hw)]

theorem modify_eq_self {d : Destination ι} {i : Nat} {f : Worker → Worker}
    (h : ∀ w, d.workers[i]? = some w → f w = w) : d.modify i f = d := by
  cases hw : d.workers[i]? with
  | none => exact modify_of_none hw f
  | some w =>
    obtain ⟨hi, rfl⟩ := List.getElem?_eq_some_iff.1 hw
    rw [modify_eq hw, h _ hw, List.set_getElem_self]

/-! ### Workers -/

theorem step_pull (s : Depot ι) (i : Nat) : Step s { s with dest := s.dest.pull i } := by
  unfold Destination.pull
  cases hw : s.dest.workers[i]? with
  | none =>
    rw [modify_of_none hw]
    exact .same
  | some w =>
    rcases w.pull_cases s.dest.batchSize with h | ⟨hc, hs, hlt, ⟨x, rest, hq, h⟩ | ⟨rest, hq, h⟩⟩
    · rw [modify_eq_self fun v hv => by rwa [Option.some.inj (hv.symm.trans hw)]]
      exact .same
    · rw [modify_eq hw, h]
      exact .pulled hw hc hs hlt hq
    · rw [modify_eq hw, h]
      exact .heardStop hw hc hs hq

theorem step_leave (s : Depot ι) (i : Nat) : Step s { s with dest := s.dest.leave i } := by
  unfold Destination.leave
  cases hw : s.dest.workers[i]? with
  | none =>
    rw [modify_of_none hw]
    exact .same
  | some w =>
    by_cases hc : (w.isIdle && w.stopping) = true
    · rw [modify_eq hw, Worker.leave, if_pos hc]
      rw [Bool.and_eq_true, Worker.isIdle_iff] at hc
      exact .exited hw hc.1.1 hc.2 hc.1.2
    · rw [modify_eq_self fun v hv => by
        rw [Worker.leave, if_neg (by rwa [Option.some.inj (hv.symm.trans hw)])]]
      exact .same

theorem atPublisher_eq_some {d : Destination ι} {i : Nat} {b : List Dispatch} :
    d.atPublisher i = some b ↔
      ∃ w, d.workers[i]? = some w ∧ w.phase = .publishing ∧ w.batch = b := by
  unfold Destination.atPublisher
  cases d.workers[i]? with
  | none => simp
  | some w =>
    by_cases hp : w.phase = .publishing <;> simp [hp]

theorem begin_of_none {s : Depot ι} {i : Nat} (h : (s.dest.begin i).atPublisher i = none) :
    s.begin i = { s with dest := s.dest.begin i } := by
  simp only [begin, h]
  split
  · contradiction
  · rfl

theorem begin_of_some {s : Depot ι} {i : Nat} {b : List Dispatch}
    (hn : s.dest.atPublisher i = none) (h : (s.dest.begin i).atPublisher i = some b) :
    s.begin i = { s with dest := s.dest.begin i, events := s.events ++ [.taken i b] } := by
  simp only [begin, hn, h]

theorem begin_of_eq {s : Depot ι} {i : Nat} (h : s.dest.begin i = s.dest) : s.begin i = s := by
  cases hb : s.dest.atPublisher i with
  | none => rw [begin_of_none (by rw [h, hb]), h]
  | some b =>
    unfold begin
    rw [h, hb]

theorem step_begin (s : Depot ι) (i : Nat) : Step s (s.begin i) := by
  cases hw : s.dest.workers[i]? with
  | none =>
    rw [begin_of_eq (modify_of_none hw _)]
    exact .same
  | some w =>
    have hi := (List.getElem?_eq_some_iff.1 hw).1
    by_cases hc : (w.isCollecting && !w.batch.isEmpty) = true
    · have hc' := hc
      simp only [Bool.and_eq_true, Bool.not_eq_true', List.isEmpty_eq_false_iff] at hc'
      by_cases hf : s.dest.failed = true
      · have hd : s.dest.begin i = { s.dest with workers := s.dest.workers.set i w.drop } := by
          rw [Destination.begin, modify_eq hw, if_pos hc, if_pos hf]
        rw [begin_of_none (by simp [hd, Destination.atPublisher, hi, Worker.drop]), hd]
        exact .gaveUp hw hc'.1 hc'.2 hf
      · have hd : s.dest.begin i =
            { s.dest with workers := s.dest.workers.set i { w with phase := .publishing } } := by
          rw [Destination.begin, modify_eq hw, if_pos hc, if_neg hf]
        have hbefore : s.dest.atPublisher i = none := by
          simp [Destination.atPublisher, hw, (Worker.isCollecting_iff.1 hc'.1).2]
        have hafter : (s.dest.begin i).atPublisher i = some w.batch := by
          simp [hd, Destination.atPublisher, hi]
        rw [begin_of_some hbefore hafter, hd]
        exact .took hw hc'.1 hc'.2 (Bool.eq_false_iff.2 hf)
    · have hd : s.dest.begin i = s.dest :=
        modify_eq_self fun v hv => by rw [Option.some.inj (hv.symm.trans hw), if_neg hc]
      rw [begin_of_eq hd]
      exact .same

theorem step_answer (s : Depot ι) (i : Nat) (v : Verdict) : Step s (s.answer i v) := by
  unfold answer
  cases hb : s.dest.atPublisher i with
  | none => exact .same
  | some b =>
    obtain ⟨w, hw, hp, rfl⟩ := atPublisher_eq_some.1 hb
    cases v with
    | accepted =>
      simp only [Destination.answer, modify_eq hw]
      exact .accepted hw hp
    | refused e =>
      simp only [Destination.answer, modify_eq hw, reduceCtorEq, if_false, List.append_nil]
      exact .refused hw hp
    | crashed =>
      simp only [Destination.answer, modify_eq hw, reduceCtorEq, if_false, List.append_nil]
      exact .crashed hw hp

theorem refusal_eq_some {d : Destination ι} {i : Nat} {e : Error} :
    d.refusal i = some e ↔ ∃ w, d.workers[i]? = some w ∧ w.phase = .failing e := by
  unfold Destination.refusal
  cases d.workers[i]? with
  | none => simp
  | some w => cases hp : w.phase <;> simp [hp]

theorem step_report (s : Depot ι) (i : Nat) : Step s (s.report i) := by
  unfold report
  cases hr : s.dest.refusal i with
  | none => exact .same
  | some e =>
    obtain ⟨w, hw, hp⟩ := refusal_eq_some.1 hr
    simp only [Destination.report, hr, modify_eq hw]
    exact .reported hw hp

theorem step_crash (s : Depot ι) (i : Nat) : Step s (s.crash i) := by
  unfold crash
  cases hw : s.dest.workers[i]? with
  | none => exact .same
  | some w =>
    cases hc : w.isIdle with
    | false =>
      simp only [Option.map_some, hc, Option.getD_some, Bool.false_eq_true, if_false]
      exact .same
    | true =>
      obtain ⟨hcol, hb⟩ := Worker.isIdle_iff.1 hc
      simp only [Option.map_some, hc, Option.getD_some, if_true, Destination.crash, modify_eq hw]
      exact .crashedIdle hw hcol hb

theorem step_confirm (s : Depot ι) (i : Nat) : Step s { s with dest := s.dest.confirm i } := by
  unfold Destination.confirm
  cases hw : s.dest.workers[i]? with
  | none => exact .same
  | some w =>
    simp only
    split
    · rename_i hp
      rw [modify_eq hw]
      exact .confirmed hw hp
    · rename_i hp
      rw [modify_eq hw]
      exact .finished hw hp
    · exact .same

/-! ### The caller -/

theorem step_proceed (s : Depot ι) : Step s s.proceed := by
  unfold proceed
  cases hs : s.caller with
  | done r => exact .same
  | closing => exact .same
  | sending ms =>
    cases ms with
    | nil => exact .called (by rw [hs]; rfl) rfl
    | cons m ms =>
      simp only
      cases ha : s.dest.assign m with
      | error e => exact .called (by rw [hs]; rfl) rfl
      | ok i =>
        unfold Destination.assign at ha
        split at ha
        · cases ha
        · rename_i hf
          exact .assigned hs (Bool.eq_false_iff.2 hf) ha
  | assigned i m ms => exact .enrolled hs
  | placing i x ms =>
    simp only [Destination.place]
    cases hw : s.dest.workers[i]? with
    | none => exact .same
    | some w =>
      simp only
      cases hq : w.hasQueue with
      | false => exact .turnedAway hs hw hq
      | true =>
        simp only [Bool.not_true, Bool.false_eq_true, if_false]
        by_cases hroom : w.queue.length < s.dest.bufferSize
        · rw [if_pos hroom, modify_eq hw]
          exact .placed hs hw hq
        · rw [if_neg hroom]
          exact .same

theorem startFrom_of_parked (name : String) (i : Nat) {ws : List Worker}
    (h : ∀ w ∈ ws, w.status = .parked) :
    Destination.startFrom name i ws = (.ok (), ws.map (·.start)) := by
  induction ws generalizing i with
  | nil => rfl
  | cons w ws ih =>
    simp only [Destination.startFrom, h w List.mem_cons_self, if_true,
      ih (i + 1) fun v hv => h v (List.mem_cons_of_mem _ hv), List.map_cons]

theorem parked_of_startFrom {name : String} {i : Nat} {ws : List Worker}
    (h : (Destination.startFrom name i ws).1 = .ok ()) : ∀ w ∈ ws, w.status = .parked := by
  induction ws generalizing i with
  | nil => simp
  | cons w ws ih =>
    unfold Destination.startFrom at h
    split at h
    · rename_i hp
      exact List.forall_mem_cons.2 ⟨hp, ih h⟩
    · cases h

theorem step_openPool (s : Depot ι) (hs : s.caller.isClosing = false) : Step s s.openPool := by
  unfold openPool
  cases hn : s.dest.started with
  | true => exact .same
  | false =>
    cases hr : (Destination.startFrom s.dest.name 0 s.dest.workers).1 with
    | ok u =>
      have hp := parked_of_startFrom hr
      have hd : s.dest.openPool = (.ok (), { s.dest with
          failed := false
          workers := s.dest.workers.map (·.start)
          started := true }) := by
        rw [Destination.openPool, hn, startFrom_of_parked _ _ hp]
        rfl
      simp only [hd, Bool.false_eq_true, if_false]
      exact .opened hs hn hp
    | error e =>
      have hd : s.dest.openPool = (.error e, { s.dest with
          failed := false
          workers := (Destination.startFrom s.dest.name 0 s.dest.workers).2
          started := false }) := by
        simp only [Destination.openPool, hn, hr]
        rfl
      simp only [hd, Bool.false_eq_true, if_false]
      exact .openFailed hs hn (Prod.ext hr rfl)

theorem step_closePool (s : Depot ι) (hs : s.caller = .closing) (hq : s.dest.isQuiet = true) :
    Step s s.closePool := by
  have hq' : ∀ w ∈ s.dest.workers, w.status ≠ .running := by
    simpa [Destination.isQuiet, Destination.isBusy] using hq
  unfold closePool Destination.closePool
  by_cases ht : s.dest.workers.any (·.hasThread) = true
  · simp only [if_pos ht]
    exact .closed hs hq' (List.any_eq_true.1 ht)
  · simp only [if_neg ht]
    exact .closedIdle hs (by simpa using ht)

/-- Every move is one of the changes. -/
theorem step_of_move (s : Depot ι) (m : Move) : Step s (s.step m) := by
  cases m with
  | send ms =>
    simp only [step]
    split
    · rename_i hs
      exact .asked (by rw [hs]; rfl)
    · exact .same
  | proceed => exact step_proceed s
  | openPool =>
    simp only [step]
    split
    · exact .same
    · rename_i hs
      exact step_openPool s (Bool.eq_false_iff.2 hs)
  | stopAll =>
    simp only [step]
    split
    · rename_i hs
      exact .toldToStop (by rw [hs]; rfl)
    · exact .same
  | closePool =>
    simp only [step]
    split
    · rename_i hs
      split
      · rename_i hq
        exact step_closePool s hs hq
      · exact .same
    · exact .same
  | pull i => exact step_pull s i
  | begin i => exact step_begin s i
  | answer i v => exact step_answer s i v
  | report i => exact step_report s i
  | crash i => exact step_crash s i
  | confirm i => exact step_confirm s i
  | leave i => exact step_leave s i

/-- What every change keeps holds after every run. -/
theorem run_induction {P : Depot ι → Prop} {s : Depot ι} (h : P s)
    (hstep : ∀ {s s' : Depot ι}, P s → Step s s' → P s') (ms : List Move) : P (s.run ms) := by
  induction ms generalizing s with
  | nil => exact h
  | cons m ms ih => exact ih (hstep h (step_of_move s m))

end Depot

end ChangeFeed
