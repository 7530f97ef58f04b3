import ChangeFeed.Proofs.Source.Account
import Mathlib.Data.List.ReduceOption

/-!
# What an attempt hands over

An attempt reads what its client answers: events, nothing for a while, and at most one failure,
which comes last. Its listeners take whatever they are handed. What they are handed and what the
checks count is said without the loop that does it.

**What gets through** (`TableFilter.sift`). The filters run over the events first.

**What is mapped** (`Mapper.results`, `untilFailure`, `failure?`). The mapper runs over the events
that got through. Results count up to the first failure.

**What is counted** (`descents`, `Mutation.misfits`). Ids that are below the id before them, and
mutations with an image that has other columns than the table.

Main results: `run_polls`, what comes of a stream, and `hands_over_mapped_batches`.
-/

namespace ChangeFeed

/-! ## The description -/

/-- The events that the filter of tables lets through when it sees them in order. -/
def TableFilter.sift (f : TableFilter) : List LogEvent → List LogEvent
  | [] => []
  | e :: es => if f.passes e then e :: (f.after e).sift es else (f.after e).sift es

/-- What the mapper makes of events, one after the other. -/
def Mapper.results (m : Mapper) : List LogEvent → List (Except Error (List Mutation))
  | [] => []
  | e :: es => (m.map e).1 :: (m.map e).2.results es

section Results

variable {α : Type}

/-- The results before the first failure. -/
def untilFailure : List (Except Error α) → List α
  | .ok a :: rs => a :: untilFailure rs
  | _ => []

/-- The first failure. -/
def failure? : List (Except Error α) → Option Error
  | [] => none
  | .ok _ :: rs => failure? rs
  | .error f :: _ => some f

end Results

/-- How often an id is below the one before it, if `last` stands before the first. -/
def descents (last : Int64) (ids : List Int64) : Nat :=
  ((last :: ids).zip ids).countP fun p => decide (p.2 < p.1)

/-- Does an image of the row have other columns than the table? -/
def Mutation.misfits : Mutation → Bool
  | .row m => m.change.images.any fun r => decide (r.columnMap ≠ m.context.table.columnMap)
  | .raw _ => false

theorem descents_nil (last : Int64) : descents last [] = 0 := rfl

theorem descents_cons (last id : Int64) (ids : List Int64) :
    descents last (id :: ids) = (if id < last then 1 else 0) + descents id ids := by
  unfold descents
  rw [List.zip_cons_cons, List.countP_cons, Nat.add_comm]
  simp only [decide_eq_true_eq]

theorem descents_append (last : Int64) (ids ids' : List Int64) :
    descents last (ids ++ ids') =
      descents last ids + descents (ids.getLast?.getD last) ids' := by
  induction ids generalizing last with
  | nil => rw [List.nil_append, descents_nil, Nat.zero_add, List.getLast?_nil, Option.getD_none]
  | cons id ids ih =>
    rw [List.cons_append, descents_cons, descents_cons, ih id, List.getLast?_cons,
      Option.getD_some, Nat.add_assoc]

theorem Row.conformsTo_iff {r : Row} {t : Table} :
    r.conformsTo t = true ↔ r.columnMap = t.columnMap :=
  decide_eq_true_iff

theorem OrderCheck.reports_iff {c : OrderCheck} {id : Int64} :
    c.reports id = true ↔ id < c.last :=
  decide_eq_true_iff

theorem RowMutation.conforms_iff (m : RowMutation) :
    m.conforms = true ↔ ∀ r ∈ m.change.images, r.columnMap = m.context.table.columnMap := by
  obtain ⟨c, change⟩ := m
  cases change with
  | insert r => simp [conforms, row, previous?, RowChange.images, Row.conformsTo_iff]
  | update p r changed =>
    simp [conforms, row, previous?, RowChange.images, Row.conformsTo_iff, and_comm]
  | delete r => simp [conforms, row, previous?, RowChange.images, Row.conformsTo_iff]

/-- The check of schemas complains about the mutations with an image that does not fit. -/
theorem Mutation.misfits_eq (m : Mutation) : m.misfits = !m.conforms := by
  cases m with
  | raw m => rfl
  | row m =>
    rw [Bool.eq_iff_iff, Bool.not_eq_true', ← Bool.not_eq_true, conforms, m.conforms_iff]
    simp only [misfits, List.any_eq_true, decide_eq_true_iff, ne_eq, not_forall, exists_prop]

/-! ## One event -/

namespace Reader

/-- The events of a stream that get through. -/
def accepted (r : Reader) (es : List LogEvent) : List LogEvent :=
  (r.tables.sift es).filter r.duplicates.passes

/-- What the mapper makes of a stream. -/
def results (r : Reader) (es : List LogEvent) : List (Except Error (List Mutation)) :=
  r.mapper.results (r.accepted es)

/-- The events of a stream that get through, up to the first one that cannot be mapped. -/
def taken (r : Reader) (es : List LogEvent) : List LogEvent :=
  (r.accepted es).take ((untilFailure (r.results es)).length + 1)

/-- The batches of mutations of a stream, up to the first failure. -/
def batches (r : Reader) (es : List LogEvent) : List (List Mutation) :=
  (untilFailure (r.results es)).filter (· ≠ [])

/-- The mutations of a stream, up to the first failure. -/
def mutations (r : Reader) (es : List LogEvent) : List Mutation :=
  (untilFailure (r.results es)).flatten

/-- How often the checks complain about a stream. -/
def complaints (r : Reader) (es : List LogEvent) : Nat :=
  descents r.eventOrder.last ((r.taken es).map LogEvent.id) +
    descents r.mutationOrder.last ((r.mutations es).map Mutation.id) +
    (r.mutations es).countP Mutation.misfits

/-- Does an event get through both filters? -/
def passes (r : Reader) (e : LogEvent) : Bool := r.tables.passes e && r.duplicates.passes e

theorem checkMutations_eq (c : OrderCheck) (ms : List Mutation) :
    checkMutations c ms =
      (descents c.last (ms.map Mutation.id) + ms.countP Mutation.misfits,
        ⟨(ms.map Mutation.id).getLast?.getD c.last⟩) := by
  induction ms generalizing c with
  | nil => rfl
  | cons m ms ih =>
    have hmisfits : (if m.conforms then 0 else 1) = if m.misfits = true then 1 else 0 := by
      rw [m.misfits_eq]
      cases m.conforms <;> rfl
    rw [checkMutations, ih, List.map_cons, descents_cons, List.countP_cons, List.getLast?_cons,
      hmisfits]
    simp only [OrderCheck.after, OrderCheck.reports_iff, Option.getD_some, Prod.mk.injEq, and_true]
    omega

variable {r : Reader} {e : LogEvent} {ms : List Mutation} {f : Error}

/-- An event that is held back changes the filter of tables at most. -/
theorem read_of_not_passes (h : r.passes e = false) :
    r.read e = (⟨none, 0, .ok []⟩, { r with tables := r.tables.after e }) := by
  unfold read
  exact if_neg (Bool.eq_false_iff.1 h)

/-- An event that gets through and cannot be mapped. -/
theorem read_of_error (h : r.passes e = true) (hm : (r.mapper.map e).1 = .error f) :
    (r.read e).1 = ⟨some e, if e.id < r.eventOrder.last then 1 else 0, .error f⟩ := by
  have hread : r.read e = take { r with tables := r.tables.after e } e := if_pos h
  rcases hmap : r.mapper.map e with ⟨result, mapper⟩
  obtain rfl : result = .error f := (congrArg Prod.fst hmap).symm.trans hm
  rw [hread, take]
  simp only [hmap, OrderCheck.reports_iff]

/-- An event that gets through and is mapped. -/
theorem read_of_ok (h : r.passes e = true) (hm : (r.mapper.map e).1 = .ok ms) :
    r.read e =
      (⟨some e, (if e.id < r.eventOrder.last then 1 else 0) +
          (descents r.mutationOrder.last (ms.map Mutation.id) + ms.countP Mutation.misfits),
          .ok ms⟩,
        { r with
          tables := r.tables.after e
          eventOrder := ⟨e.id⟩
          mutationOrder := ⟨(ms.map Mutation.id).getLast?.getD r.mutationOrder.last⟩
          mapper := (r.mapper.map e).2 }) := by
  have hread : r.read e = take { r with tables := r.tables.after e } e := if_pos h
  rcases hmap : r.mapper.map e with ⟨result, mapper⟩
  obtain rfl : result = .ok ms := (congrArg Prod.fst hmap).symm.trans hm
  rw [hread, take]
  simp only [hmap, checkMutations_eq, OrderCheck.reports_iff, OrderCheck.after]

theorem accepted_of_not_passes (h : r.passes e = false) (es : List LogEvent) :
    r.accepted (e :: es) = (r.read e).2.accepted es := by
  rw [read_of_not_passes h, accepted, accepted, TableFilter.sift]
  split
  · rename_i ht
    rw [passes, ht, Bool.true_and] at h
    rw [List.filter_cons_of_neg (Bool.eq_false_iff.1 h)]
  · rfl

theorem accepted_of_passes (h : r.passes e = true) (es : List LogEvent) :
    r.accepted (e :: es) = e :: (r.read e).2.accepted es := by
  obtain ⟨htables, hduplicates, -⟩ := r.read_snd e
  obtain ⟨ht, hd⟩ := Bool.and_eq_true_iff.1 h
  rw [accepted, accepted, TableFilter.sift, if_pos ht, List.filter_cons_of_pos hd, htables,
    hduplicates]

theorem results_of_not_passes (h : r.passes e = false) (es : List LogEvent) :
    r.results (e :: es) = (r.read e).2.results es := by
  rw [results, accepted_of_not_passes h, results, read_of_not_passes h]

theorem results_of_passes (h : r.passes e = true) (es : List LogEvent) :
    r.results (e :: es) = (r.mapper.map e).1 :: (r.read e).2.results es := by
  obtain ⟨-, -, hmapper⟩ := r.read_snd e
  rw [results, accepted_of_passes h, Mapper.results, results, hmapper]
  exact congrArg _ (congrArg (Mapper.results · _) (if_pos h).symm)

theorem complaints_of_not_passes (h : r.passes e = false) (es : List LogEvent) :
    r.complaints (e :: es) = (r.read e).2.complaints es := by
  rw [complaints, taken, mutations, results_of_not_passes h, accepted_of_not_passes h, complaints,
    taken, mutations, read_of_not_passes h]

theorem complaints_of_error (h : r.passes e = true) (hm : (r.mapper.map e).1 = .error f)
    (es : List LogEvent) : r.complaints (e :: es) = (r.read e).1.violations := by
  rw [complaints, taken, mutations, results_of_passes h, accepted_of_passes h, hm,
    read_of_error h hm]
  simp [untilFailure, descents_cons, descents_nil]

theorem complaints_of_ok (h : r.passes e = true) (hm : (r.mapper.map e).1 = .ok ms)
    (es : List LogEvent) :
    r.complaints (e :: es) = (r.read e).1.violations + (r.read e).2.complaints es := by
  have hresults : untilFailure (r.results (e :: es)) =
      ms :: untilFailure ((r.read e).2.results es) := by
    rw [results_of_passes h, hm, untilFailure]
  have htaken : r.taken (e :: es) = e :: (r.read e).2.taken es := by
    rw [taken, hresults, accepted_of_passes h, List.length_cons, List.take_succ_cons, taken]
  have hmutations : r.mutations (e :: es) = ms ++ (r.read e).2.mutations es := by
    rw [mutations, hresults, List.flatten_cons, mutations]
  rw [complaints, htaken, hmutations, List.map_cons, descents_cons, List.map_append,
    descents_append, List.countP_append, complaints, read_of_ok h hm]
  simp only
  omega

theorem batches_of_ok (h : r.passes e = true) (hm : (r.mapper.map e).1 = .ok ms)
    (es : List LogEvent) :
    r.batches (e :: es) = (if ms = [] then [] else [ms]) ++ (r.read e).2.batches es := by
  rw [batches, results_of_passes h, hm, untilFailure, List.filter_cons, batches]
  split <;> simp_all

end Reader

/-! ## The loop -/

/-- An answer that is no failure: an event, or nothing for a while. -/
def NextEvent.ofPoll : Option LogEvent → NextEvent
  | some e => .event e
  | none => .nothing

/-- Answers that are no failures, and perhaps a failure after them. -/
def NextEvent.ofPolls (polls : List (Option LogEvent)) (last : Option Error) : List NextEvent :=
  polls.map ofPoll ++ (last.map .failed).toList

variable {ι σ ω : Type}

/-- The listeners take whatever they are handed. -/
def SourceAudience.Accepts (audience : SourceAudience ι ω) : Prop :=
  ∀ l ms w, (audience.onMutations l ms w).1 = .accepted

/-- A batch is handed to listeners, one after the other. -/
def Note.handed (ls : List ι) (ms : List Mutation) : List (Note ι) :=
  ls.map fun l => .mutations l ms

/-- Listeners are told of a failure, one after the other. -/
def Note.told (ls : List ι) (f : Error) : List (Note ι) := ls.map fun l => .error l f

theorem Listeners.ask_of_accepts {audience : SourceAudience ι ω} (ha : audience.Accepts)
    (s : Listeners ι) (ms : List Mutation) (w : ω) :
    (s.ask (fun l => audience.onMutations l ms) w).1 = .accepted := by
  unfold ask
  induction s.members generalizing w with
  | nil => rfl
  | cons l ls ih =>
    rw [askEach]
    rcases hv : audience.onMutations l ms w with ⟨v, w'⟩
    obtain rfl : v = .accepted := (congrArg Prod.fst hv).symm.trans (ha l ms w)
    exact ih w'

namespace Source

variable {client : LogClient ω} {audience : SourceAudience ι ω} {s : Source ι σ} {e : LogEvent}

/-- Mutations are handed to all listeners, who take them. -/
theorem hand_of_ok (client : LogClient ω) (ha : audience.Accepts) (s : Source ι σ) (e : LogEvent)
    (v : Nat) (ms : List Mutation) (x : List (Note ι) × ω) :
    (hand client.aside audience.noting ⟨some e, v, .ok ms⟩ s x).1 = s ∧
      (hand client.aside audience.noting ⟨some e, v, .ok ms⟩ s x).2.1 =
        x.1 ++ (if ms = [] then [] else [ms]).flatMap (Note.handed s.listeners.members) := by
  have htell := s.listeners.notes_tell_event audience e x
  cases ms with
  | nil => exact ⟨rfl, htell.trans (List.append_nil x.1).symm⟩
  | cons m ms =>
    simp only [hand]
    generalize s.listeners.tell _ x = y at htell
    have hnoting : audience.noting.Accepts := fun l ms x => ha l ms x.2
    have hask := s.listeners.ask_of_accepts hnoting (m :: ms) y
    obtain ⟨asked, hasked, hall⟩ := s.listeners.notes_ask audience (m :: ms) y
    rw [hall hask, htell] at hasked
    rcases hv : s.listeners.ask (fun l => audience.noting.onMutations l (m :: ms)) y with ⟨v, z⟩
    rw [hv] at hask hasked
    obtain rfl : v = .accepted := hask
    exact ⟨rfl, hasked.trans (by simp [Note.handed])⟩

/-- A failure to map an event is told to all listeners, and the attempt ends. -/
theorem hand_of_error (client : LogClient ω) (audience : SourceAudience ι ω) (s : Source ι σ)
    (e : LogEvent) (v : Nat) (f : Error) (x : List (Note ι) × ω) :
    (hand client.aside audience.noting ⟨some e, v, .error f⟩ s x).1 = s.fail f ∧
      (hand client.aside audience.noting ⟨some e, v, .error f⟩ s x).2.1 =
        x.1 ++ Note.told s.listeners.members f := by
  refine ⟨rfl, ?_⟩
  have htell := s.listeners.notes_tell_event audience e x
  obtain ⟨hnotes, -⟩ := notes_stopOn client audience s f
    (s.listeners.tell (fun l => audience.noting.onEvent l e) x)
  rw [htell] at hnotes
  exact hnotes

theorem hear_of_held (client : LogClient ω) (audience : SourceAudience ι ω)
    (hp : s.reader.passes e = false) (w : ω) :
    s.hear client audience (.event e) w = ({ s with reader := (s.reader.read e).2 }, w) := by
  have hheed : s.heed e = (⟨none, 0, .ok []⟩, { s with reader := (s.reader.read e).2 }) := by
    rw [heed, Reader.read_of_not_passes hp]
    rfl
  rw [hear, hheed, hand]

theorem hear_of_ok (client : LogClient ω) (ha : audience.Accepts) (hp : s.reader.passes e = true)
    {ms : List Mutation} (hm : (s.reader.mapper.map e).1 = .ok ms) (x : List (Note ι) × ω) :
    (s.hear client.aside audience.noting (.event e) x).1 = (s.heed e).2 ∧
      (s.hear client.aside audience.noting (.event e) x).2.1 =
        x.1 ++ (if ms = [] then [] else [ms]).flatMap (Note.handed s.listeners.members) := by
  have hread : (s.heed e).1 = ⟨some e, _, .ok ms⟩ := congrArg Prod.fst (Reader.read_of_ok hp hm)
  rw [hear, hread]
  exact hand_of_ok client ha (s.heed e).2 e _ ms x

theorem hear_of_error (client : LogClient ω) (audience : SourceAudience ι ω)
    (hp : s.reader.passes e = true) {f : Error} (hm : (s.reader.mapper.map e).1 = .error f)
    (x : List (Note ι) × ω) :
    (s.hear client.aside audience.noting (.event e) x).1 = (s.heed e).2.fail f ∧
      (s.hear client.aside audience.noting (.event e) x).2.1 =
        x.1 ++ Note.told s.listeners.members f := by
  have hread : (s.heed e).1 = ⟨some e, _, .error f⟩ := Reader.read_of_error hp hm
  rw [hear, hread]
  exact hand_of_error client audience (s.heed e).2 e _ f x

/-! ## A stream -/

/-- What came of a stream that a source read: what its listeners heard, whether it goes on, and what
the checks counted. -/
structure Handover (s : Source ι σ) (es : List LogEvent) (last : Option Error)
    (notes : List (Note ι)) (s' : Source ι σ) : Prop where
  notes : notes = (s.reader.batches es).flatMap (Note.handed s.listeners.members) ++
    ((failure? (s.reader.results es)).or last).toList.flatMap (Note.told s.listeners.members)
  connection : s'.connection =
    if ((failure? (s.reader.results es)).or last).isSome then .ended else .reading
  violations : s'.violations = s.violations + s.reader.complaints es

namespace Handover

variable {es : List LogEvent} {last : Option Error} {notes : List (Note ι)} {s' : Source ι σ}

/-- The end of the stream. -/
theorem nil (hs : s.connection = .reading) : s.Handover [] none [] s where
  notes := rfl
  connection := hs
  violations := rfl

/-- The failure of the client after the stream. -/
theorem stopped (f : Error) :
    s.Handover [] (some f) (Note.told s.listeners.members f) (s.fail f) where
  notes := (List.append_nil _).symm
  connection := by
    obtain ⟨n, hn⟩ := fail_eq f s
    rw [hn]
    rfl
  violations := by
    obtain ⟨n, hn⟩ := fail_eq f s
    rw [hn]
    rfl

/-- An event that is held back. -/
theorem held (hp : s.reader.passes e = false)
    (h : Handover { s with reader := (s.reader.read e).2 } es last notes s') :
    s.Handover (e :: es) last notes s' where
  notes := by rw [h.notes, Reader.batches, Reader.batches, Reader.results_of_not_passes hp]
  connection := by rw [h.connection, Reader.results_of_not_passes hp]
  violations := by rw [h.violations, Reader.complaints_of_not_passes hp]

/-- An event that is mapped. -/
theorem mapped (hp : s.reader.passes e = true) {ms : List Mutation}
    (hm : (s.reader.mapper.map e).1 = .ok ms) (h : (s.heed e).2.Handover es last notes s') :
    s.Handover (e :: es) last
      ((if ms = [] then [] else [ms]).flatMap (Note.handed s.listeners.members) ++ notes) s' where
  notes := by
    rw [h.notes, Reader.batches_of_ok hp hm, List.flatMap_append, List.append_assoc,
      Reader.results_of_passes hp, hm, failure?]
    rfl
  connection := by
    rw [h.connection, Reader.results_of_passes hp, hm, failure?]
    rfl
  violations := by
    rw [h.violations, Reader.complaints_of_ok hp hm, ← Nat.add_assoc]
    rfl

/-- An event that cannot be mapped. -/
theorem failed (es : List LogEvent) (last : Option Error) {f : Error}
    (hp : s.reader.passes e = true) (hm : (s.reader.mapper.map e).1 = .error f) :
    s.Handover (e :: es) last (Note.told s.listeners.members f) ((s.heed e).2.fail f) where
  notes := by
    simp [Reader.batches, Reader.results_of_passes hp, hm, failure?, untilFailure]
  connection := by
    obtain ⟨n, hn⟩ := fail_eq f (s.heed e).2
    simp [hn, Reader.results_of_passes hp, hm, failure?]
  violations := by
    obtain ⟨n, hn⟩ := fail_eq f (s.heed e).2
    rw [hn, Reader.complaints_of_error hp hm]
    rfl

end Handover

/-- The loop reads the events one by one, and stops at the first failure. -/
theorem run_polls (client : LogClient ω) (ha : audience.Accepts) (hs : s.connection = .reading)
    (polls : List (Option LogEvent)) (last : Option Error) (x : List (Note ι) × ω) :
    let answers := NextEvent.ofPolls polls last
    let out := run client.aside.playing audience.noting.aside answers.length s (answers, x)
    ∃ notes, out.2.2.1 = x.1 ++ notes ∧ s.Handover polls.reduceOption last notes out.1 := by
  induction polls generalizing s x with
  | nil =>
    cases last with
    | none => exact ⟨[], (List.append_nil _).symm, .nil hs⟩
    | some f =>
      obtain ⟨hnotes, -⟩ := notes_stopOn client audience s f x
      simp only [NextEvent.ofPolls, List.map_nil, List.nil_append, Option.map_some,
        Option.toList_some, List.length_singleton, run_playing_cons hs]
      exact ⟨_, hnotes, .stopped f⟩
  | cons a as ih =>
    have hanswers : NextEvent.ofPolls (a :: as) last =
        NextEvent.ofPoll a :: NextEvent.ofPolls as last := rfl
    simp only [hanswers, List.length_cons, run_playing_cons hs]
    cases a with
    | none => exact ih hs x
    | some e =>
      rw [List.reduceOption_cons_of_some, NextEvent.ofPoll]
      cases hp : s.reader.passes e with
      | false =>
        rw [hear_of_held client.aside audience.noting hp]
        obtain ⟨notes, hnotes, h⟩ := ih (s := { s with reader := (s.reader.read e).2 }) hs x
        exact ⟨notes, hnotes, h.held hp⟩
      | true =>
        cases hm : (s.reader.mapper.map e).1 with
        | error f =>
          -- The attempt ends with this event, so the answers after it are not read.
          obtain ⟨hsource, hnotes⟩ := hear_of_error client audience hp hm x
          obtain ⟨n, hn⟩ := fail_eq f (s.heed e).2
          have hended : ((s.heed e).2.fail f).connection ≠ .reading := by
            rw [hn]
            exact nofun
          rw [hsource, run_of_not_reading hended]
          exact ⟨_, hnotes, .failed _ last hp hm⟩
        | ok ms =>
          obtain ⟨hsource, hnotes⟩ := hear_of_ok client ha hp hm x
          rw [hsource]
          obtain ⟨notes, hrest, h⟩ := ih (s := (s.heed e).2) hs
            (s.hear client.aside audience.noting (.event e) x).2
          refine ⟨_, ?_, h.mapped hp hm⟩
          rw [hrest, hnotes, List.append_assoc]

/-! ## From client to listeners -/

/-- **What an attempt hands over.** A new attempt reads the answers of a client: events, nothing for
a while, and at most one failure at the end. Its listeners take what they are handed. Then each of
them is handed exactly the results of the mapper that are not empty, for the events that both
filters let through, in order, up to the first event that cannot be mapped; and nothing after it but
that failure, or that of the client. What the checks complain about makes no difference to this.
They complain about every event that was looked at and every mutation whose id is below the one
before, and about every mutation with an image that has other columns than its table. -/
theorem hands_over_mapped_batches (client : LogClient ω) (ha : audience.Accepts)
    (hs : s.connection = .reading) {tables : List String} {p : LogPosition} {m : Mapper}
    (hr : s.reader = .start tables p m) (polls : List (Option LogEvent)) (last : Option Error)
    (w : ω) :
    let answers := NextEvent.ofPolls polls last
    let out := run client.aside.playing audience.noting.aside answers.length s (answers, [], w)
    let accepted := ((TableFilter.ofNames tables).sift polls.reduceOption).filter
      (DuplicateFilter.mk p).passes
    let results := m.reset.results accepted
    let failure := (failure? results).or last
    let batches := (untilFailure results).filter (· ≠ [])
    let looked := accepted.take ((untilFailure results).length + 1)
    out.2.2.1 = batches.flatMap (Note.handed s.listeners.members) ++
        failure.toList.flatMap (Note.told s.listeners.members) ∧
      out.1.connection = (if failure.isSome then .ended else .reading) ∧
      out.1.violations = s.violations +
        (descents (-1) (looked.map LogEvent.id) +
          descents (-1) (batches.flatten.map Mutation.id) +
          batches.flatten.countP Mutation.misfits) := by
  intro answers out accepted results failure batches looked
  obtain ⟨notes, hnotes, h⟩ := run_polls client ha hs polls last ([], w)
  have haccepted : s.reader.accepted polls.reduceOption = accepted := by
    rw [hr]
    rfl
  have hresults : s.reader.results polls.reduceOption = results := by
    rw [Reader.results, haccepted, hr]
    rfl
  have hbatches : s.reader.batches polls.reduceOption = batches := by
    rw [Reader.batches, hresults]
  have hmutations : s.reader.mutations polls.reduceOption = batches.flatten := by
    rw [Reader.mutations, hresults, List.flatten_filter_ne_nil]
  have hcomplaints : s.reader.complaints polls.reduceOption =
      descents (-1) (looked.map LogEvent.id) + descents (-1) (batches.flatten.map Mutation.id) +
        batches.flatten.countP Mutation.misfits := by
    rw [Reader.complaints, hmutations, Reader.taken, hresults, haccepted, hr]
    rfl
  refine ⟨?_, ?_, ?_⟩
  · rw [hnotes, List.nil_append, h.notes, hbatches, hresults]
  · rw [h.connection, hresults]
  · rw [h.violations, hcomplaints]

/-- An event comes late, a row is too short, and an event with rows of an unknown table ends the
attempt. The two rows before it are handed over, the one after it is not. -/
theorem hands_over_mapped_batches_violations :
    let client : LogClient Unit := ⟨fun _ w => (.ok (), w), fun w => (.nothing, w), id⟩
    let audience : SourceAudience Unit Unit :=
      ⟨fun _ _ w => w, fun _ _ w => (.accepted, w), fun _ _ w => w⟩
    let s : Source Unit Memory :=
      { name := "shop", tables := [], initialPosition := default, stored := .empty,
        history := ⟨"shop", 1, []⟩, saved := none, failures := 0, violations := 5,
        reader := .start [] default (.new default .default), connection := .reading,
        listeners := ⟨[()], by decide⟩ }
    let t : Table := ⟨7, "a", "shop", [⟨"x", .long, true, 0⟩], ["x"]⟩
    let header (offset : Int64) : EventHeader := ⟨offset, 0, 1, default⟩
    let polls := [some (.tableMap (header 5) t), none,
      some (.writeRows (header 3) 7 [[.long 1], []]), some (.deleteRows (header 9) 8 [[.null]]),
      some (.writeRows (header 10) 7 [[.long 2]])]
    let answers := NextEvent.ofPolls polls (some (.source "gone"))
    let out := run client.aside.playing audience.noting.aside 6 s (answers, [], ())
    let row (i : Int32) (r : Row) : Mutation :=
      .row (.insert ⟨⟨3, 0⟩, default, default, t, 1, none, i⟩ r)
    out.2.2.1 = [.mutations () [row 0 (.ofValues t [.long 1]), row 1 (.ofValues t [])],
        .error () (.unknownTable ("table id " ++ Text.decimalInt 8))] ∧
      out.1.connection = .ended ∧ out.1.violations = 7 := by
  intro client audience s t header polls answers out row
  have hover := hands_over_mapped_batches (s := s) client (fun l ms w => rfl : audience.Accepts) rfl
    rfl polls (some (.source "gone")) ()
  have hresults : (Mapper.new default .default).reset.results
      (((TableFilter.ofNames []).sift polls.reduceOption).filter
        (DuplicateFilter.mk default).passes) =
      [.ok [], .ok [row 0 (.ofValues t [.long 1]), row 1 (.ofValues t [])],
        .error (.unknownTable ("table id " ++ Text.decimalInt 8)),
        .ok [.row (.insert ⟨⟨10, 0⟩, default, default, t, 1, none, 0⟩ (.ofValues t [.long 2]))]] :=
    rfl
  simp only [hresults] at hover
  exact hover

end Source

end ChangeFeed
