import ChangeFeed.Proofs.Pipe.Intact

/-!
# What comes from the client

An event that comes while the pipe listens is taken on whole: what it owes is on its way to the
destination, or the attempt ends.

**Rows.** Events with rows come after the table map that tells what they are rows of, so their
mutations are the changes that the log owes.

**Points.** A mutation resumes at an event that came, and events come in order of their positions,
so it does not resume behind the event that it is made of.

Main result: `core_arrive`.
-/

namespace ChangeFeed

/-- Only events with rows change rows. -/
theorem isRowEvent_of_mem_rowChanges {source : DataSource} {t : Table} {e : LogEvent}
    {c : RowMutation} (h : c ∈ rowChanges source t e) : e.isRowEvent = true := by
  cases e <;> first | rfl | cases h

theorem TableFilter.follows_eq {f : TableFilter} {d : Duty}
    (h : f.tables = d.tables.map Text.trim) (t : Table) : f.follows t = d.follows t := by
  unfold TableFilter.follows Duty.follows
  rw [h]
  cases d.tables <;> rfl

namespace Plant

variable {σ : Type} {store : Store σ} {d : Duty} {s : Plant σ} {n : Nat} {e : LogEvent}

/-- After the mutations of an event were made, and before anybody was asked to take them. -/
def heeded (n : Nat) (e : LogEvent) (s : Plant σ) : Plant σ :=
  { s with source := (s.source.heed e).2, feed := s.feed.add n }

/-- An event that came is taken on by an attempt that missed nothing. -/
theorem intact_heeded (hlog : d.Ordered) (h : s.Intact d)
    (horigin : s.source.reader.mapper.dataSource = d.origin) (hhand : s.hand = .free)
    (he : d.log[n]? = some e) (hn : s.feed.MayYield d.log n) {ms : List Mutation}
    (hok : (s.source.reader.read e).1.mutations = .ok ms) {hand : Hand}
    (htodo : todo { s.heeded n e with hand } = ms) : Intact d { s.heeded n e with hand } := by
  obtain ⟨htables, hduplicates, -⟩ := s.source.reader.read_snd e
  have hnone : s.todo = [] := by
    unfold todo
    rw [hhand]
  refine ⟨h.begun, ?_, ?_, ?_, Feed.complete_add h.complete hn, ?_, ?_⟩
  · show (s.source.reader.read e).2.duplicates.resumedFrom = s.feed.start
    rw [hduplicates, h.resumed]
  · show (s.source.reader.read e).2.tables.tables = _
    rw [htables, TableFilter.tables_after, h.tables]
  · show (s.source.reader.read e).2.Tracks ((s.feed.add n).events d.log)
    rw [Feed.events_add he]
    exact Reader.tracks_read h.tracks e
  · intro i hi e' c he' howes hstart
    rcases List.mem_append.1 hi with hi | hi
    · -- What came before is on its way no more.
      rcases h.carried i hi e' c he' howes hstart with hc | ⟨-, m, hm, -⟩
      · exact Or.inl hc
      · rw [hnone] at hm
        cases hm
    · -- The changes of the event itself are among the mutations that were made of it.
      obtain rfl := List.mem_singleton.1 hi
      obtain rfl := Option.some.inj (he.symm.trans he')
      obtain ⟨e', id, k, t, he', hid, hmap, hfollows, hc⟩ := howes
      obtain rfl := Option.some.inj (he.symm.trans he')
      have hrow := isRowEvent_of_mem_rowChanges hc
      have hlast := Feed.lastTable_events h.complete hn he hrow hid hmap
      have hfrom : s.source.reader.duplicates.resumedFrom.rank ≤ e.position.rank := by
        rw [h.resumed]
        exact hstart
      rw [← horigin] at hc
      rw [← TableFilter.follows_eq h.tables] at hfollows
      refine Or.inr ⟨Feed.getLast?_add s.feed i, ?_⟩
      rw [htodo]
      exact Reader.mutations_read h.tracks hrow hid hlast hfollows hfrom hok c hc
  · rw [htodo]
    intro m hm
    obtain ⟨x, rfl, e', he', hpos⟩ := Reader.points_read h.tracks hok m hm
    refine ⟨x, n, e, rfl, Feed.getLast?_add s.feed n, he, ?_⟩
    rw [hpos]
    rcases List.mem_append.1 he' with he' | he'
    · obtain ⟨i, hi, he'⟩ := List.mem_filterMap.1 he'
      exact hlog.rank_le he' he (hn.1 i hi)
    · obtain rfl := List.mem_singleton.1 he'
      exact Nat.le_refl _

theorem core_heeded (hlog : d.Ordered) (h : Core store d s) (hread : s.source.connection = .reading)
    (hhand : s.hand = .free) (he : d.log[n]? = some e) (hn : s.feed.MayYield d.log n)
    {ms : List Mutation} (hok : (s.source.reader.read e).1.mutations = .ok ms) {hand : Hand}
    (hnext : hand = .free ∧ ms = [] ∨ hand = .asking ms s.source.listeners.members) :
    Core store d { s.heeded n e with hand } where
  sound := h.sound
  backed := h.backed
  keeps := h.keeps.of_eq rfl rfl rfl
  tables := h.tables
  origin := by
    show (s.source.reader.read e).2.mapper.dataSource = d.origin
    rw [Reader.dataSource_read, h.origin]
  intact := by
    intro _ hears
    have hpipe : .pipe ∈ s.source.listeners.members := by
      rcases hears with hm | hm
      · exact hm
      · rcases hnext with ⟨rfl, -⟩ | rfl
        · cases hm
        · exact hm
    refine intact_heeded hlog (h.intact hread (Or.inl hpipe)) h.origin hhand he hn hok ?_
    rcases hnext with ⟨rfl, rfl⟩ | rfl
    · rfl
    · exact if_pos hpipe
  busy := fun _ => hread
  ears := by
    rcases hnext with ⟨rfl, -⟩ | rfl
    · exact List.nodup_nil
    · exact s.source.listeners.nodup
  passesOn := by
    rcases hnext with ⟨rfl, -⟩ | rfl <;> trivial
  calling := by
    have hcall := h.calling
    rw [hhand] at hcall
    rcases hnext with ⟨rfl, -⟩ | rfl <;> exact hcall
  resting := h.resting

theorem core_receive (hlog : d.Ordered) (h : Core store d s)
    (hread : s.source.connection = .reading) (hhand : s.hand = .free) (he : d.log[n]? = some e)
    (hn : s.feed.MayYield d.log n) :
    Core store d (receive e { s with feed := s.feed.add n }) := by
  have hfree : { s.heeded n e with hand := .free } = s.heeded n e := by
    show { s.heeded n e with hand := .free } = { s.heeded n e with hand := s.hand }
    rw [hhand]
  unfold receive
  simp only
  split
  · rename_i hnone
    have hok := Reader.mutations_of_event_none hnone
    show Core store d (s.heeded n e)
    exact hfree ▸ core_heeded hlog h hread hhand he hn hok (Or.inl ⟨rfl, rfl⟩)
  · split
    · rename_i f hf
      refine core_fail f h.sound h.backed (h.keeps.of_eq rfl rfl rfl) h.tables ?_ ?_
      · show (s.source.reader.read e).2.mapper.dataSource = d.origin
        rw [Reader.dataSource_read, h.origin]
      · show s.depot.caller.isSending = false
        rw [h.calling, hhand]
        rfl
    · rename_i hok
      show Core store d (s.heeded n e)
      exact hfree ▸ core_heeded hlog h hread hhand he hn hok (Or.inl ⟨rfl, rfl⟩)
    · rename_i m ms hok
      exact core_heeded hlog h hread hhand he hn hok (Or.inr rfl)

theorem core_arrive (hlog : d.Ordered) (h : Core store d s) (hread : s.source.connection = .reading)
    (hhand : s.hand = .free) (a : Arrival) : Core store d (s.arrive d.log a) := by
  have hcall : s.depot.caller.isSending = false := by
    rw [h.calling, hhand]
    rfl
  cases a with
  | event n =>
    simp only [arrive]
    cases he : d.log[n]? with
    | none => exact h
    | some e =>
      by_cases hn : s.feed.MayYield d.log n
      · simp only [if_pos hn]
        exact core_receive hlog h hread hhand he hn
      · simp only [if_neg hn]
        exact h
  | nothing => exact h
  | failed e => exact core_fail e h.sound h.backed h.keeps h.tables h.origin hcall
  | crashed => exact core_crash h hcall

end Plant

end ChangeFeed
