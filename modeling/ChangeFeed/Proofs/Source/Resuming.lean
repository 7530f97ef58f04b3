import ChangeFeed.Proofs.Source.Account
import ChangeFeed.Proofs.Source.Feed
import ChangeFeed.Proofs.Source.Schemas

/-!
# Resuming

A source that resumes after a mutation reads the log again from the point of the mutation on: from
the beginning of the transaction where that is known, else from the event of the mutation itself.

**The log** (`ServerLog`). Positions increase. Between an event with rows and the last table map of
its number no transaction begins or ends.

**What is seen again.** After a mutation in a transaction, every table map that later rows rely on
lies behind the point (`ServerLog.map_from_begin`), and later rows are handed over or the attempt
fails. After a mutation outside of transactions, the table map of later rows may lie before the
point. A source of all tables then has a schema from before or fails (`hands_of_cached`). A source
with a list of tables holds the rows back and goes on (`held_back_of_not_seen`).

Main result: `resumes_completely_or_loudly`, with `skips_rows_outside_transactions` for the case
that is neither.
-/

namespace ChangeFeed

/-! ## The log of a server -/

/-- An event of a log with rows, and the table map that says what its rows are rows of. -/
structure RowsOf (log : List LogEvent) (i : Nat) (e : LogEvent) (id : Int64) (k : Nat)
    (map : LogEvent) (t : Table) : Prop where
  here : log[i]? = some e
  row : e.isRowEvent = true
  number : e.tableId? = some id
  last : lastMap log id i = some (k, t)
  there : log[k]? = some map

theorem RowsOf.rowMap_eq {log : List LogEvent} {i k : Nat} {e map : LogEvent} {id : Int64}
    {t : Table} (h : RowsOf log i e id k map t) : Feed.rowMap log i e = some (k, t) := by
  rw [Feed.rowMap, if_pos h.row, h.number]
  exact h.last

/-- The rows of an event at a place have a table map before, and no transaction begins or ends
between the two. -/
def LogEvent.IsMapped (log : List LogEvent) (i : Nat) (e : LogEvent) : Prop :=
  (Feed.rowMap log i e).isSome = true ∧ ∀ k ∈ Feed.rowMap log i e, ∀ j < i, k.1 < j →
    ∀ e' ∈ log[j]?, e'.begins = false ∧ e'.ends = false

instance (log : List LogEvent) (i : Nat) (e : LogEvent) : Decidable (e.IsMapped log i) :=
  inferInstanceAs (Decidable (_ ∧ _))

/-- The log of one server. -/
structure ServerLog (log : List LogEvent) : Prop where
  increasing : log.Pairwise fun e e' => e.position.rank < e'.position.rank
  mapped : ∀ i < log.length, ∀ e ∈ log[i]?, e.isRowEvent = true → e.IsMapped log i

instance (log : List LogEvent) : Decidable (ServerLog log) :=
  decidable_of_iff (_ ∧ _) ⟨fun h => ⟨h.1, h.2⟩, fun h => ⟨h.increasing, h.mapped⟩⟩

/-- A mapper that was given events of the log makes the mutation of one of them. -/
def Mapper.Makes (log : List LogEvent) (m : RowMutation) : Prop :=
  ∃ (source : DataSource) (n : Nat) (us : List Use) (e : LogEvent) (ms : List Mutation),
    (∀ u ∈ us.filterMap Use.event?, u ∈ log) ∧ e ∈ log ∧
    ((us.foldl use (new source (.ofCapacity n))).map e).1 = .ok ms ∧ .row m ∈ ms

namespace ServerLog

variable {log : List LogEvent} {i j k : Nat} {e e' map : LogEvent} {id : Int64} {t : Table}

theorem lt_of_rank_lt (h : ServerLog log) (he : log[i]? = some e) (he' : log[j]? = some e')
    (hlt : e.position.rank < e'.position.rank) : i < j :=
  Duty.Ordered.lt_of_rank_lt (d := ⟨log, [], default, default⟩)
    (h.increasing.imp Nat.le_of_lt) he he' hlt

theorem rank_lt (h : ServerLog log) (he : log[i]? = some e) (he' : log[j]? = some e')
    (hij : i < j) : e.position.rank < e'.position.rank := by
  obtain ⟨hi, rfl⟩ := List.getElem?_eq_some_iff.1 he
  obtain ⟨hj, rfl⟩ := List.getElem?_eq_some_iff.1 he'
  exact List.pairwise_iff_getElem.1 h.increasing i j hi hj hij

/-- Events differ in their positions. -/
theorem eq_of_rank_eq (h : ServerLog log) (he : e ∈ log) (he' : e' ∈ log)
    (hrank : e.position.rank = e'.position.rank) : e = e' := by
  obtain ⟨i, hi⟩ := List.mem_iff_getElem?.1 he
  obtain ⟨j, hj⟩ := List.mem_iff_getElem?.1 he'
  rcases Nat.lt_trichotomy i j with hlt | rfl | hgt
  · exact absurd hrank (Nat.ne_of_lt (h.rank_lt hi hj hlt))
  · exact Option.some.inj (hi.symm.trans hj)
  · exact absurd hrank (Nat.ne_of_gt (h.rank_lt hj hi hgt))

/-- The last table map of rows is seen again if the log is read from the beginning of a transaction
before the rows. -/
theorem map_from_begin (h : ServerLog log) (hrows : RowsOf log i e id k map t) {b : LogEvent}
    (hb : b ∈ log) (hbegins : b.begins = true) (hle : b.position.rank ≤ e.position.rank) :
    b.position.rank ≤ map.position.rank := by
  obtain ⟨n, hn⟩ := List.mem_iff_getElem?.1 hb
  obtain ⟨hi, -⟩ := List.getElem?_eq_some_iff.1 hrows.here
  obtain ⟨-, hbetween⟩ := h.mapped i hi e hrows.here hrows.row
  have hni : n ≠ i := by
    rintro rfl
    obtain rfl := Option.some.inj (hn.symm.trans hrows.here)
    cases b with
    | query header database sql => cases hrows.row
    | _ => cases hbegins
  have hlt : n < i := by
    by_contra hge
    exact absurd (h.rank_lt hrows.here hn (by omega)) (Nat.not_lt_of_le hle)
  by_contra hmap
  have hk : k < n := h.lt_of_rank_lt hrows.there hn (Nat.lt_of_not_le hmap)
  obtain ⟨hnot, -⟩ := hbetween (k, t) hrows.rowMap_eq n hlt hk b hn
  rw [hbegins] at hnot
  cases hnot

end ServerLog

/-! ## The point of a mutation -/

namespace Mapper

/-- The transaction that is open began with one of the events. -/
def Opened (log : List LogEvent) (m : Mapper) : Prop :=
  ∀ x, m.transaction = some x → ∃ b ∈ log, b.begins = true ∧ x.position = b.position

variable {log : List LogEvent} {m : Mapper}

theorem opened_new (log : List LogEvent) (source : DataSource) (n : Nat) :
    (new source (.ofCapacity n)).Opened log := by
  intro x hx
  cases hx

theorem opened_use (h : m.Opened log) {u : Use} (hu : ∀ e ∈ u.event?, e ∈ log) :
    (m.use u).Opened log := by
  cases u with
  | event e =>
    intro x hx
    rcases transaction_of_map hx with hx | ⟨hbegins, hpos⟩
    · exact h x hx
    · exact ⟨e, hu e rfl, hbegins, hpos⟩
  | reset => exact nofun
  | lookUp id => exact h
  | lookUpName database name => exact h
  | remove id => exact h
  | clear => exact h

theorem opened_uses (h : m.Opened log) {us : List Use}
    (hus : ∀ e ∈ us.filterMap Use.event?, e ∈ log) : (us.foldl use m).Opened log := by
  induction us generalizing m with
  | nil => exact h
  | cons u us ih =>
    have hall : ∀ v ∈ u :: us, ∀ e ∈ v.event?, e ∈ log :=
      fun v hv e he => hus e (List.mem_filterMap.2 ⟨v, hv, he⟩)
    refine ih (opened_use h (hall u List.mem_cons_self)) fun e he => ?_
    obtain ⟨v, hv, hev⟩ := List.mem_filterMap.1 he
    exact hall v (List.mem_cons_of_mem _ hv) e hev

/-- A mutation that comes of an event names its position and the transaction that is open. -/
theorem context_of_mem_map {e : LogEvent} {ms : List Mutation} {x : RowMutation}
    (hok : (m.map e).1 = .ok ms) (hx : .row x ∈ ms) : e.isRowEvent = true ∧
      x.context.transaction = m.transaction ∧ x.context.position = e.position := by
  cases hrow : e.isRowEvent with
  | false =>
    rw [map_of_not_row hrow] at hok
    cases hok
    cases hx
  | true =>
    obtain ⟨id, t, rs, -, -, rfl, -, hcontext⟩ := map_of_row hrow hok
    obtain ⟨y, hy, hyx⟩ := List.mem_map.1 hx
    obtain rfl := Mutation.row.inj hyx
    exact ⟨rfl, hcontext y hy⟩

/-- The transaction of a mutation began with an event of the log. -/
theorem Makes.begins {m : RowMutation} (h : Makes log m) {x : Transaction}
    (hx : m.context.transaction = some x) :
    ∃ b ∈ log, b.begins = true ∧ (ResumePoint.after m).position = b.position := by
  obtain ⟨source, n, us, e, ms, hus, -, hok, hm⟩ := h
  have hopened := opened_uses (opened_new log source n) hus
  obtain ⟨-, htransaction, -⟩ := context_of_mem_map hok hm
  obtain ⟨b, hb, hbegins, hpos⟩ := hopened x (htransaction.symm.trans hx)
  refine ⟨b, hb, hbegins, ?_⟩
  rw [ResumePoint.position_after, hx]
  exact hpos

end Mapper

/-! ## Reading on -/

namespace Reader

variable {r : Reader}

theorem tracks_readOn {es : List LogEvent} (h : r.Tracks es) (fs : List LogEvent) :
    (r.readOn fs).Tracks (es ++ fs) := by
  induction fs generalizing r es with
  | nil => rwa [List.append_nil]
  | cons f fs ih =>
    rw [← List.singleton_append, ← List.append_assoc]
    exact ih (tracks_read h f)

theorem readOn_keeps (r : Reader) (es : List LogEvent) :
    (r.readOn es).tables.tables = r.tables.tables ∧ (r.readOn es).duplicates = r.duplicates ∧
      (r.readOn es).mapper.dataSource = r.mapper.dataSource := by
  induction es generalizing r with
  | nil => exact ⟨rfl, rfl, rfl⟩
  | cons e es ih =>
    obtain ⟨htables, hduplicates, hsource⟩ := ih (r.read e).2
    obtain ⟨htables', hduplicates', -⟩ := r.read_snd e
    refine ⟨htables.trans ?_, hduplicates.trans hduplicates', hsource.trans (r.dataSource_read e)⟩
    rw [htables', TableFilter.tables_after]

/-- Without a list of tables, what is cached is what the events said last, or was cached before. -/
theorem cached_readOn (hall : r.tables.tables.isEmpty = true) (es : List LogEvent) {id : Int64}
    {u : Table} (hu : (r.readOn es).mapper.cache.tables.peek? id = some u) :
    lastTable id es = some u ∨
      lastTable id es = none ∧ r.mapper.cache.tables.peek? id = some u := by
  induction es using List.reverseRecOn generalizing u with
  | nil => exact Or.inr ⟨rfl, hu⟩
  | append_singleton es e ih =>
    have hread : (r.readOn (es ++ [e])) = ((r.readOn es).read e).2 := r.readOn_append es [e]
    rw [hread, ((r.readOn es).read_snd e).2.2] at hu
    have hkept : e.maps? id = none → (r.readOn es).mapper.cache.tables.peek? id = some u →
        lastTable id (es ++ [e]) = some u ∨
          lastTable id (es ++ [e]) = none ∧ r.mapper.cache.tables.peek? id = some u := by
      intro hmaps hold
      rw [lastTable_of_not_maps hmaps]
      exact ih hold
    split at hu
    · rcases Mapper.peek?_of_map hu with hmaps | ⟨hmaps, hold⟩
      · exact Or.inl (lastTable_of_maps hmaps es)
      · exact hkept hmaps hold
    · rename_i hheld
      -- Only the second filter holds events back, and no table map.
      have htables : (r.readOn es).tables.passes e = true := by
        simp [TableFilter.passes, (r.readOn_keeps es).1, hall]
      rw [htables, Bool.true_and] at hheld
      refine hkept ?_ hu
      cases e with
      | tableMap header t => exact absurd rfl hheld
      | _ => rfl

/-- An event that mutations come of got through the filter of tables. -/
theorem passes_of_mem_read {e : LogEvent} {ms : List Mutation} {m : RowMutation}
    (hok : (r.read e).1.mutations = .ok ms) (hm : .row m ∈ ms) :
    m.context.position = e.position ∧ r.tables.passes e = true := by
  rw [mutations_read_eq] at hok
  split at hok
  · rename_i hpass
    obtain ⟨-, -, hposition⟩ := Mapper.context_of_mem_map hok hm
    exact ⟨hposition, (Bool.and_eq_true_iff.1 hpass).1⟩
  · cases hok
    cases hm

end Reader

/-! ## What is seen again -/

/-- The events of a log from a position on. -/
def eventsFrom (p : LogPosition) (log : List LogEvent) : List LogEvent :=
  log.filter fun e => decide (p.rank ≤ e.position.rank)

section Seen

variable {log : List LogEvent} {i k : Nat} {e map : LogEvent} {id : Int64} {t : Table}
  {p : LogPosition}

theorem mem_eventsFrom : e ∈ eventsFrom p log ↔ e ∈ log ∧ p.rank ≤ e.position.rank := by
  rw [eventsFrom, List.mem_filter, decide_eq_true_iff]

theorem eventsFrom_nil (p : LogPosition) : eventsFrom p [] = [] := rfl

theorem eventsFrom_append (p : LogPosition) (es fs : List LogEvent) :
    eventsFrom p (es ++ fs) = eventsFrom p es ++ eventsFrom p fs :=
  List.filter_append es fs

theorem eventsFrom_cons_of_le (hle : p.rank ≤ e.position.rank) (es : List LogEvent) :
    eventsFrom p (e :: es) = e :: eventsFrom p es :=
  List.filter_cons_of_pos (decide_eq_true hle)

theorem eventsFrom_cons_of_lt (hlt : e.position.rank < p.rank) (es : List LogEvent) :
    eventsFrom p (e :: es) = eventsFrom p es :=
  List.filter_cons_of_neg (by simpa using hlt)

theorem eventsFrom_eq (he : log[i]? = some e) (hle : p.rank ≤ e.position.rank) :
    eventsFrom p log = eventsFrom p (log.take i) ++ e :: eventsFrom p (log.drop (i + 1)) := by
  obtain ⟨hi, rfl⟩ := List.getElem?_eq_some_iff.1 he
  rw [← eventsFrom_cons_of_le hle, ← List.drop_eq_getElem_cons hi, ← eventsFrom_append,
    List.take_append_drop]

/-- A table map that is seen again tells what rows after it are rows of. -/
theorem lastTable_eventsFrom (hl : lastMap log id i = some (k, t)) (hk : log[k]? = some map)
    (hseen : p.rank ≤ map.position.rank) : lastTable id (eventsFrom p (log.take i)) = some t := by
  induction i with
  | zero => cases hl
  | succ i ih =>
    rw [List.take_add_one, eventsFrom_append]
    unfold lastMap at hl
    cases hi : log[i]? with
    | none =>
      rw [hi] at hl
      rw [Option.toList_none, eventsFrom_nil, List.append_nil]
      exact ih hl
    | some e =>
      rw [hi, Option.bind_some] at hl
      rw [Option.toList_some]
      cases hmaps : e.maps? id with
      | some u =>
        rw [hmaps] at hl
        cases hl
        obtain rfl := Option.some.inj (hi.symm.trans hk)
        rw [eventsFrom_cons_of_le hseen]
        exact lastTable_of_maps hmaps _
      | none =>
        rw [hmaps] at hl
        rcases Nat.lt_or_ge e.position.rank p.rank with hlt | hle
        · rw [eventsFrom_cons_of_lt hlt, eventsFrom_nil, List.append_nil]
          exact ih hl
        · rw [eventsFrom_cons_of_le hle]
          exact (lastTable_of_not_maps hmaps _).trans (ih hl)

theorem lastTable_of_forall {es : List LogEvent} (h : ∀ e ∈ es, e.maps? id = none) :
    lastTable id es = none :=
  List.findSome?_eq_none_iff.2 fun e he => h e (List.mem_reverse.1 he)

/-- If the last table map of rows is not seen again, none of their number is seen before them. -/
theorem ServerLog.lastTable_eq_none (h : ServerLog log) (hrows : RowsOf log i e id k map t)
    (hmap : map.position.rank < p.rank) {es : List LogEvent}
    (hes : ∀ f ∈ es, f ∈ eventsFrom p log ∧ f.position.rank < e.position.rank) :
    lastTable id es = none := by
  refine lastTable_of_forall fun f hf => ?_
  obtain ⟨hfrom, hlt⟩ := hes f hf
  obtain ⟨hflog, hle⟩ := mem_eventsFrom.1 hfrom
  obtain ⟨j, hj⟩ := List.mem_iff_getElem?.1 hflog
  obtain ⟨-, -, hlast⟩ := lastMap_spec hrows.last
  exact hlast j (h.lt_of_rank_lt hrows.there hj (Nat.lt_of_lt_of_le hmap hle))
    (h.lt_of_rank_lt hj hrows.here hlt) f hj

theorem ServerLog.before_of_mem (h : ServerLog log) (he : log[i]? = some e) {f : LogEvent}
    (hf : f ∈ eventsFrom p (log.take i)) :
    f ∈ eventsFrom p log ∧ f.position.rank < e.position.rank := by
  obtain ⟨hf, hle⟩ := mem_eventsFrom.1 hf
  obtain ⟨j, hj, rfl⟩ := List.mem_take_iff_getElem.1 hf
  obtain ⟨hji, hlength⟩ := Nat.lt_min.1 hj
  exact ⟨mem_eventsFrom.2 ⟨List.getElem_mem hlength, hle⟩,
    h.rank_lt (List.getElem?_eq_getElem hlength) he hji⟩

end Seen

/-! ## Resuming -/

namespace Source

variable {ι σ ω : Type} {log : List LogEvent} {i k : Nat} {e map : LogEvent} {id : Int64}
  {t : Table} {p : LogPosition} {s s₀ s₁ : Source ι σ} {notes : List (Note ι)}

/-- Every listener was handed the changes of an event, decoded with a table. -/
def Hands (s : Source ι σ) (t : Table) (e : LogEvent) (notes : List (Note ι)) : Prop :=
  ∀ l ∈ s.listeners.members, ∀ c ∈ rowChanges s.dataSource t e,
    ∃ ms, .mutations l ms ∈ notes ∧ Published ms c

/-- What an attempt knows after it read some events. -/
theorem Begun.readOn (h : s.Begun p s₀) (es : List LogEvent) :
    (s₀.reader.readOn es).Tracks es ∧
      (s₀.reader.readOn es).tables.tables = (TableFilter.ofNames s.tables).tables ∧
      (s₀.reader.readOn es).duplicates.resumedFrom = p ∧
      (s₀.reader.readOn es).mapper.dataSource = s.dataSource := by
  obtain ⟨htables, hduplicates, hsource⟩ := s₀.reader.readOn_keeps es
  rw [htables, hduplicates, hsource, h.reader]
  exact ⟨Reader.tracks_readOn (Reader.tracks_start _ _ _) es, rfl, rfl, rfl⟩

/-- What was made of an event that was seen is what every listener was handed. -/
theorem hands_of_published (hbegun : s.Begun p s₀)
    (haccount : s₀.Account (eventsFrom p log) notes s₁) (hr : s₁.connection = .reading)
    (he : log[i]? = some e) (hle : p.rank ≤ e.position.rank) {Q : Table → Prop}
    (hmade : ∀ ms, ((s₀.reader.readOn (eventsFrom p (log.take i))).read e).1.mutations = .ok ms →
      ∃ t, Q t ∧ ∀ c ∈ rowChanges s.dataSource t e, Published ms c) :
    ∃ t, Q t ∧ s.Hands t e notes := by
  obtain ⟨ms, hms, hall⟩ := haccount.handed hr _ e _ (eventsFrom_eq he hle)
  obtain ⟨t, ht, hc⟩ := hmade ms hms
  refine ⟨t, ht, fun l hl c hmem => ⟨ms, ?_, hc c hmem⟩⟩
  refine (hall l (hbegun.listeners ▸ hl)).resolve_left ?_
  rintro rfl
  obtain ⟨m, hm, -⟩ := hc c hmem
  cases hm

/-- Rows whose table map is seen again are handed over as rows of that table. -/
theorem hands_of_seen (hbegun : s.Begun p s₀)
    (haccount : s₀.Account (eventsFrom p log) notes s₁) (hr : s₁.connection = .reading)
    (hrows : RowsOf log i e id k map t) (hle : p.rank ≤ e.position.rank)
    (hfollows : (TableFilter.ofNames s.tables).follows t = true)
    (hseen : p.rank ≤ map.position.rank) : s.Hands t e notes := by
  obtain ⟨htracks, htables, hfrom, hsource⟩ := hbegun.readOn (eventsFrom p (log.take i))
  have hmade : ∀ ms,
      ((s₀.reader.readOn (eventsFrom p (log.take i))).read e).1.mutations = .ok ms →
        ∃ u, u = t ∧ ∀ c ∈ rowChanges s.dataSource u e, Published ms c := by
    intro ms hms
    have hpublished := Reader.mutations_read htracks hrows.row hrows.number
      (lastTable_eventsFrom hrows.last hrows.there hseen)
      (by rwa [TableFilter.follows, htables]) (hfrom.symm ▸ hle) hms
    rw [hsource] at hpublished
    exact ⟨t, rfl, hpublished⟩
  obtain ⟨u, rfl, hands⟩ := hands_of_published hbegun haccount hr hrows.here hle hmade
  exact hands

/-- Rows whose table map is not seen again are handed over by a source of all tables as rows of the
table that it has cached from before. -/
theorem hands_of_cached (hlog : ServerLog log) (hbegun : s.Begun p s₀)
    (haccount : s₀.Account (eventsFrom p log) notes s₁) (hr : s₁.connection = .reading)
    (hrows : RowsOf log i e id k map t) (hle : p.rank ≤ e.position.rank)
    (hall : s.tables = []) (hmap : map.position.rank < p.rank) :
    ∃ t', s.reader.mapper.cache.tables.peek? id = some t' ∧ s.Hands t' e notes := by
  obtain ⟨-, htables, hfrom, hsource⟩ := hbegun.readOn (eventsFrom p (log.take i))
  have hempty : s₀.reader.tables.tables.isEmpty = true := by
    rw [hbegun.reader, hall]
    rfl
  have hnone := hlog.lastTable_eq_none hrows hmap fun f hf => hlog.before_of_mem hrows.here hf
  refine hands_of_published hbegun haccount hr hrows.here hle fun ms hms => ?_
  rw [Reader.mutations_read_eq, TableFilter.passes_of_row hrows.row hrows.number, htables, hall,
    DuplicateFilter.passes_of_not_lt (fun _ => hfrom.symm ▸ hle)] at hms
  obtain ⟨id', t', rs, hid', hcached, rfl, hrs, -⟩ := Mapper.map_of_row hrows.row hms
  obtain rfl := Option.some.inj (hrows.number.symm.trans hid')
  rw [hsource] at hrs
  refine ⟨t', ?_, fun c hc => ?_⟩
  · rcases Reader.cached_readOn hempty _ hcached with hlast | ⟨-, hbefore⟩
    · rw [hnone] at hlast
      cases hlast
    · rwa [hbegun.reader] at hbefore
  · obtain ⟨x, hx, rfl⟩ := List.mem_map.1 (hrs ▸ hc)
    exact ⟨.row x, List.mem_map_of_mem hx, x, rfl, rfl⟩

/-- A source with a list of tables holds rows back whose table map is not seen again. -/
theorem held_back_of_not_seen (hlog : ServerLog log) (hbegun : s.Begun p s₀)
    (haccount : s₀.Account (eventsFrom p log) notes s₁)
    (hrows : RowsOf log i e id k map t) (hlist : s.tables ≠ [])
    (hmap : map.position.rank < p.rank) {l : ι} {ms : List Mutation}
    (hnote : .mutations l ms ∈ notes) {m : RowMutation} (hm : .row m ∈ ms) :
    m.context.position ≠ e.position := by
  intro hpos
  obtain ⟨pre, e', post, hsplit, hms⟩ := haccount.origin l ms hnote
  obtain ⟨hpos', hpass⟩ := Reader.passes_of_mem_read hms hm
  have hsorted : (eventsFrom p log).Pairwise fun e e' => e.position.rank < e'.position.rank :=
    hlog.increasing.filter _
  have hmem : e' ∈ eventsFrom p log := hsplit ▸ List.mem_append_right _ List.mem_cons_self
  obtain rfl : e' = e := hlog.eq_of_rank_eq (mem_eventsFrom.1 hmem).1
    (List.mem_of_getElem? hrows.here) (by rw [← hpos', hpos])
  rw [hsplit] at hsorted
  have hnone : lastTable id pre = none := by
    refine hlog.lastTable_eq_none hrows hmap fun f hf => ⟨?_, ?_⟩
    · exact hsplit ▸ List.mem_append_left _ hf
    · exact (List.pairwise_append.1 hsorted).2.2 f hf e' List.mem_cons_self
  obtain ⟨htracks, htables, -, -⟩ := hbegun.readOn pre
  have hempty : (s₀.reader.readOn pre).tables.tables.isEmpty = false := by
    rw [htables]
    cases htabs : s.tables with
    | nil => exact absurd htabs hlist
    | cons n ns => rfl
  rw [TableFilter.passes_of_row hrows.row hrows.number, hempty, Bool.false_or] at hpass
  obtain ⟨u, hu, -⟩ := (htracks.ids hempty id).1 (List.contains_iff_mem.1 hpass)
  rw [hnone] at hu
  cases hu

/-- **Resuming is complete or loud, or the table maps are lost.** A source resumes after a mutation
that was made of a log, and its client yields the events of the log from there on. Take later rows
of a followed table. If their table map is not before the point, and it is not if the mutation
belongs to a transaction, or if the source follows all tables, then every listener is handed the
rows, or hears of a failure, or a thread crashed. The rows are decoded with the table that the log
says, or with the one that is cached under its number from before the attempt, if the table map is
not seen again. With a list of tables, rows whose table map is not seen again reach nobody. -/
theorem resumes_completely_or_loudly (client : LogClient ω) (audience : SourceAudience ι ω)
    (hlog : ServerLog log) {m : RowMutation} (hm : Mapper.Makes log m) {store : Store σ}
    {w w₀ : ω} (hrest : s.isStarted = false)
    (hopen : s.openFeed client store w = (.ok (), s₀, w₀))
    (hresumes : s₀.saved.map (·.position) = some (ResumePoint.after m).position)
    (answers : List NextEvent)
    (hyields : answers.filterMap NextEvent.event? =
      eventsFrom (ResumePoint.after m).position log) :
    let p := (ResumePoint.after m).position
    let x := run client.aside.playing audience.noting.aside answers.length s₀
      (answers, ([], w₀))
    ∀ i e id k map t, RowsOf log i e id k map t →
      (TableFilter.ofNames s.tables).follows t = true → p.rank ≤ e.position.rank →
      (s.tables = [] ∨ m.context.transaction ≠ none ∨ p.rank ≤ map.position.rank →
        x.1.Loud x.2.2.1 ∨ ∃ t', s.Hands t' e x.2.2.1 ∧
          (t' = t ∨ map.position.rank < p.rank ∧
            s.reader.mapper.cache.tables.peek? id = some t')) ∧
      (s.tables ≠ [] → map.position.rank < p.rank → ∀ l ms, .mutations l ms ∈ x.2.2.1 →
        ∀ m', .row m' ∈ ms → m'.context.position ≠ e.position) := by
  intro p x i e id k map t hrows hfollows hle
  obtain ⟨q, hbegun⟩ := begun_of_openFeed hrest hopen
  obtain rfl : p = q := Option.some.inj (hresumes.symm.trans hbegun.saved)
  obtain ⟨notes, hnotes, haccount⟩ :=
    account_run client audience hbegun.connection answers ([], w₀)
  rw [hyields] at haccount
  obtain rfl : x.2.2.1 = notes := hnotes
  constructor
  · intro hcase
    by_cases hr : x.1.connection = .reading
    · right
      -- A table map before the point is not seen again.
      rcases Nat.lt_or_ge map.position.rank p.rank with hmap | hseen
      · rcases hcase with hall | htransaction | hseen
        · obtain ⟨t', hcached, hands⟩ :=
            hands_of_cached hlog hbegun haccount hr hrows hle hall hmap
          exact ⟨t', hands, Or.inr ⟨hmap, hcached⟩⟩
        · obtain ⟨tr, htr⟩ := Option.ne_none_iff_exists'.1 htransaction
          -- The point is where the transaction began, before the table maps of its rows.
          obtain ⟨b, hb, hbegins, hpos⟩ := hm.begins htr
          have hfrom : p = b.position := hpos
          rw [hfrom] at hle hmap
          exact absurd hmap (Nat.not_lt_of_le (hlog.map_from_begin hrows hb hbegins hle))
        · exact absurd hmap (Nat.not_lt_of_le hseen)
      · exact ⟨t, hands_of_seen hbegun haccount hr hrows hle hfollows hseen, Or.inl rfl⟩
    · exact Or.inl (haccount.loud hr)
  · intro hlist hmap l ms hnote m' hm'
    exact held_back_of_not_seen hlog hbegun haccount hrows hlist hmap hnote hm'

/-- After the second of two events with rows in a transaction, the first is handed over again. -/
theorem resumes_completely_or_loudly_transaction :
    let client : LogClient Unit := ⟨fun _ w => (.ok (), w), fun w => (.nothing, w), fun w => w⟩
    let audience : SourceAudience Unit Unit :=
      ⟨fun _ _ w => w, fun _ _ w => (.accepted, w), fun _ _ w => w⟩
    let header (n : UInt64) : EventHeader := ⟨n.toInt64, 0, 1, .plain "bin.000001" n (n + 50)⟩
    let users : Table := ⟨7, "users", "test", [], []⟩
    let first : LogEvent := .writeRows (header 300) 7 [[.null]]
    let second : LogEvent := .deleteRows (header 400) 7 [[.null]]
    let log := [.query (header 100) "test" " begin", .tableMap (header 200) users, first, second]
    let m : RowMutation := .delete
      { (Mapper.new default .default).context (header 400) users 0 with
        transaction := some ⟨0, 100, .plain "bin.000001" 100 150, none⟩ }
      (Row.ofValues users [.null])
    let s : Source Unit Memory :=
      { name := "shop", tables := ["test.users"], initialPosition := default,
        stored := ⟨some (.after m), []⟩, history := ⟨"shop", 1, []⟩, saved := none,
        failures := 0, violations := 0, reader := default, connection := .idle,
        listeners := ⟨[()], by decide⟩ }
    let answers := log.map NextEvent.event
    ∃ s₀ w₀, s.openFeed client .memory () = (.ok (), s₀, w₀) ∧
      s.Hands users first (run client.aside.playing audience.noting.aside answers.length s₀
        (answers, ([], w₀))).2.2.1 := by
  intro client audience header users first second log m s answers
  refine ⟨_, _, rfl, ?_⟩
  have hmakes : Mapper.Makes log m :=
    ⟨default, 0,
      [.event (.query (header 100) "test" " begin"), .event (.tableMap (header 200) users)],
      second, [.row m], by simp [Mapper.Use.event?, log], by simp [log], rfl, by simp⟩
  obtain ⟨hcomplete, -⟩ := resumes_completely_or_loudly client audience
    (show ServerLog log by decide) hmakes (show s.isStarted = false from rfl)
    (show s.openFeed client .memory () = (.ok (), _, _) from rfl) rfl
    answers (by decide) 2 first 7 1 (.tableMap (header 200) users) users
    ⟨rfl, rfl, rfl, rfl, rfl⟩ rfl (by decide)
  rcases hcomplete (Or.inr (Or.inl (Option.some_ne_none _))) with hloud | ⟨t, hands, ht⟩
  · exact absurd (by decide) (not_reading_of_loud hloud)
  · rcases ht with rfl | ⟨hbefore, -⟩
    · exact hands
    · exact absurd hbefore (by decide)

/-- After the first of two events with rows outside of transactions, the second one reaches nobody,
and nobody hears of it. -/
theorem skips_rows_outside_transactions :
    let client : LogClient Unit := ⟨fun _ w => (.ok (), w), fun w => (.nothing, w), fun w => w⟩
    let audience : SourceAudience Unit Unit :=
      ⟨fun _ _ w => w, fun _ _ w => (.accepted, w), fun _ _ w => w⟩
    let header (n : UInt64) : EventHeader := ⟨n.toInt64, 0, 1, .plain "bin.000001" n (n + 50)⟩
    let users : Table := ⟨7, "users", "test", [], []⟩
    let map : LogEvent := .tableMap (header 100) users
    let first : LogEvent := .writeRows (header 200) 7 [[.null]]
    let second : LogEvent := .writeRows (header 300) 7 [[.null]]
    let m : RowMutation := .insert ((Mapper.new default .default).context (header 200) users 0)
      (Row.ofValues users [.null])
    let s : Source Unit Memory :=
      { name := "shop", tables := ["test.users"], initialPosition := default,
        stored := ⟨some (.after m), []⟩, history := ⟨"shop", 1, []⟩, saved := none,
        failures := 0, violations := 0, reader := default, connection := .idle,
        listeners := ⟨[()], by decide⟩ }
    ServerLog [map, first, second] ∧ Mapper.Makes [map, first, second] m ∧
      RowsOf [map, first, second] 2 second 7 0 map users ∧
      eventsFrom (ResumePoint.after m).position [map, first, second] = [first, second] ∧
      ∃ s₀ w₀, s.openFeed client .memory () = (.ok (), s₀, w₀) ∧
        s₀.saved = some (.after m) ∧
        let x := run client.aside.playing audience.noting.aside 2 s₀
          ([.event first, .event second], ([], w₀))
        x.1.connection = .reading ∧ x.2.2.1 = [] ∧ rowChanges s.dataSource users second ≠ [] := by
  intro client audience header users map first second m s
  have hmakes : Mapper.Makes [map, first, second] m :=
    ⟨default, 0, [.event map], first, [.row m], by simp [Mapper.Use.event?], by simp, rfl,
      by simp⟩
  refine ⟨by decide, hmakes, ⟨rfl, rfl, rfl, rfl, rfl⟩, by decide, _, _, rfl, rfl, ?_⟩
  decide

end Source

end ChangeFeed
