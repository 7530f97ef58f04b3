import ChangeFeed.Progress.ResumePoint
import ChangeFeed.Proofs.Source.Duty
import ChangeFeed.Source.Reader

/-!
# What an attempt makes of the log

An attempt sees some of the events of a log, in order, and makes mutations of them.

**The invariant** (`Reader.Tracks`). For the numbers that the events gave to followed tables, the
filter of tables knows them and the cached schemas are right. The transaction began with one of the
events.

Main results: `mutations_read`, the mutations of an event of a followed table are its changes, and
`points_read`, they resume at the position of an event that was seen.
-/

namespace ChangeFeed

/-! ## Events in order -/

/-- The table that events gave a number to last. -/
def lastTable (id : Int64) (es : List LogEvent) : Option Table :=
  es.reverse.findSome? (·.maps? id)

theorem lastTable_of_maps {id : Int64} {e : LogEvent} {t : Table} (h : e.maps? id = some t)
    (es : List LogEvent) : lastTable id (es ++ [e]) = some t := by
  simp [lastTable, h]

theorem lastTable_of_not_maps {id : Int64} {e : LogEvent} (h : e.maps? id = none)
    (es : List LogEvent) : lastTable id (es ++ [e]) = lastTable id es := by
  simp [lastTable, h]

theorem LogEvent.maps?_eq_some {id : Int64} {e : LogEvent} {t : Table}
    (h : e.maps? id = some t) : t.id = id ∧ ∃ header, e = .tableMap header t := by
  cases e with
  | tableMap header u =>
    unfold maps? at h
    simp only [Option.ite_none_right_eq_some, Option.some.injEq] at h
    obtain ⟨hid, rfl⟩ := h
    exact ⟨hid, header, rfl⟩
  | _ => cases h

theorem LogEvent.maps?_tableMap (header : EventHeader) (t : Table) :
    (LogEvent.tableMap header t).maps? t.id = some t := if_pos rfl

theorem LogEvent.maps?_of_ne {header : EventHeader} {t : Table} {id : Int64} (h : id ≠ t.id) :
    (LogEvent.tableMap header t).maps? id = none := if_neg (Ne.symm h)

/-! ## The mapper -/

/-- Does the event begin a transaction? -/
def LogEvent.begins : LogEvent → Bool
  | .query _ _ sql => Mapper.isStatement "BEGIN" sql
  | _ => false

/-- Does the event end a transaction? -/
def LogEvent.ends : LogEvent → Bool
  | .query _ _ sql => Mapper.isStatement "COMMIT" sql
  | .xid _ _ => true
  | _ => false

namespace Mapper

variable {m : Mapper} {e : LogEvent}

theorem rows_eq_ok {α : Type} {h : EventHeader} {id : Int64}
    {make : Table → RowContext → α → RowMutation} {rs : List α} {ms : List Mutation}
    (hok : (m.rows h id make rs).1 = .ok ms) :
    ∃ t, m.cache.tables.peek? id = some t ∧
      ms = (rs.zipIdx.map fun r => make t (m.context h t r.2) r.1).map .row := by
  have hget : (m.cache.get id).1 = m.cache.tables.peek? id := Lru.fst_get _ _
  unfold rows at hok
  split at hok
  · rename_i t cache hc
    rw [hc] at hget
    refine ⟨t, hget.symm, ?_⟩
    rw [List.map_map]
    exact (Except.ok.inj hok).symm
  · cases hok

theorem map_of_not_row (h : e.isRowEvent = false) : (m.map e).1 = .ok [] := by
  cases e <;> first | rfl | cases h

/-- The mutations of an event with rows are its changes, in the transaction that is open. -/
theorem map_of_row {ms : List Mutation} (hrow : e.isRowEvent = true)
    (hok : (m.map e).1 = .ok ms) :
    ∃ (id : Int64) (t : Table) (rs : List RowMutation), e.tableId? = some id ∧
      m.cache.tables.peek? id = some t ∧ ms = rs.map .row ∧
      rs.map RowMutation.detached = rowChanges m.dataSource t e ∧
      ∀ x ∈ rs, x.context.transaction = m.transaction ∧ x.context.position = e.position := by
  cases e with
  | writeRows h id rs =>
    obtain ⟨t, ht, rfl⟩ := rows_eq_ok hok
    refine ⟨id, t, _, rfl, ht, rfl, List.map_map, fun x hx => ?_⟩
    obtain ⟨r, -, rfl⟩ := List.mem_map.1 hx
    exact ⟨rfl, rfl⟩
  | updateRows h id rs =>
    obtain ⟨t, ht, rfl⟩ := rows_eq_ok hok
    refine ⟨id, t, _, rfl, ht, rfl, List.map_map, fun x hx => ?_⟩
    obtain ⟨r, -, rfl⟩ := List.mem_map.1 hx
    exact ⟨rfl, rfl⟩
  | deleteRows h id rs =>
    obtain ⟨t, ht, rfl⟩ := rows_eq_ok hok
    refine ⟨id, t, _, rfl, ht, rfl, List.map_map, fun x hx => ?_⟩
    obtain ⟨r, -, rfl⟩ := List.mem_map.1 hx
    exact ⟨rfl, rfl⟩
  | _ => cases hrow

theorem rows_snd {α : Type} (m : Mapper) (h : EventHeader) (id : Int64)
    (make : Table → RowContext → α → RowMutation) (rs : List α) :
    (m.rows h id make rs).2 = { m with cache := (m.cache.get id).2 } := by
  unfold rows
  split
  · rename_i hc
    rw [hc]
  · rename_i hc
    rw [hc]

/-- What is cached after an event is what the event says, or was cached before. -/
theorem peek?_of_map {id : Int64} {u : Table} (h : (m.map e).2.cache.tables.peek? id = some u) :
    e.maps? id = some u ∨ e.maps? id = none ∧ m.cache.tables.peek? id = some u := by
  cases e with
  | tableMap header t =>
    rcases TableCache.peek?_of_register h with ⟨rfl, rfl⟩ | ⟨hne, hu⟩
    · exact Or.inl (LogEvent.maps?_tableMap header u)
    · exact Or.inr ⟨LogEvent.maps?_of_ne hne, hu⟩
  | writeRows header i rs =>
    simp only [map, rows_snd] at h
    exact Or.inr ⟨rfl, (Lru.peek?_get _ _ _).symm.trans h⟩
  | updateRows header i rs =>
    simp only [map, rows_snd] at h
    exact Or.inr ⟨rfl, (Lru.peek?_get _ _ _).symm.trans h⟩
  | deleteRows header i rs =>
    simp only [map, rows_snd] at h
    exact Or.inr ⟨rfl, (Lru.peek?_get _ _ _).symm.trans h⟩
  | query header db sql =>
    refine Or.inr ⟨rfl, ?_⟩
    simp only [map, query] at h
    split at h
    · exact h
    · split at h
      · exact h
      · exact h
  | xid header x => exact Or.inr ⟨rfl, h⟩
  | gtid header g => exact Or.inr ⟨rfl, h⟩

/-- A transaction begins over whatever was running, and it ends with its commit. -/
theorem transaction_map (m : Mapper) (e : LogEvent) :
    (m.map e).2.transaction =
      if e.begins then some ⟨e.header.timestamp, e.header.offset, e.position, m.announced⟩
      else if e.ends then none else m.transaction := by
  cases e with
  | query header db sql =>
    by_cases hb : isStatement "BEGIN" sql = true
    · simp [map, query, LogEvent.begins, hb, LogEvent.header, LogEvent.position]
    · by_cases hc : isStatement "COMMIT" sql = true
      · simp [map, query, LogEvent.begins, LogEvent.ends, hb, hc]
      · simp [map, query, LogEvent.begins, LogEvent.ends, hb, hc]
  | writeRows header i rs | updateRows header i rs | deleteRows header i rs =>
    simp only [map, rows_snd]
    rfl
  | _ => rfl

/-- A transaction that is open after an event was open before, or begins with the event. -/
theorem transaction_of_map {x : Transaction} (h : (m.map e).2.transaction = some x) :
    m.transaction = some x ∨ e.begins = true ∧ x.position = e.position := by
  rw [transaction_map] at h
  split at h
  · rename_i hbegins
    cases h
    exact Or.inr ⟨hbegins, rfl⟩
  · split at h
    · cases h
    · exact Or.inl h

theorem dataSource_map (m : Mapper) (e : LogEvent) : (m.map e).2.dataSource = m.dataSource := by
  cases e with
  | writeRows header i rs => simp only [map, rows_snd]
  | updateRows header i rs => simp only [map, rows_snd]
  | deleteRows header i rs => simp only [map, rows_snd]
  | query header db sql =>
    simp only [map, query]
    split
    · rfl
    · split <;> rfl
  | _ => rfl

end Mapper

/-! ## The filters -/

namespace TableFilter

/-- Is a table followed? -/
def follows (f : TableFilter) (t : Table) : Bool :=
  f.tables.isEmpty || f.tables.contains t.canonicalName

theorem tables_after (f : TableFilter) (e : LogEvent) : (f.after e).tables = f.tables := by
  unfold after
  split
  · split <;> rfl
  · rfl

theorem passes_tableMap (f : TableFilter) (h : EventHeader) (t : Table) :
    f.passes (.tableMap h t) = f.follows t :=
  rfl

/-- Rows get through if the filter knows the number that they name. -/
theorem passes_of_row {f : TableFilter} {e : LogEvent} (hrow : e.isRowEvent = true) {id : Int64}
    (hid : e.tableId? = some id) : f.passes e = (f.tables.isEmpty || f.ids.contains id) := by
  cases e with
  | writeRows header i rs =>
    obtain rfl := Option.some.inj hid
    rfl
  | updateRows header i rs =>
    obtain rfl := Option.some.inj hid
    rfl
  | deleteRows header i rs =>
    obtain rfl := Option.some.inj hid
    rfl
  | _ => cases hrow

theorem mem_ids_after {f : TableFilter} (hf : f.tables.isEmpty = false) (h : EventHeader)
    (t : Table) (id : Int64) :
    id ∈ (f.after (.tableMap h t)).ids ↔
      if id = t.id then f.follows t = true else id ∈ f.ids := by
  unfold after follows
  simp only [hf, Bool.false_eq_true, if_false, Bool.false_or]
  by_cases hid : id = t.id
  · subst hid
    split <;> simp_all
  · split <;> simp_all

end TableFilter

/-- Only events with rows are held back, and only behind the position that was resumed from. -/
theorem DuplicateFilter.passes_of_not_lt {f : DuplicateFilter} {e : LogEvent}
    (h : e.isRowEvent = true → f.resumedFrom.rank ≤ e.position.rank) : f.passes e = true := by
  unfold passes
  by_cases hrow : e.isRowEvent = true
  · have hle := h hrow
    have hlt : e.position.compareTo f.resumedFrom ≠ .lt := by
      intro hlt
      exact absurd (LogPosition.rank_lt_of_compareTo hlt) (Nat.not_lt_of_le hle)
    simp [hlt]
  · simp [hrow]

/-! ## The invariant -/

namespace Reader

/-- The attempt knows what the events say about followed tables. -/
structure Tracks (r : Reader) (es : List LogEvent) : Prop where
  ids : r.tables.tables.isEmpty = false → ∀ id,
    id ∈ r.tables.ids ↔ ∃ t, lastTable id es = some t ∧ r.tables.follows t = true
  schemas : ∀ id t u, lastTable id es = some t → r.tables.follows t = true →
    r.mapper.cache.tables.peek? id = some u → u = t
  transaction : ∀ x, r.mapper.transaction = some x → ∃ e ∈ es, x.position = e.position

variable {r : Reader} {es : List LogEvent} {e : LogEvent}

theorem tracks_start (tables : List String) (p : LogPosition) (m : Mapper) :
    (start tables p m).Tracks [] where
  ids := by
    intro _ id
    constructor
    · intro h
      cases h
    · rintro ⟨t, h, -⟩
      cases h
  schemas := by
    intro id t u h
    cases h
  transaction := by
    intro x h
    cases h

/-- What happens to the parts of an attempt when it reads an event. -/
theorem read_snd (r : Reader) (e : LogEvent) :
    (r.read e).2.tables = r.tables.after e ∧ (r.read e).2.duplicates = r.duplicates ∧
      (r.read e).2.mapper =
        if r.tables.passes e && r.duplicates.passes e then (r.mapper.map e).2 else r.mapper := by
  unfold read take
  simp only
  split
  · rename_i hp
    split
    · rename_i hm
      refine ⟨rfl, rfl, ?_⟩
      rw [hm]
    · rename_i hm
      refine ⟨rfl, rfl, ?_⟩
      rw [hm]
  · exact ⟨rfl, rfl, rfl⟩

theorem dataSource_read (r : Reader) (e : LogEvent) :
    (r.read e).2.mapper.dataSource = r.mapper.dataSource := by
  rw [(r.read_snd e).2.2]
  split
  · exact Mapper.dataSource_map r.mapper e
  · rfl

/-- An event that gets no further has no mutations. -/
theorem mutations_of_event_none (h : (r.read e).1.event = none) :
    (r.read e).1.mutations = .ok [] := by
  unfold read take at h ⊢
  simp only at h ⊢
  split
  · rename_i hp
    rw [if_pos hp] at h
    split at h <;> cases h
  · rfl

theorem mutations_read_eq (r : Reader) (e : LogEvent) :
    (r.read e).1.mutations =
      if r.tables.passes e && r.duplicates.passes e then (r.mapper.map e).1 else .ok [] := by
  unfold read take
  simp only
  split
  · split
    · rename_i hm
      rw [hm]
    · rename_i hm
      rw [hm]
  · rfl

theorem tracks_read (h : r.Tracks es) (e : LogEvent) : (r.read e).2.Tracks (es ++ [e]) := by
  obtain ⟨htables, -, hmapper⟩ := r.read_snd e
  have hfollows : ∀ t, (r.read e).2.tables.follows t = r.tables.follows t := by
    intro t
    rw [htables, TableFilter.follows, TableFilter.tables_after]
    rfl
  refine ⟨fun hne id => ?_, fun id t u ht hf hu => ?_, fun x hx => ?_⟩
  · rw [htables, TableFilter.tables_after] at hne
    simp only [hfollows]
    rw [htables]
    cases e with
    | tableMap header t =>
      rw [TableFilter.mem_ids_after hne]
      by_cases hid : id = t.id
      · subst hid
        simp [lastTable_of_maps (LogEvent.maps?_tableMap header t)]
      · rw [if_neg hid, lastTable_of_not_maps (LogEvent.maps?_of_ne hid), h.ids hne]
    | _ =>
      rw [lastTable_of_not_maps rfl]
      exact h.ids hne id
  · rw [hfollows] at hf
    rw [hmapper] at hu
    cases hm : e.maps? id with
    | some v =>
      rw [lastTable_of_maps hm] at ht
      cases ht
      obtain ⟨rfl, header, rfl⟩ := LogEvent.maps?_eq_some hm
      -- A table map of a followed table gets past both filters.
      have hpass : (r.tables.passes (.tableMap header t) &&
          r.duplicates.passes (.tableMap header t)) = true := by
        rw [TableFilter.passes_tableMap, hf, DuplicateFilter.passes_of_not_lt fun hrow => ?_]
        · rfl
        · cases hrow
      rw [if_pos hpass] at hu
      rcases Mapper.peek?_of_map hu with hu | ⟨hn, -⟩
      · exact (Option.some.inj (hm.symm.trans hu)).symm
      · rw [hm] at hn
        cases hn
    | none =>
      -- The event says nothing of this id, so what is cached was cached before.
      rw [lastTable_of_not_maps hm] at ht
      refine h.schemas id t u ht hf ?_
      split at hu
      · rcases Mapper.peek?_of_map hu with hu | ⟨-, hu⟩
        · rw [hm] at hu
          cases hu
        · exact hu
      · exact hu
  · have hx : r.mapper.transaction = some x ∨ x.position = e.position := by
      rw [hmapper] at hx
      split at hx
      · exact (Mapper.transaction_of_map hx).imp_right And.right
      · exact Or.inl hx
    rcases hx with hx | hx
    · obtain ⟨e', he', hpos⟩ := h.transaction x hx
      exact ⟨e', List.mem_append_left _ he', hpos⟩
    · exact ⟨e, List.mem_append_right _ List.mem_cons_self, hx⟩

/-- An event with rows of a followed table that is not behind becomes its changes, or the attempt
fails. -/
theorem mutations_read (h : r.Tracks es) (hrow : e.isRowEvent = true) {id : Int64} {t : Table}
    (hid : e.tableId? = some id) (ht : lastTable id es = some t) (hf : r.tables.follows t = true)
    (hp : r.duplicates.resumedFrom.rank ≤ e.position.rank) {ms : List Mutation}
    (hok : (r.read e).1.mutations = .ok ms) :
    ∀ c ∈ rowChanges r.mapper.dataSource t e, Published ms c := by
  have hpass : r.tables.passes e = true := by
    rw [TableFilter.passes_of_row hrow hid]
    by_cases hne : r.tables.tables.isEmpty = true
    · rw [hne, Bool.true_or]
    · have hmem := (h.ids (Bool.eq_false_iff.2 hne) id).2 ⟨t, ht, hf⟩
      rw [List.contains_iff_mem.2 hmem, Bool.or_true]
  rw [mutations_read_eq, hpass, DuplicateFilter.passes_of_not_lt fun _ => hp] at hok
  obtain ⟨id', u, rs, hid', hu, rfl, hrs, -⟩ := Mapper.map_of_row hrow hok
  obtain rfl := Option.some.inj (hid.symm.trans hid')
  obtain rfl := h.schemas id t u ht hf hu
  intro c hc
  rw [← hrs] at hc
  obtain ⟨x, hx, rfl⟩ := List.mem_map.1 hc
  exact ⟨.row x, List.mem_map_of_mem hx, x, rfl, rfl⟩

/-- The point after a mutation of an event is the position of an event that was seen. -/
theorem points_read (h : r.Tracks es) {ms : List Mutation}
    (hok : (r.read e).1.mutations = .ok ms) :
    ∀ m ∈ ms, ∃ x, m = .row x ∧
      ∃ e' ∈ es ++ [e], (ResumePoint.after x).position = e'.position := by
  rw [mutations_read_eq] at hok
  by_cases hrow : e.isRowEvent = true
  · split at hok
    · obtain ⟨id, t, rs, -, -, rfl, -, hpos⟩ := Mapper.map_of_row hrow hok
      intro m hm
      obtain ⟨x, hx, rfl⟩ := List.mem_map.1 hm
      obtain ⟨htr, hp⟩ := hpos x hx
      refine ⟨x, rfl, ?_⟩
      rw [ResumePoint.position_after, htr]
      cases hopen : r.mapper.transaction with
      | none => exact ⟨e, List.mem_append_right _ List.mem_cons_self, hp⟩
      | some tr =>
        obtain ⟨e', he', hpos'⟩ := h.transaction tr hopen
        exact ⟨e', List.mem_append_left _ he', hpos'⟩
    · cases hok
      simp
  · have hnil : ms = [] := by
      rw [Mapper.map_of_not_row (Bool.eq_false_iff.2 hrow), ite_self] at hok
      exact (Except.ok.inj hok).symm
    rw [hnil]
    simp

end Reader

end ChangeFeed
