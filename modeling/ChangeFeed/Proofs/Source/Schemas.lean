import ChangeFeed.Proofs.Source.Attempt

/-!
# Rows are decoded with the last schema

**Uses** (`Mapper.Use`). A mapper is given events and reset. Others look at its cache, take entries
out of it or empty it, but nobody else puts schemas in.

**The invariant** (`Mapper.Current`). What is cached under a number is the table that the events
gave the number to last. Evictions and renamed tables only take schemas out, so whatever is left is
current.

Main result: `decodes_with_last_schema`.
-/

namespace ChangeFeed

/-- The row change is one of a table: its context and all its images name the table. -/
structure RowMutation.IsOf (m : RowMutation) (t : Table) : Prop where
  context : m.context.table = t
  images : ∀ r ∈ m.change.images, r.table = t

theorem isOf_of_detached {m : RowMutation} {t : Table} (h : m.detached.IsOf t) : m.IsOf t :=
  ⟨h.context, h.images⟩

/-- The changes of an event are changes of the table that they are decoded with. -/
theorem isOf_of_mem_rowChanges {source : DataSource} {t : Table} {e : LogEvent} {c : RowMutation}
    (h : c ∈ rowChanges source t e) : c.IsOf t := by
  have himage : ∀ vs, (Row.ofValues t vs).table = t := fun _ => rfl
  cases e with
  | writeRows header id rs =>
    obtain ⟨r, -, rfl⟩ := List.mem_map.1 h
    exact ⟨rfl, fun i hi => List.mem_singleton.1 hi ▸ himage _⟩
  | updateRows header id rs =>
    obtain ⟨r, -, rfl⟩ := List.mem_map.1 h
    refine ⟨rfl, fun i hi => ?_⟩
    rcases List.mem_cons.1 hi with rfl | hi
    · exact himage _
    · exact List.mem_singleton.1 hi ▸ himage _
  | deleteRows header id rs =>
    obtain ⟨r, -, rfl⟩ := List.mem_map.1 h
    exact ⟨rfl, fun i hi => List.mem_singleton.1 hi ▸ himage _⟩
  | _ => cases h

/-! ## The mapper in use -/

namespace Mapper

/-- What happens to a mapper and its cache. -/
inductive Use where
  | event (e : LogEvent)
  | reset
  | lookUp (id : Int64)
  | lookUpName (database name : String)
  | remove (id : Int64)
  | clear

/-- The mapper after one use. -/
def use (m : Mapper) : Use → Mapper
  | .event e => (m.map e).2
  | .reset => m.reset
  | .lookUp id => { m with cache := (m.cache.get id).2 }
  | .lookUpName database name => { m with cache := (m.cache.getByName database name).2 }
  | .remove id => { m with cache := (m.cache.remove id).2 }
  | .clear => { m with cache := m.cache.clear }

/-- The event of a use, if it is one. -/
def Use.event? : Use → Option LogEvent
  | .event e => some e
  | _ => none

/-- What is cached is what the events said last. -/
def Current (m : Mapper) (es : List LogEvent) : Prop :=
  ∀ id u, m.cache.tables.peek? id = some u → lastTable id es = some u

theorem current_new (source : DataSource) (n : Nat) :
    (new source (.ofCapacity n)).Current [] := by
  intro id u h
  cases h

theorem current_map {m : Mapper} {es : List LogEvent} (h : m.Current es) (e : LogEvent) :
    (m.map e).2.Current (es ++ [e]) := by
  intro id u hu
  rcases peek?_of_map hu with hmaps | ⟨hmaps, hold⟩
  · exact lastTable_of_maps hmaps es
  · rw [lastTable_of_not_maps hmaps]
    exact h id u hold

/-- No use but a table map puts a schema in. -/
theorem current_use {m : Mapper} {es : List LogEvent} (h : m.Current es) (u : Use) :
    (m.use u).Current (es ++ u.event?.toList) := by
  cases u with
  | event e => exact current_map h e
  | reset =>
    intro id' t ht
    simp only [Use.event?, Option.toList_none, List.append_nil]
    exact h id' t ht
  | lookUp id =>
    intro id' t ht
    simp only [Use.event?, Option.toList_none, List.append_nil]
    exact h id' t (by simpa [use] using ht)
  | lookUpName database name =>
    intro id' t ht
    simp only [Use.event?, Option.toList_none, List.append_nil]
    exact h id' t (by simpa [use] using ht)
  | remove id =>
    intro id' t ht
    simp only [Use.event?, Option.toList_none, List.append_nil]
    exact h id' t (TableCache.peek?_of_remove ht)
  | clear =>
    intro id' t ht
    cases ht

theorem current_uses {m : Mapper} {es : List LogEvent} (h : m.Current es) (us : List Use) :
    (us.foldl use m).Current (es ++ us.filterMap Use.event?) := by
  induction us generalizing m es with
  | nil => simpa using h
  | cons u us ih =>
    have hrest := ih (current_use h u)
    rw [List.append_assoc] at hrest
    cases hu : u.event? <;> simpa [hu] using hrest

theorem dataSource_uses (m : Mapper) (us : List Use) :
    (us.foldl use m).dataSource = m.dataSource := by
  induction us generalizing m with
  | nil => rfl
  | cons u us ih =>
    rw [List.foldl_cons, ih]
    cases u with
    | event e => exact dataSource_map m e
    | _ => rfl

/-! ## Rows with and without a schema -/

/-- An event with rows is mapped row by row. -/
theorem map_eq_rows {e : LogEvent} (hrow : e.isRowEvent = true) {id : Int64}
    (hid : e.tableId? = some id) :
    ∃ (α : Type) (make : Table → RowContext → α → RowMutation) (rs : List α),
      ∀ m : Mapper, m.map e = m.rows e.header id make rs := by
  cases e with
  | writeRows header i rs =>
    obtain rfl := Option.some.inj hid
    exact ⟨_, _, rs, fun _ => by rw [map, LogEvent.header]⟩
  | updateRows header i rs =>
    obtain rfl := Option.some.inj hid
    exact ⟨_, _, rs, fun _ => by rw [map, LogEvent.header]⟩
  | deleteRows header i rs =>
    obtain rfl := Option.some.inj hid
    exact ⟨_, _, rs, fun _ => by rw [map, LogEvent.header]⟩
  | _ => cases hrow

/-- Rows of a table that is not cached are refused, and nothing changes. -/
theorem map_of_not_cached {m : Mapper} {e : LogEvent} (hrow : e.isRowEvent = true) {id : Int64}
    (hid : e.tableId? = some id) (hnone : m.cache.tables.peek? id = none) :
    m.map e = (.error (.unknownTable ("table id " ++ Text.decimalInt id.toInt)), m) := by
  obtain ⟨α, make, rs, hmap⟩ := map_eq_rows hrow hid
  have hget : m.cache.get id = (none, m.cache) := by
    rw [TableCache.get, Lru.get, hnone]
  rw [hmap, rows, hget]

theorem map_of_cached {m : Mapper} {e : LogEvent} (hrow : e.isRowEvent = true) {id : Int64}
    (hid : e.tableId? = some id) {t : Table} (hsome : m.cache.tables.peek? id = some t) :
    ∃ ms, (m.map e).1 = .ok ms := by
  obtain ⟨α, make, rs, hmap⟩ := map_eq_rows hrow hid
  have hget : (m.cache.get id).1 = some t := (Lru.fst_get _ _).trans hsome
  rw [hmap, rows]
  split
  · exact ⟨_, rfl⟩
  · rename_i hc
    rw [hc] at hget
    cases hget

/-! ## Rows with the last schema -/

/-- **Rows are never decoded with a wrong schema.** Whatever happened to a mapper before, an event
with rows is refused exactly when no schema is cached under its number, and then nothing changes.
Otherwise there is one mutation for each row, in order, and each is one of the table that the events
gave the number to last. -/
theorem decodes_with_last_schema (source : DataSource) (n : Nat) (us : List Use) {e : LogEvent}
    (hrow : e.isRowEvent = true) {id : Int64} (hid : e.tableId? = some id) :
    let m := us.foldl use (new source (.ofCapacity n))
    (∀ ms, (m.map e).1 = .ok ms → ∃ (t : Table) (rs : List RowMutation),
      lastTable id (us.filterMap Use.event?) = some t ∧ ms = rs.map .row ∧
      (∀ r ∈ rs, r.IsOf t) ∧ rs.map RowMutation.detached = rowChanges source t e) ∧
    (m.cache.contains id = true → ∃ ms, (m.map e).1 = .ok ms) ∧
    (m.cache.contains id = false →
      (m.map e).1 = .error (.unknownTable ("table id " ++ Text.decimalInt id.toInt)) ∧
        (m.map e).2 = m) := by
  intro m
  have hcurrent : m.Current (us.filterMap Use.event?) := current_uses (current_new source n) us
  have hsource : m.dataSource = source := dataSource_uses _ us
  refine ⟨fun ms hok => ?_, fun hsome => ?_, fun hnone => ?_⟩
  · obtain ⟨id', t, rs, hid', ht, rfl, hrs, -⟩ := map_of_row hrow hok
    obtain rfl := Option.some.inj (hid.symm.trans hid')
    rw [hsource] at hrs
    refine ⟨t, rs, hcurrent id t ht, rfl, fun r hr => isOf_of_detached ?_, hrs⟩
    exact isOf_of_mem_rowChanges (hrs ▸ List.mem_map_of_mem hr)
  · obtain ⟨t, ht⟩ := Option.isSome_iff_exists.1 hsome
    exact map_of_cached hrow hid ht
  · rw [map_of_not_cached hrow hid (Option.not_isSome_iff_eq_none.1 (Bool.eq_false_iff.1 hnone))]
    exact ⟨rfl, rfl⟩

/-- In a cache of one schema, a number that two tables had is that of the second one, and a table
that made room for it is refused. -/
theorem decodes_with_last_schema_reused :
    let a : Table := ⟨8, "a", "shop", [], []⟩
    let b : Table := ⟨7, "b", "shop", [], []⟩
    let c : Table := ⟨7, "c", "shop", [⟨"x", .long, true, 0⟩], ["x"]⟩
    let us : List Use := [.event (.tableMap default a), .event (.tableMap default b), .reset,
      .lookUpName "shop" "a", .event (.tableMap default c)]
    let m := us.foldl use (new default (.ofCapacity 1))
    (∃ rs : List RowMutation, (m.map (.writeRows default 7 [[.null], [.long 1]])).1 =
        .ok (rs.map .row) ∧ rs.length = 2 ∧ ∀ r ∈ rs, r.IsOf c) ∧
      (m.map (.deleteRows default 8 [[.null]])).2 = m := by
  intro a b c us m
  constructor
  · obtain ⟨hread, hcached, -⟩ := decodes_with_last_schema default 1 us
      (show (LogEvent.writeRows default 7 [[.null], [.long 1]]).isRowEvent = true from rfl) rfl
    obtain ⟨ms, hms⟩ := hcached (by decide)
    obtain ⟨t, rs, ht, rfl, hof, hrs⟩ := hread ms hms
    obtain rfl : c = t := Option.some.inj ht
    exact ⟨rs, hms, by simpa [rowChanges] using congrArg List.length hrs, hof⟩
  · obtain ⟨-, -, hrefused⟩ := decodes_with_last_schema default 1 us
      (show (LogEvent.deleteRows default 8 [[.null]]).isRowEvent = true from rfl) rfl
    exact (hrefused (by decide)).2

end Mapper

end ChangeFeed
