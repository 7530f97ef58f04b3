import ChangeFeed.LogEvent

/-!
# Which events a source looks at

Two filters, the first of them in front.

* `TableFilter`: table maps and row events of the tables that are followed. Row events name a table
  by number, so the filter remembers the numbers that table maps gave to followed tables.
* `DuplicateFilter`: row events that are not behind the position the source resumed from.
-/

namespace ChangeFeed

/-- The tables to follow, all if there is none, and the numbers they have. -/
structure TableFilter where
  tables : List String
  ids : List Int64
  deriving DecidableEq, Repr, Inhabited

namespace TableFilter

/-- The filter of table names, before any table map. -/
def ofNames (names : List String) : TableFilter := ⟨names.map Text.trim, []⟩

/-- Does the filter let an event through? -/
def passes (f : TableFilter) (e : LogEvent) : Bool :=
  f.tables.isEmpty ||
    match e with
    | .tableMap _ t => f.tables.contains t.canonicalName
    | .writeRows _ id _ | .updateRows _ id _ | .deleteRows _ id _ => f.ids.contains id
    | _ => true

/-- The filter after an event: a table map gives a number to a followed table or takes it away. -/
def after (f : TableFilter) (e : LogEvent) : TableFilter :=
  match e with
  | .tableMap _ t =>
    if f.tables.isEmpty then f
    else
      let others := f.ids.filter (· ≠ t.id)
      { f with ids := if f.tables.contains t.canonicalName then t.id :: others else others }
  | _ => f

end TableFilter

/-- The position that a source resumed from. -/
structure DuplicateFilter where
  resumedFrom : LogPosition
  deriving DecidableEq, Inhabited

namespace DuplicateFilter

/-- Does the filter let an event through? Positions are compared only if they name the same server
or none. -/
def passes (f : DuplicateFilter) (e : LogEvent) : Bool :=
  !e.isRowEvent || e.position.server != f.resumedFrom.server ||
    e.position.compareTo f.resumedFrom != .lt

theorem passes_eq_false_iff {f : DuplicateFilter} {e : LogEvent} :
    f.passes e = false ↔ e.isRowEvent = true ∧ e.position.server = f.resumedFrom.server ∧
      e.position.compareTo f.resumedFrom = .lt := by
  simp [passes, and_assoc]

end DuplicateFilter

end ChangeFeed
