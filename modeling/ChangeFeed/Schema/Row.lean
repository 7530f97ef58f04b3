import ChangeFeed.Schema.Table
import ChangeFeed.Schema.Value

/-!
# Rows

One image of a row: its values under the names of their columns.

* `Row.ofCells`, `Row.ofValues`: a row of cells, or of positional values;
* `Row.keyText?`: the text of the primary key;
* `Row.changedColumns`: the names under which two images differ;
* `Row.same`: are two images equal?
-/

namespace ChangeFeed

/-- A value together with the column it belongs to. -/
structure Cell where
  column : Column
  value : Value
  deriving DecidableEq, Repr, Inhabited

/-- Are two cells equal, values compared as values? -/
def Cell.same (a b : Cell) : Bool := decide (a.column = b.column) && a.value.same b.value

/-- One image of a row. -/
structure Row where
  table : Table
  cells : NameMap Cell
  deriving DecidableEq, Inhabited

/-- A set of names. -/
abbrev NameSet := NameMap Unit

/-- The set of the given names. -/
def NameSet.ofNames (names : List String) : NameSet :=
  NameMap.ofList (names.map fun n => (n, ()))

namespace Row

/-- The row of the given cells; the last one of a name counts. -/
def ofCells (t : Table) (cs : List Cell) : Row :=
  ⟨t, NameMap.ofList (cs.map fun c => (c.column.name, c))⟩

/-- Pairs values with the columns of the table in order. Values too many are dropped, and columns
without a value are left out. -/
def ofValues (t : Table) (vs : List Value) : Row :=
  ofCells t ((t.columns.zip vs).map fun p => ⟨p.1, p.2⟩)

/-- The cell of a name. -/
def cell? (r : Row) (name : String) : Option Cell := r.cells.get? name

/-- The value of a name. -/
def value? (r : Row) (name : String) : Option Value := (r.cell? name).map (·.value)

/-- The columns of the cells by name. -/
def columnMap (r : Row) : NameMap Column := r.cells.map (·.column)

/-- The texts of the primary key's values one after the other; none if the table has no primary
key. A key column without a value counts as null. -/
def keyText? (r : Row) : Option String :=
  if r.table.primaryKey.isEmpty then none
  else some (String.join (r.table.primaryKey.map fun n => ((r.value? n).getD .null).display))

/-- Are two rows equal, values compared as values? -/
def same (a b : Row) : Bool :=
  decide (a.table = b.table) &&
    a.cells.entries.length == b.cells.entries.length &&
    (a.cells.entries.zip b.cells.entries).all fun p => p.1.1 == p.2.1 && p.1.2.same p.2.2

/-- Does the value under a name of the first row differ in the second, or is it missing there? -/
def differsFrom (e : String × Cell) (b : Row) : Bool :=
  match b.cell? e.1 with
  | some c => !c.value.same e.2.value
  | none => true

/-- The names that only one of the rows has, and those under which the values differ. -/
def changedColumns (a b : Row) : NameSet :=
  NameSet.ofNames
    ((a.cells.entries.filter fun e => differsFrom e b).map (·.1) ++
      (b.cells.entries.filter fun e => (a.cell? e.1).isNone).map (·.1))

end Row

end ChangeFeed
