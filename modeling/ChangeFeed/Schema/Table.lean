import ChangeFeed.Data.NameMap
import ChangeFeed.Schema.ColumnType

/-!
# Tables

The schema of a table: its columns in position order and the names of the columns that make its
primary key. The number of a table can change from one connection to the next; its canonical name,
`database.table`, does not.

* `Table.ofColumns`: the flagged columns make the key, in column order;
* `Table.withKey`: the key is given in an order of its own.
-/

namespace ChangeFeed

/-- What a table says about one of its columns. -/
structure Column where
  name : String
  type : ColumnType
  isPrimaryKey : Bool
  position : Int32
  deriving DecidableEq, Repr, Inhabited

/-- The schema of a table. -/
structure Table where
  id : Int64
  name : String
  database : String
  columns : List Column
  primaryKey : List String
  deriving DecidableEq, Repr, Inhabited

namespace Table

/-- Not after, in position order. -/
def notAfter (a b : Column) : Bool := decide (a.position ≤ b.position)

/-- The columns in position order; columns of one position stay in the order they were given in. -/
def inOrder (cs : List Column) : List Column := cs.mergeSort notAfter

/-- The table with the given primary key, of which repetitions are dropped. -/
def withKey (id : Int64) (name database : String) (cs : List Column) (key : List String) : Table :=
  ⟨id, name, database, inOrder cs, key.eraseDups⟩

/-- The table whose primary key is made of the columns flagged so, in column order. -/
def ofColumns (id : Int64) (name database : String) (cs : List Column) : Table :=
  withKey id name database (inOrder cs) (((inOrder cs).filter (·.isPrimaryKey)).map (·.name))

/-- The name that a table keeps. -/
def canonicalNameOf (database name : String) : String := database ++ "." ++ name

/-- The name that a table keeps. -/
def canonicalName (t : Table) : String := canonicalNameOf t.database t.name

/-- The first column of a name. -/
def column? (t : Table) (name : String) : Option Column :=
  t.columns.find? (·.name == name)

/-- The columns by name, the last one of a name. -/
def columnMap (t : Table) : NameMap Column :=
  NameMap.ofList (t.columns.map fun c => (c.name, c))

/-- Does the table have a primary key? -/
def hasPrimaryKey (t : Table) : Bool := !t.primaryKey.isEmpty

end Table

end ChangeFeed
