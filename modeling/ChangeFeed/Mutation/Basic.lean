import ChangeFeed.LogEvent

/-!
# Mutations

A mutation is the change of one row, with the table, the log position and the transaction it belongs
to, or a raw change without any of these.

* `Mutation.id`, `kind`: what every mutation has;
* `RowChange.images`, `RowMutation.row`, `previous?`, `changed?`: the images of a row change;
* `Mutation.key`: the text by which mutations of one row are kept in order.
-/

namespace ChangeFeed

/-- What a mutation does. -/
inductive MutationKind where
  | invalid
  | insert
  | update
  | delete
  deriving DecidableEq, Repr, Inhabited

namespace MutationKind

/-- The code of a kind. -/
def code : MutationKind → UInt8
  | invalid => 0
  | insert => 1
  | update => 2
  | delete => 3

/-- The kind of a code; unknown codes are invalid. -/
def ofCode (c : UInt8) : MutationKind :=
  if c = 1 then insert else if c = 2 then update else if c = 3 then delete else invalid

/-- The name of a kind. -/
def name : MutationKind → String
  | invalid => "Invalid"
  | insert => "Insert"
  | update => "Update"
  | delete => "Delete"

/-- The kind of a name. -/
def ofName? (s : String) : Option MutationKind :=
  [invalid, insert, update, delete].find? (·.name == s)

end MutationKind

/-- The id of a mutation and the time of its change in milliseconds. -/
structure Stamp where
  id : Int64
  timestamp : Int64
  deriving DecidableEq, Repr, Inhabited

/-- Where mutations are read from. -/
structure DataSource where
  host : String
  port : UInt16
  service : String
  deriving DecidableEq, Repr, Inhabited

/-- The transaction of a row change, as it began. -/
structure Transaction where
  timestamp : Int64
  offset : Int64
  position : LogPosition
  gtid : Option String
  deriving DecidableEq, Inhabited

/-- What a row change carries besides its images. -/
structure RowContext where
  stamp : Stamp
  dataSource : DataSource
  position : LogPosition
  table : Table
  serverId : UInt32
  transaction : Option Transaction
  /-- The place of the row within its event. -/
  rowPosition : Int32
  deriving DecidableEq, Inhabited

/-- The images of a row before and after its change. -/
inductive RowChange where
  | insert (row : Row)
  | update (previous row : Row) (changed : NameSet)
  | delete (row : Row)
  deriving DecidableEq, Inhabited

/-- The images of a row that a change holds, in the order in which they came to be. -/
def RowChange.images : RowChange → List Row
  | .insert r => [r]
  | .update p r _ => [p, r]
  | .delete r => [r]

/-- The change of one row. -/
structure RowMutation where
  context : RowContext
  change : RowChange
  deriving DecidableEq, Inhabited

/-- A change without table and row. -/
structure RawMutation where
  stamp : Stamp
  kind : MutationKind
  payload : List UInt8
  deriving DecidableEq, Repr, Inhabited

/-- A change on its way from a source to a destination. -/
inductive Mutation where
  | row (m : RowMutation)
  | raw (m : RawMutation)
  deriving DecidableEq, Inhabited

namespace RowMutation

/-- A new row. -/
def insert (c : RowContext) (row : Row) : RowMutation := ⟨c, .insert row⟩

/-- A changed row; the changed columns are found by comparing the images. -/
def update (c : RowContext) (previous row : Row) : RowMutation :=
  ⟨c, .update previous row (previous.changedColumns row)⟩

/-- A deleted row. -/
def delete (c : RowContext) (row : Row) : RowMutation := ⟨c, .delete row⟩

/-- What the change does. -/
def kind (m : RowMutation) : MutationKind :=
  match m.change with
  | .insert _ => .insert
  | .update .. => .update
  | .delete _ => .delete

/-- The image after the change, or the deleted row. -/
def row (m : RowMutation) : Row :=
  match m.change with
  | .insert r | .update _ r _ | .delete r => r

/-- The image before an update. -/
def previous? (m : RowMutation) : Option Row :=
  match m.change with
  | .update p _ _ => some p
  | _ => none

/-- The changed columns of an update. -/
def changed? (m : RowMutation) : Option NameSet :=
  match m.change with
  | .update _ _ c => some c
  | _ => none

/-- The key of a row: database, table and primary key. Rows of a table without primary key share one
key. -/
def key (m : RowMutation) : String :=
  let t := m.context.table
  t.database ++ ":" ++ t.name ++ ":" ++ m.row.keyText?.getD "null"

end RowMutation

namespace Mutation

/-- The id and time of a mutation. -/
def stamp : Mutation → Stamp
  | row m => m.context.stamp
  | raw m => m.stamp

/-- The id of a mutation. -/
def id (m : Mutation) : Int64 := m.stamp.id

/-- What a mutation does. -/
def kind : Mutation → MutationKind
  | row m => m.kind
  | raw m => m.kind

/-- The change to a row, if the mutation is one. -/
def row? : Mutation → Option RowMutation
  | row m => some m
  | raw _ => none

/-- The key by which mutations are kept in order; a raw mutation has none. -/
def key : Mutation → Except Error String
  | row m => .ok m.key
  | raw m => .error (.illegalState
      ("no table context to build a key for mutation " ++ Text.decimalInt m.stamp.id.toInt))

end Mutation

/-! ## Equality of values -/

namespace RowChange

/-- Are two changes equal, values compared as values? -/
def same : RowChange → RowChange → Bool
  | insert a, insert b => a.same b
  | delete a, delete b => a.same b
  | update p r c, update p' r' c' => p.same p' && r.same r' && decide (c = c')
  | _, _ => false

end RowChange

namespace Mutation

/-- Are two mutations equal, values compared as values? -/
def same : Mutation → Mutation → Bool
  | row a, row b => decide (a.context = b.context) && a.change.same b.change
  | raw a, raw b => decide (a = b)
  | _, _ => false

end Mutation

end ChangeFeed
