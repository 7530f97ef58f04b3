import ChangeFeed.Json.Form
import ChangeFeed.Schema.Row

/-!
# JSON forms of tables, values and rows

A column type is its name. A value is its kind with its content, null being a kind without content.
Tables, columns, cells and rows are objects of their fields. A set of names is the list of them,
read in any order and with repetitions.
-/

namespace ChangeFeed

instance : JsonForm ColumnType where
  toTree t := .ofString t.name
  ofTree? t := t.plainCase?.bind ColumnType.ofName?

namespace Value

/-- The tree of a value. -/
def toTree : Value → JsonTree
  | null => .ofString "Null"
  | boolean b => .ofCase "Boolean" (JsonForm.toTree b)
  | byte n => .ofCase "Byte" (JsonForm.toTree n)
  | short n => .ofCase "Short" (JsonForm.toTree n)
  | int n => .ofCase "Int" (JsonForm.toTree n)
  | long n => .ofCase "Long" (JsonForm.toTree n)
  | unsignedLong n => .ofCase "UnsignedLong" (JsonForm.toTree n)
  | string s => .ofCase "String" (JsonForm.toTree s)
  | json s => .ofCase "JSON" (JsonForm.toTree s)
  | float a => .ofCase "Float" (JsonForm.toTree a)
  | double a => .ofCase "Double" (JsonForm.toTree a)
  | decimal s => .ofCase "Decimal" (JsonForm.toTree s)
  | date n => .ofCase "Date" (JsonForm.toTree n)
  | time n => .ofCase "Time" (JsonForm.toTree n)
  | dateTime n => .ofCase "DateTime" (JsonForm.toTree n)
  | timestamp n => .ofCase "Timestamp" (JsonForm.toTree n)
  | binary bytes => .ofCase "Binary" (JsonForm.toTree bytes)
  | blob bytes => .ofCase "Blob" (JsonForm.toTree bytes)

/-- The value of a kind with content. -/
def ofCase? (name : String) (t : JsonTree) : Option Value :=
  match name with
  | "Null" => match t with
    | .null => some null
    | _ => none
  | "Boolean" => (JsonForm.ofTree? t).map boolean
  | "Byte" => (JsonForm.ofTree? t).map byte
  | "Short" => (JsonForm.ofTree? t).map short
  | "Int" => (JsonForm.ofTree? t).map int
  | "Long" => (JsonForm.ofTree? t).map long
  | "UnsignedLong" => (JsonForm.ofTree? t).map unsignedLong
  | "String" => (JsonForm.ofTree? t).map string
  | "JSON" => (JsonForm.ofTree? t).map json
  | "Float" => (JsonForm.ofTree? t).map float
  | "Double" => (JsonForm.ofTree? t).map double
  | "Decimal" => (JsonForm.ofTree? t).map decimal
  | "Date" => (JsonForm.ofTree? t).map date
  | "Time" => (JsonForm.ofTree? t).map time
  | "DateTime" => (JsonForm.ofTree? t).map dateTime
  | "Timestamp" => (JsonForm.ofTree? t).map timestamp
  | "Binary" => (JsonForm.ofTree? t).map binary
  | "Blob" => (JsonForm.ofTree? t).map blob
  | _ => none

/-- The value of a tree. -/
def ofTree? (t : JsonTree) : Option Value :=
  match t.variant? with
  | some (name, some content) => ofCase? name content
  | some ("Null", none) => some null
  | _ => none

end Value

instance : JsonForm Value where
  toTree := Value.toTree
  ofTree? := Value.ofTree?

instance : JsonForm Column where
  toTree c := .ofFields
    [("name", JsonForm.toTree c.name), ("data_type", JsonForm.toTree c.type),
      ("is_primary_key", JsonForm.toTree c.isPrimaryKey), ("position", JsonForm.toTree c.position)]
  ofTree? t := do
    let r ← Record.ofTree? ["name", "data_type", "is_primary_key", "position"] t
    return ⟨← r.need "name", ← r.need "data_type", ← r.need "is_primary_key", ← r.need "position"⟩

instance : JsonForm Table where
  toTree a := .ofFields
    [("id", JsonForm.toTree a.id), ("name", JsonForm.toTree a.name),
      ("database", JsonForm.toTree a.database), ("columns", JsonForm.toTree a.columns),
      ("primary_key_column_names", JsonForm.toTree a.primaryKey)]
  ofTree? t := do
    let r ← Record.ofTree? ["id", "name", "database", "columns", "primary_key_column_names"] t
    return ⟨← r.need "id", ← r.need "name", ← r.need "database", ← r.need "columns",
      ← r.need "primary_key_column_names"⟩

instance : JsonForm Cell where
  toTree c := .ofFields
    [("metadata", JsonForm.toTree c.column), ("value", JsonForm.toTree c.value)]
  ofTree? t := do
    let r ← Record.ofTree? ["metadata", "value"] t
    return ⟨← r.need "metadata", ← r.need "value"⟩

instance : JsonForm Row where
  toTree a := .ofFields
    [("table", JsonForm.toTree a.table), ("columns", JsonForm.toTree a.cells)]
  ofTree? t := do
    let r ← Record.ofTree? ["table", "columns"] t
    return ⟨← r.need "table", ← r.need "columns"⟩

instance : JsonForm NameSet where
  toTree s := JsonForm.toTree s.names
  ofTree? t := do
    let names : List String ← JsonForm.ofTree? t
    return NameSet.ofNames names

end ChangeFeed
