import ChangeFeed.Mutation.Basic
import ChangeFeed.Wire.Position
import ChangeFeed.Wire.Schema

/-!
# JSON form of mutations

A mutation is its kind, row change or raw, with its fields.
-/

namespace ChangeFeed

instance : JsonForm MutationKind where
  toTree k := .ofString k.name
  ofTree? t := t.plainCase?.bind MutationKind.ofName?

instance : JsonForm Stamp where
  toTree s := .ofFields [("id", JsonForm.toTree s.id), ("timestamp", JsonForm.toTree s.timestamp)]
  ofTree? t := do
    let r ← Record.ofTree? ["id", "timestamp"] t
    return ⟨← r.need "id", ← r.need "timestamp"⟩

instance : JsonForm DataSource where
  toTree s := .ofFields
    [("host", JsonForm.toTree s.host), ("port", JsonForm.toTree s.port),
      ("service", JsonForm.toTree s.service)]
  ofTree? t := do
    let r ← Record.ofTree? ["host", "port", "service"] t
    return ⟨← r.need "host", ← r.need "port", ← r.need "service"⟩

instance : JsonForm Transaction where
  toTree x := .ofFields
    [("timestamp", JsonForm.toTree x.timestamp), ("offset", JsonForm.toTree x.offset),
      ("position", JsonForm.toTree x.position), ("gtid", JsonForm.toTree x.gtid)]
  ofTree? t := do
    let r ← Record.ofTree? ["timestamp", "offset", "position", "gtid"] t
    return ⟨← r.need "timestamp", ← r.need "offset", ← r.need "position", ← r.maybe "gtid"⟩

instance : JsonForm RowContext where
  toTree c := .ofFields
    [("metadata", JsonForm.toTree c.stamp), ("data_source", JsonForm.toTree c.dataSource),
      ("file_pos", JsonForm.toTree c.position), ("table", JsonForm.toTree c.table),
      ("server_id", JsonForm.toTree c.serverId), ("transaction", JsonForm.toTree c.transaction),
      ("event_row_position", JsonForm.toTree c.rowPosition)]
  ofTree? t := do
    let r ← Record.ofTree? ["metadata", "data_source", "file_pos", "table", "server_id",
      "transaction", "event_row_position"] t
    return {
      stamp := ← r.need "metadata"
      dataSource := ← r.need "data_source"
      position := ← r.need "file_pos"
      table := ← r.need "table"
      serverId := ← r.need "server_id"
      transaction := ← r.maybe "transaction"
      rowPosition := ← r.need "event_row_position" }

instance : JsonForm RowChange where
  toTree
    | .insert r => .ofCase "Insert" (JsonForm.toTree r)
    | .update p r c => .ofCase "Update" (.ofFields
        [("previous", JsonForm.toTree p), ("row", JsonForm.toTree r),
          ("updated_columns", JsonForm.toTree c)])
    | .delete r => .ofCase "Delete" (JsonForm.toTree r)
  ofTree? t :=
    match t.variant? with
    | some ("Insert", some t) => (JsonForm.ofTree? t).map .insert
    | some ("Update", some t) => do
      let r ← Record.ofTree? ["previous", "row", "updated_columns"] t
      return .update (← r.need "previous") (← r.need "row") (← r.need "updated_columns")
    | some ("Delete", some t) => (JsonForm.ofTree? t).map .delete
    | _ => none

instance : JsonForm RowMutation where
  toTree m := .ofFields
    [("metadata", JsonForm.toTree m.context), ("change", JsonForm.toTree m.change)]
  ofTree? t := do
    let r ← Record.ofTree? ["metadata", "change"] t
    return ⟨← r.need "metadata", ← r.need "change"⟩

instance : JsonForm RawMutation where
  toTree m := .ofFields
    [("metadata", JsonForm.toTree m.stamp), ("mutation_type", JsonForm.toTree m.kind),
      ("payload", JsonForm.toTree m.payload)]
  ofTree? t := do
    let r ← Record.ofTree? ["metadata", "mutation_type", "payload"] t
    return ⟨← r.need "metadata", ← r.need "mutation_type", ← r.need "payload"⟩

instance : JsonForm Mutation where
  toTree
    | .row m => .ofCase "Mysql" (JsonForm.toTree m)
    | .raw m => .ofCase "Raw" (JsonForm.toTree m)
  ofTree? t :=
    match t.variant? with
    | some ("Mysql", some t) => (JsonForm.ofTree? t).map .row
    | some ("Raw", some t) => (JsonForm.ofTree? t).map .raw
    | _ => none

end ChangeFeed
