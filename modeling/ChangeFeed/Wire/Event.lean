import ChangeFeed.LogEvent
import ChangeFeed.Wire.Position
import ChangeFeed.Wire.Schema

/-!
# JSON form of log events

An event is its kind with its fields.
-/

namespace ChangeFeed

instance : JsonForm EventHeader where
  toTree h := .ofFields
    [("offset", JsonForm.toTree h.offset), ("timestamp", JsonForm.toTree h.timestamp),
      ("server_id", JsonForm.toTree h.serverId), ("file_pos", JsonForm.toTree h.position)]
  ofTree? t := do
    let r ← Record.ofTree? ["offset", "timestamp", "server_id", "file_pos"] t
    return ⟨← r.need "offset", ← r.need "timestamp", ← r.need "server_id", ← r.need "file_pos"⟩

namespace LogEvent

/-- The tree of an event with rows. -/
def rowsTree {α : Type} [JsonForm α] (name : String) (h : EventHeader) (i : Int64) (rows : α) :
    JsonTree :=
  .ofCase name (.ofFields
    [("header", JsonForm.toTree h), ("table_id", JsonForm.toTree i),
      ("rows", JsonForm.toTree rows)])

/-- The tree of an event. -/
def toTree : LogEvent → JsonTree
  | tableMap h t => .ofCase "TableMap" (.ofFields
      [("header", JsonForm.toTree h), ("table", JsonForm.toTree t)])
  | writeRows h i rows => rowsTree "WriteRows" h i rows
  | updateRows h i rows => rowsTree "UpdateRows" h i rows
  | deleteRows h i rows => rowsTree "DeleteRows" h i rows
  | query h db sql => .ofCase "Query" (.ofFields
      [("header", JsonForm.toTree h), ("database", JsonForm.toTree db),
        ("sql", JsonForm.toTree sql)])
  | xid h n => .ofCase "Xid" (.ofFields
      [("header", JsonForm.toTree h), ("xid", JsonForm.toTree n)])
  | gtid h g => .ofCase "Gtid" (.ofFields
      [("header", JsonForm.toTree h), ("gtid", JsonForm.toTree g)])

/-- Reads an event with rows. -/
def ofRows? {α : Type} [JsonForm α] (make : EventHeader → Int64 → α → LogEvent) (t : JsonTree) :
    Option LogEvent := do
  let r ← Record.ofTree? ["header", "table_id", "rows"] t
  return make (← r.need "header") (← r.need "table_id") (← r.need "rows")

/-- Reads an event with a header and one more field. -/
def ofPair? {α : Type} [JsonForm α] (make : EventHeader → α → LogEvent) (name : String)
    (t : JsonTree) : Option LogEvent := do
  let r ← Record.ofTree? ["header", name] t
  return make (← r.need "header") (← r.need name)

/-- The event of a kind with its fields. -/
def ofCase? (name : String) (t : JsonTree) : Option LogEvent :=
  match name with
  | "TableMap" => ofPair? tableMap "table" t
  | "WriteRows" => ofRows? writeRows t
  | "UpdateRows" => ofRows? updateRows t
  | "DeleteRows" => ofRows? deleteRows t
  | "Query" => do
    let r ← Record.ofTree? ["header", "database", "sql"] t
    return query (← r.need "header") (← r.need "database") (← r.need "sql")
  | "Xid" => ofPair? xid "xid" t
  | "Gtid" => ofPair? gtid "gtid" t
  | _ => none

end LogEvent

instance : JsonForm LogEvent where
  toTree := LogEvent.toTree
  ofTree? t :=
    match t.variant? with
    | some (name, some content) => LogEvent.ofCase? name content
    | _ => none

end ChangeFeed
