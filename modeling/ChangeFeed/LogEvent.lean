import ChangeFeed.LogPosition
import ChangeFeed.Schema.Row

/-!
# Log events

The events of a replication log that matter here. A table map event gives a table its number; row
events that follow name the table by it. A transaction begins with a query event and ends with a
query event or with the event of its commit; an event before it may name its transaction id.
-/

namespace ChangeFeed

/-- What every event carries. The offset counts the events of a connection and serves as the id of
the event. -/
structure EventHeader where
  offset : Int64
  timestamp : Int64
  serverId : UInt32
  position : LogPosition
  deriving DecidableEq, Inhabited

/-- An event of the log. Rows are lists of positional values. -/
inductive LogEvent where
  | tableMap (header : EventHeader) (table : Table)
  | writeRows (header : EventHeader) (tableId : Int64) (rows : List (List Value))
  | updateRows (header : EventHeader) (tableId : Int64) (rows : List (List Value × List Value))
  | deleteRows (header : EventHeader) (tableId : Int64) (rows : List (List Value))
  | query (header : EventHeader) (database sql : String)
  | xid (header : EventHeader) (xid : UInt64)
  | gtid (header : EventHeader) (gtid : String)
  deriving DecidableEq, Inhabited

namespace LogEvent

/-- The header of an event. -/
def header : LogEvent → EventHeader
  | tableMap h _ | writeRows h _ _ | updateRows h _ _ | deleteRows h _ _ | query h _ _ | xid h _
  | gtid h _ => h

/-- The id of an event. -/
def id (e : LogEvent) : Int64 := e.header.offset

/-- The position of an event. -/
def position (e : LogEvent) : LogPosition := e.header.position

/-- The number of the table that an event is about. -/
def tableId? : LogEvent → Option Int64
  | tableMap _ t => some t.id
  | writeRows _ i _ | updateRows _ i _ | deleteRows _ i _ => some i
  | _ => none

/-- Does the event hold rows? -/
def isRowEvent : LogEvent → Bool
  | writeRows .. | updateRows .. | deleteRows .. => true
  | _ => false

/-- The name of the kind of event. -/
def typeName : LogEvent → String
  | tableMap .. => "TableMap"
  | writeRows .. => "WriteRows"
  | updateRows .. => "UpdateRows"
  | deleteRows .. => "DeleteRows"
  | query .. => "Query"
  | xid .. => "Xid"
  | gtid .. => "Gtid"

/-- Are two lists of values equal, values compared as values? -/
def sameValues (vs ws : List Value) : Bool :=
  vs.length == ws.length && (vs.zip ws).all fun p => p.1.same p.2

/-- Are two lists of rows equal, values compared as values? -/
def sameRows (rs ss : List (List Value)) : Bool :=
  rs.length == ss.length && (rs.zip ss).all fun p => sameValues p.1 p.2

/-- Are two events equal, values compared as values? -/
def same : LogEvent → LogEvent → Bool
  | writeRows h i rs, writeRows h' i' rs' => decide (h = h') && i == i' && sameRows rs rs'
  | deleteRows h i rs, deleteRows h' i' rs' => decide (h = h') && i == i' && sameRows rs rs'
  | updateRows h i rs, updateRows h' i' rs' =>
    decide (h = h') && i == i' && sameRows (rs.map (·.1)) (rs'.map (·.1)) &&
      sameRows (rs.map (·.2)) (rs'.map (·.2))
  | e, e' => decide (e = e')

end LogEvent

end ChangeFeed
