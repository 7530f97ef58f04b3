import ChangeFeed.Mutation.Basic
import ChangeFeed.TableCache

/-!
# From events to mutations

Table map events fill the cache of schemas, row events become one mutation for each row, and the
events around them say which transaction a row belongs to.

**State.** `Mapper`: the cached schemas, the transaction that is open, and a transaction id that was
announced and not yet taken by a transaction.

**Operations.** `map`, the mutations of one event; `reset`, for a new connection.
-/

namespace ChangeFeed

/-- What is remembered from one event to the next. -/
structure Mapper where
  dataSource : DataSource
  cache : TableCache
  announced : Option String
  transaction : Option Transaction
  deriving DecidableEq, Inhabited

namespace Mapper

/-- The mapper that has seen no event. -/
def new (source : DataSource) (cache : TableCache) : Mapper := ⟨source, cache, none, none⟩

/-- Forgets the transaction; the schemas stay. -/
def reset (m : Mapper) : Mapper := { m with announced := none, transaction := none }

/-- Is the statement this word, in any ASCII case and with white space around it? -/
def isStatement (word : String) (sql : String) : Bool :=
  (Text.trimChars sql.toList).map Char.toLower == word.toList.map Char.toLower

/-- A query begins a transaction, commits it or does not matter. -/
def query (m : Mapper) (h : EventHeader) (sql : String) : Mapper :=
  if isStatement "BEGIN" sql then
    { m with
      announced := none
      transaction := some ⟨h.timestamp, h.offset, h.position, m.announced⟩ }
  else if isStatement "COMMIT" sql then { m with transaction := none }
  else m

/-- What the row at a place of an event carries besides its images. -/
def context (m : Mapper) (h : EventHeader) (t : Table) (i : Nat) : RowContext :=
  { stamp := ⟨h.offset, h.timestamp⟩
    dataSource := m.dataSource
    position := h.position
    table := t
    serverId := h.serverId
    transaction := m.transaction
    rowPosition := Int32.ofNat i }

/-- The mutations of the rows of one event, given how one row becomes a mutation of a table. -/
def rows {α : Type} (m : Mapper) (h : EventHeader) (id : Int64)
    (make : Table → RowContext → α → RowMutation) (rs : List α) :
    Except Error (List Mutation) × Mapper :=
  match m.cache.get id with
  | (some t, cache) =>
    let ms := rs.zipIdx.map fun (r, i) => Mutation.row (make t (m.context h t i) r)
    (.ok ms, { m with cache })
  | (none, cache) =>
    (.error (.unknownTable ("table id " ++ Text.decimalInt id.toInt)), { m with cache })

/-- The mutations of an event. Rows of a table that is not cached are a failure. -/
def map (m : Mapper) : LogEvent → Except Error (List Mutation) × Mapper
  | .tableMap _ t => (.ok [], { m with cache := m.cache.register t })
  | .gtid _ g => (.ok [], { m with announced := some g })
  | .query h _ sql => (.ok [], m.query h sql)
  | .xid _ _ => (.ok [], { m with transaction := none })
  | .writeRows h id rs =>
    m.rows h id (fun t c values => .insert c (Row.ofValues t values)) rs
  | .updateRows h id rs =>
    m.rows h id
      (fun t c images => .update c (Row.ofValues t images.1) (Row.ofValues t images.2)) rs
  | .deleteRows h id rs =>
    m.rows h id (fun t c values => .delete c (Row.ofValues t values)) rs

end Mapper

end ChangeFeed
