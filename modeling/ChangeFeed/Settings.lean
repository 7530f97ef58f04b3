import ChangeFeed.Error
import ChangeFeed.Text.Ascii
import ChangeFeed.Toml.Reader

/-!
# Settings

The settings of a pipe in four sections, with a default for each, and how they are read from a TOML
document. Sections and fields that are not known do not matter.
-/

namespace ChangeFeed

/-- What to read and where to begin. -/
structure SourceSettings where
  name : String := "default"
  host : String := "127.0.0.1"
  port : UInt16 := 3306
  serverUuid : Option String := none
  historySize : Nat := 50
  initialPosition : Option String := none
  /-- The tables to follow, as `database.table`; none means all. -/
  tables : List String := []
  deriving DecidableEq, Repr, Inhabited

/-- How to publish. -/
structure DestinationSettings where
  poolSize : Nat := 4
  bufferSize : Nat := 1000
  batchSize : Nat := 100
  deriving DecidableEq, Repr, Inhabited

/-- The settings of a pipe. -/
structure Settings where
  source : SourceSettings := {}
  destination : DestinationSettings := {}
  /-- The time between checkpoints in milliseconds. -/
  checkpointPeriod : Option Nat := none
  cacheCapacity : Nat := 1000
  deriving DecidableEq, Repr, Inhabited

namespace Toml

/-- The text of a value. -/
def asText? : Toml → Option String
  | .text s => some s
  | _ => none

/-- The natural number of a value, if it is one up to `limit`. -/
def asNatural? (limit : Nat) : Toml → Option Nat
  | .whole n => if 0 ≤ n ∧ n.toNat ≤ limit then some n.toNat else none
  | _ => none

/-- The texts of a list. -/
def asTexts? : Toml → Option (List String)
  | .list items => items.mapM asText?
  | _ => none

/-- The members of a section, known by name or, in a list, by the order of `names`. -/
def asSection? (names : List String) : Toml → Option Members
  | .table _ ms => some ms
  | .list items => some (names.zip items)
  | .rows tables => some (names.zip (tables.map (.table .headed)))
  | .moment _ => some []
  | _ => none

end Toml

/-- A member with a value of its own where it is missing. -/
def Members.getOr {α : Type} (ms : Members) (name : String) (read : Toml → Option α) (default : α) :
    Option α :=
  match ms.lookup name with
  | some t => read t
  | none => some default

/-- A member that may be missing. -/
def Members.maybe {α : Type} (ms : Members) (name : String) (read : Toml → Option α) :
    Option (Option α) :=
  ms.getOr name (fun t => (read t).map some) none

/-- The largest length or count. -/
def largestCount : Nat := UInt64.size - 1

namespace SourceSettings

/-- The names of the fields. -/
def fields : List String :=
  ["name", "host", "port", "server_uuid", "state_history_size", "initial_position", "tables"]

/-- The settings of a section. -/
def ofToml? (t : Toml) : Option SourceSettings := do
  let ms ← t.asSection? fields
  let d : SourceSettings := {}
  let name ← ms.getOr "name" Toml.asText? d.name
  let host ← ms.getOr "host" Toml.asText? d.host
  let port ← ms.getOr "port" (Toml.asNatural? (UInt16.size - 1)) d.port.toNat
  let serverUuid ← ms.maybe "server_uuid" Toml.asText?
  let historySize ← ms.getOr "state_history_size" (Toml.asNatural? largestCount) d.historySize
  let initialPosition ← ms.maybe "initial_position" Toml.asText?
  let tables ← ms.getOr "tables" Toml.asTexts? d.tables
  return { name, host, port := UInt16.ofNat port, serverUuid, historySize, initialPosition, tables }

end SourceSettings

namespace DestinationSettings

/-- The names of the fields. -/
def fields : List String := ["pool_size", "buffer_size", "max_batch_size"]

/-- The settings of a section. -/
def ofToml? (t : Toml) : Option DestinationSettings := do
  let ms ← t.asSection? fields
  let d : DestinationSettings := {}
  let poolSize ← ms.getOr "pool_size" (Toml.asNatural? largestCount) d.poolSize
  let bufferSize ← ms.getOr "buffer_size" (Toml.asNatural? largestCount) d.bufferSize
  let batchSize ← ms.getOr "max_batch_size" (Toml.asNatural? largestCount) d.batchSize
  return { poolSize, bufferSize, batchSize }

end DestinationSettings

namespace Settings

/-- The checkpoint period of a section. -/
def periodOfToml? (t : Toml) : Option (Option Nat) := do
  let ms ← t.asSection? ["checkpoint_period_ms"]
  ms.maybe "checkpoint_period_ms" (Toml.asNatural? largestCount)

/-- The capacity of a section. -/
def capacityOfToml? (t : Toml) : Option Nat := do
  let ms ← t.asSection? ["capacity"]
  ms.getOr "capacity" (Toml.asNatural? largestCount) ({} : Settings).cacheCapacity

/-- The settings of the members of a document. -/
def ofMembers? (ms : Members) : Option Settings := do
  let d : Settings := {}
  let source ← ms.getOr "source" SourceSettings.ofToml? d.source
  let destination ← ms.getOr "destination" DestinationSettings.ofToml? d.destination
  let checkpointPeriod ← ms.getOr "pipe" periodOfToml? d.checkpointPeriod
  let cacheCapacity ← ms.getOr "table_cache" capacityOfToml? d.cacheCapacity
  return { source, destination, checkpointPeriod, cacheCapacity }

/-- Reads settings from a text. -/
def parse (text : String) : Except Error Settings :=
  match Toml.read? text with
  | none => .error (.settings "not a document")
  | some ms =>
    match ofMembers? ms with
    | none => .error (.settings "a field has another form")
    | some s => .ok s

/-- Reads settings from the bytes of a file, if there is one. -/
def ofFile : Option (List UInt8) → Except Error Settings
  | none => .error (.io "no such file")
  | some bytes =>
    match ofUtf8? bytes with
    | none => .error (.io "not a text")
    | some text => parse text

end Settings

end ChangeFeed
