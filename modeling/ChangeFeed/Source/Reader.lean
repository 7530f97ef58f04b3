import ChangeFeed.Mutation.Mapper
import ChangeFeed.Mutation.Validation
import ChangeFeed.Source.Filter

/-!
# From the log to mutations

What one attempt of a source makes of the events it reads: the filters decide which of them count,
those that count are checked for order and mapped, and their mutations are checked for order and
schema. Checks only count.

**State.** `Reader`: filters, checks and mapper.

**Operations.** `read`, what becomes of one event; `readAll`, of a list of them, up to the first
failure.
-/

namespace ChangeFeed

/-- What an attempt knows. -/
structure Reader where
  tables : TableFilter
  duplicates : DuplicateFilter
  eventOrder : OrderCheck
  mutationOrder : OrderCheck
  mapper : Mapper
  deriving Inhabited

/-- What becomes of an event. -/
structure Reading where
  /-- The event, if the filters let it through. -/
  event : Option LogEvent
  /-- How often a check complained. -/
  violations : Nat
  mutations : Except Error (List Mutation)

namespace Reader

/-- An attempt that resumes from a position and goes on with the schemas of a mapper. -/
def start (tables : List String) (resumedFrom : LogPosition) (mapper : Mapper) : Reader :=
  ⟨.ofNames tables, ⟨resumedFrom⟩, .start, .start, mapper.reset⟩

/-- How often the checks complain about mutations, and the order check after them. -/
def checkMutations (c : OrderCheck) : List Mutation → Nat × OrderCheck
  | [] => (0, c)
  | m :: ms =>
    let r := checkMutations (c.after m.id) ms
    ((if c.reports m.id then 1 else 0) + (if m.conforms then 0 else 1) + r.1, r.2)

/-- What becomes of an event that the filters let through. -/
def take (r : Reader) (e : LogEvent) : Reading × Reader :=
  let late := if r.eventOrder.reports e.id then 1 else 0
  let r := { r with eventOrder := r.eventOrder.after e.id }
  match r.mapper.map e with
  | (.error f, mapper) => (⟨some e, late, .error f⟩, { r with mapper })
  | (.ok ms, mapper) =>
    let (violations, mutationOrder) := checkMutations r.mutationOrder ms
    (⟨some e, late + violations, .ok ms⟩, { r with mapper, mutationOrder })

/-- What becomes of an event. The filter of tables sees every event, the other one those that the
first lets through. -/
def read (r : Reader) (e : LogEvent) : Reading × Reader :=
  let passes := r.tables.passes e && r.duplicates.passes e
  let r := { r with tables := r.tables.after e }
  if passes then r.take e else (⟨none, 0, .ok []⟩, r)

/-- What becomes of events, up to the first failure. -/
def readAll (r : Reader) : List LogEvent → List Reading × Reader
  | [] => ([], r)
  | e :: es =>
    match r.read e with
    | (g, r) =>
      match g.mutations with
      | .error _ => ([g], r)
      | .ok _ =>
        let rest := readAll r es
        (g :: rest.1, rest.2)

end Reader

end ChangeFeed
