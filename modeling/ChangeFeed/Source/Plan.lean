import ChangeFeed.Data.Result
import ChangeFeed.Settings
import ChangeFeed.Source.Basic

/-!
# Building a source

What a source is built from, with a default for most of it. Settings take the place of what a plan
said before.

* `SourcePlan.withSettings`: the plan after settings;
* `SourcePlan.build`: the source, with its history from a store.
-/

namespace ChangeFeed

/-- What a source is built from. -/
structure SourcePlan where
  name : String
  dataSource : Option DataSource := none
  serverUuid : Option String := none
  tables : List String := []
  initialPosition : Option LogPosition := none
  historySize : Nat := ({} : SourceSettings).historySize
  cache : Option TableCache := none

namespace SourcePlan

/-- The plan with settings in place of what it said, but for a position that the settings leave out.
-/
def withSettings (p : SourcePlan) (c : SourceSettings) : Except Error SourcePlan := do
  let initialPosition ←
    match c.initialPosition with
    | none => pure p.initialPosition
    | some text =>
      match LogPosition.parse text with
      | .ok q => pure (some q)
      | .error f => .error f.toError
  return { p with
    name := c.name
    dataSource := some ⟨c.host, c.port, c.name⟩
    serverUuid := c.serverUuid
    historySize := c.historySize
    tables := c.tables
    initialPosition }

/-- Where to begin if nothing else is said. -/
def defaultPosition : LogPosition := .plain "mysql-bin.000001" 4 4

/-- Where the first attempt begins: the position of the plan, on the server of the plan. -/
def startPosition (p : SourcePlan) : LogPosition :=
  let q := p.initialPosition.getD defaultPosition
  match p.serverUuid with
  | some uuid => q.tagged q.gtids (some uuid)
  | none => q

/-- The source of a plan, with its history from a store. -/
def build {ι σ : Type} (p : SourcePlan) (store : Store σ) (stored : σ) :
    Except Error (Source ι σ) := do
  let history ← History.load store p.name p.historySize stored
  let mapper := Mapper.new (p.dataSource.getD ⟨"127.0.0.1", 3306, p.name⟩) (p.cache.getD .default)
  return {
    name := p.name
    tables := p.tables
    initialPosition := p.startPosition
    stored
    history
    saved := none
    failures := 0
    violations := 0
    reader := .start p.tables p.startPosition mapper
    connection := .idle
    listeners := .empty }

/-- A source that was just built has its history from the store, and does not believe anything to be
stored. -/
theorem build_eq_ok {ι σ : Type} {p : SourcePlan} {store : Store σ} {stored : σ} {s : Source ι σ}
    (h : p.build store stored = .ok s) :
    History.load store p.name p.historySize stored = .ok s.history ∧ s.stored = stored ∧
      s.initialPosition = p.startPosition ∧ s.saved = none ∧ s.connection = .idle := by
  unfold build at h
  obtain ⟨g, hg, hs⟩ := bind_eq_ok.1 h
  cases hs
  exact ⟨hg, rfl, rfl, rfl, rfl⟩

end SourcePlan

end ChangeFeed
