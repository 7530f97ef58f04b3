import ChangeFeed.Data.Lru
import ChangeFeed.Schema.Table

/-!
# Cache of table schemas

Tables by the number that events name them by, with an index of the numbers by canonical name. A
table may come back under another number; the index follows the last one and the schema under the
former number is dropped. Both sides forget what was used least recently.
-/

namespace ChangeFeed

/-- Table schemas by number, and numbers by canonical name. -/
structure TableCache where
  tables : Lru Int64 Table
  numbers : Lru String Int64
  deriving DecidableEq, Inhabited

namespace TableCache

/-- The capacity of a cache that is asked to have none. -/
def defaultCapacity : Nat := 1000

/-- The empty cache of a capacity; zero stands for the default capacity. -/
def ofCapacity (n : Nat) : TableCache :=
  let n := if n = 0 then defaultCapacity else n
  ⟨Lru.empty n, Lru.empty n⟩

/-- The empty cache of default capacity. -/
def default : TableCache := ofCapacity defaultCapacity

/-- Caches a table under its number and its name. If its name stood for another number, the schema
under that number is dropped. -/
def register (c : TableCache) (t : Table) : TableCache :=
  let (previous, numbers) := c.numbers.put t.canonicalName t.id
  let tables :=
    match previous with
    | some old => if old = t.id then c.tables else c.tables.erase old
    | none => c.tables
  ⟨(tables.put t.id t).2, numbers⟩

/-- The table of a number. -/
def get (c : TableCache) (id : Int64) : Option Table × TableCache :=
  let (t, tables) := c.tables.get id
  (t, { c with tables })

/-- The table of a name. -/
def getByName (c : TableCache) (database name : String) : Option Table × TableCache :=
  match c.numbers.get (Table.canonicalNameOf database name) with
  | (some id, numbers) => { c with numbers }.get id
  | (none, numbers) => (none, { c with numbers })

/-- Is a table cached under the number? -/
def contains (c : TableCache) (id : Int64) : Bool := c.tables.contains id

/-- Forgets the table of a number, and its name if the name stands for this number. -/
def remove (c : TableCache) (id : Int64) : Option Table × TableCache :=
  match c.tables.peek? id with
  | none => (none, c)
  | some t =>
    let numbers :=
      if c.numbers.peek? t.canonicalName = some id then c.numbers.erase t.canonicalName
      else c.numbers
    (some t, ⟨c.tables.erase id, numbers⟩)

/-- How many tables are cached. -/
def size (c : TableCache) : Nat := c.tables.size

/-- Forgets all tables. -/
def clear (c : TableCache) : TableCache := ⟨c.tables.clear, c.numbers.clear⟩

@[simp] theorem peek?_get (c : TableCache) (id id' : Int64) :
    (c.get id).2.tables.peek? id' = c.tables.peek? id' :=
  Lru.peek?_get _ _ _

@[simp] theorem peek?_getByName (c : TableCache) (database name : String) (id : Int64) :
    (c.getByName database name).2.tables.peek? id = c.tables.peek? id := by
  unfold getByName
  split
  · exact peek?_get _ _ _
  · rfl

/-- Removing a table puts nothing else in its place. -/
theorem peek?_of_remove {c : TableCache} {u : Table} {id id' : Int64}
    (h : (c.remove id').2.tables.peek? id = some u) :
    c.tables.peek? id = some u := by
  unfold remove at h
  split at h
  · exact h
  · exact Lru.peek?_of_erase h

/-- After a table was cached its number stands for it; another number stands for what it stood for
before, or for nothing any more. -/
theorem peek?_of_register {c : TableCache} {t u : Table} {id : Int64}
    (h : (c.register t).tables.peek? id = some u) :
    id = t.id ∧ u = t ∨ id ≠ t.id ∧ c.tables.peek? id = some u := by
  by_cases hid : id = t.id
  · subst hid
    refine Or.inl ⟨rfl, ?_⟩
    unfold register at h
    exact (Option.some.inj ((Lru.peek?_put_self _ _ _).symm.trans h)).symm
  · refine Or.inr ⟨hid, ?_⟩
    have hput := Lru.peek?_of_put hid h
    split at hput
    · split at hput
      · exact hput
      · exact Lru.peek?_of_erase hput
    · exact hput

end TableCache

end ChangeFeed
