import ChangeFeed.Mutation.Basic

/-!
# Validation

Two checks that report and never hold anything up.

* `OrderCheck`: ids should not decrease. An id is compared with the one before it, whether that one
  was reported or not.
* `Mutation.conforms`: the images of a row should have the columns that the table says.
-/

namespace ChangeFeed

/-- The check that ids do not decrease: the id that came last. -/
structure OrderCheck where
  last : Int64
  deriving DecidableEq, Repr

namespace OrderCheck

/-- The check before the first id. -/
def start : OrderCheck := ⟨-1⟩

instance : Inhabited OrderCheck := ⟨start⟩

/-- Is the id below the one before it? -/
def reports (c : OrderCheck) (id : Int64) : Bool := decide (id < c.last)

/-- The check after an id. -/
def after (_ : OrderCheck) (id : Int64) : OrderCheck := ⟨id⟩

end OrderCheck

/-- Do the columns of an image agree with those of a table? -/
def Row.conformsTo (r : Row) (t : Table) : Bool := decide (r.columnMap = t.columnMap)

/-- Do the images of a row change have the columns of the table that it names? -/
def RowMutation.conforms (m : RowMutation) : Bool :=
  m.row.conformsTo m.context.table &&
    match m.previous? with
    | some p => p.conformsTo m.context.table
    | none => true

/-- Does a mutation agree with its schema? A raw mutation has none. -/
def Mutation.conforms : Mutation → Bool
  | .row m => m.conforms
  | .raw _ => true

end ChangeFeed
