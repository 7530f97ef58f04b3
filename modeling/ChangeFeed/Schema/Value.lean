import ChangeFeed.Number.Binary
import ChangeFeed.Text.Hex

/-!
# Column values

The value of one column of one row.

* `Value.display`: the text of a value, of which keys are made;
* `Value.same`: are two values equal? Values of different kinds never are, bytes are compared by
  content, and a not-a-number differs from itself;
* `Value.isExact`: is the value no floating-point number? Exact values are the same only if they are
  equal.
-/

namespace ChangeFeed

/-- The value of a column. Dates and times are milliseconds. -/
inductive Value where
  | null
  | boolean (b : Bool)
  | byte (n : Int8)
  | short (n : Int16)
  | int (n : Int32)
  | long (n : Int64)
  | unsignedLong (n : UInt64)
  | string (s : String)
  | json (s : String)
  | float (a : Binary32)
  | double (a : Binary64)
  | decimal (s : String)
  | date (n : Int64)
  | time (n : Int64)
  | dateTime (n : Int64)
  | timestamp (n : Int64)
  | binary (bytes : List UInt8)
  | blob (bytes : List UInt8)
  deriving DecidableEq, Repr, Inhabited

namespace Value

/-- Is there no value? -/
def isNull : Value → Bool
  | null => true
  | _ => false

/-- Is the value no floating-point number? -/
def isExact : Value → Bool
  | float _ | double _ => false
  | _ => true

/-- The text of a value. Bytes are written in hexadecimal. -/
def display : Value → String
  | null => "null"
  | boolean b => if b then "true" else "false"
  | byte n => Text.decimalInt n.toInt
  | short n => Text.decimalInt n.toInt
  | int n => Text.decimalInt n.toInt
  | long n => Text.decimalInt n.toInt
  | unsignedLong n => Text.decimal n.toNat
  | string s => s
  | json s => s
  | decimal s => s
  | float a => a.display
  | double a => a.display
  | date n => Text.decimalInt n.toInt
  | time n => Text.decimalInt n.toInt
  | dateTime n => Text.decimalInt n.toInt
  | timestamp n => Text.decimalInt n.toInt
  | binary bytes => Text.hex bytes
  | blob bytes => Text.hex bytes

/-- Are two values equal, numbers as numbers? -/
def same : Value → Value → Bool
  | float a, float b => a.same b
  | double a, double b => a.same b
  | v, w => decide (v = w)

theorem same_iff {v w : Value} (h : v.isExact = true) : v.same w = true ↔ v = w := by
  cases v <;> first | (simp [isExact] at h; done) | (cases w <;> simp [same])

end Value

/-- Types whose values can stand in a column. -/
class ColumnValue (α : Type) where
  /-- The column value of a value. -/
  toValue : α → Value

instance : ColumnValue Int64 := ⟨.long⟩
instance : ColumnValue UInt64 := ⟨.unsignedLong⟩
instance : ColumnValue Int32 := ⟨.int⟩
instance : ColumnValue Int16 := ⟨.short⟩
instance : ColumnValue Int8 := ⟨.byte⟩
instance : ColumnValue Bool := ⟨.boolean⟩
instance : ColumnValue Binary64 := ⟨.double⟩
instance : ColumnValue Binary32 := ⟨.float⟩
instance : ColumnValue String := ⟨.string⟩
instance : ColumnValue (List UInt8) := ⟨.blob⟩

instance {α : Type} [ColumnValue α] : ColumnValue (Option α) where
  toValue
    | some a => ColumnValue.toValue a
    | none => .null

end ChangeFeed
