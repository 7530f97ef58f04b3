import ChangeFeed.Number.FloatText

/-!
# Single and double precision numbers

A number of single or double precision is its bit pattern. `same` is the equality of numbers: a
not-a-number differs from itself, and both zeros are one number.
-/

namespace ChangeFeed

namespace FloatFormat

/-- Are two patterns the same number? -/
def same (f : FloatFormat) (a b : Nat) : Bool :=
  match f.decode a, f.decode b with
  | .notANumber, _ | _, .notANumber => false
  | .finite n m q, .finite n' m' q' =>
    (m == 0 && m' == 0) || (n == n' && m == m' && q == q')
  | .infinite n, .infinite n' => n == n'
  | _, _ => false

end FloatFormat

/-- A number of single precision. -/
structure Binary32 where
  bits : UInt32
  deriving DecidableEq, Repr, Inhabited

/-- A number of double precision. -/
structure Binary64 where
  bits : UInt64
  deriving DecidableEq, Repr, Inhabited

namespace Binary32

/-- Are two numbers equal, as numbers? -/
def same (a b : Binary32) : Bool := FloatFormat.single.same a.bits.toNat b.bits.toNat

/-- Reads decimal text. -/
def read? (s : String) : Option Binary32 :=
  (FloatFormat.single.read? s.toList).map fun n => ⟨UInt32.ofNat n⟩

/-- The text of a number. -/
def display (a : Binary32) : String :=
  String.ofList (FloatFormat.single.display a.bits.toNat)

end Binary32

namespace Binary64

/-- Are two numbers equal, as numbers? -/
def same (a b : Binary64) : Bool := FloatFormat.double.same a.bits.toNat b.bits.toNat

/-- Reads decimal text. -/
def read? (s : String) : Option Binary64 :=
  (FloatFormat.double.read? s.toList).map fun n => ⟨UInt64.ofNat n⟩

/-- The text of a number. -/
def display (a : Binary64) : String :=
  String.ofList (FloatFormat.double.display a.bits.toNat)

/-- The number of single precision nearest to this one. -/
def toBinary32 (a : Binary64) : Binary32 :=
  let f := FloatFormat.single
  match FloatFormat.double.decode a.bits.toNat with
  | .notANumber => ⟨UInt32.ofNat f.quiet⟩
  | .infinite n => ⟨UInt32.ofNat (f.withSign n f.infinity)⟩
  | .finite n m q => ⟨UInt32.ofNat (f.round n (m * Nat.pow 2 q.toNat) (Nat.pow 2 (-q).toNat))⟩

end Binary64

end ChangeFeed
