import ChangeFeed.Number.FloatFormat
import ChangeFeed.Text.Numeral

/-!
# Shortest decimals

The decimal with the fewest digits that reads back as a given binary number and, of several with
that many digits, the one nearest to it.

A decimal reads back as `m * 2 ^ q` when it lies between the points halfway to the neighbours of the
number; the two points themselves belong to it when `m` is even. If any decimal of a length lies
there, then so does one of the two of that length next to the number, so these two are enough to
look at.
-/

namespace ChangeFeed

/-- Which of two equally near decimals is taken. -/
inductive Tie where
  | toEven
  | up
  deriving DecidableEq, Repr

namespace FloatFormat

/-- A positive number with the ends of the range that reads back as it: the three numerators over
one denominator, and whether the ends belong to the range. -/
structure Range where
  low : Nat
  mid : Nat
  high : Nat
  den : Nat
  closed : Bool

/-- The range of the finite number `m * 2 ^ q`, which is narrower below a power of two. -/
def range (f : FloatFormat) (m : Nat) (q : Int) : Range :=
  let unit := Nat.pow 2 (q - 2).toNat
  let below := if m = f.binade ∧ f.minExponent < q then 1 else 2
  { low := (4 * m - below) * unit
    mid := 4 * m * unit
    high := (4 * m + 2) * unit
    den := Nat.pow 2 (2 - q).toNat
    closed := m % 2 == 0 }

/-- The exponent of the largest power of ten that is at most `a / b`. -/
def log10Ratio (a b : Nat) : Int :=
  if b ≤ a then (Text.digits (a / b)).length - 1
  else -((Text.digits ((b - 1) / a)).length : Int)

/-- Is `c * 10 ^ k` in the range? -/
def Range.holds (r : Range) (c : Nat) (k : Int) : Bool :=
  let x := c * Nat.pow 10 k.toNat * r.den
  let s := Nat.pow 10 (-k).toNat
  if r.closed then decide (r.low * s ≤ x) && decide (x ≤ r.high * s)
  else decide (r.low * s < x) && decide (x < r.high * s)

/-- The decimals of exponent `k` just below and just above the number: the one in the range, the
nearer one of two. -/
def Range.candidate? (r : Range) (tie : Tie) (k : Int) : Option Nat :=
  let a := r.mid * Nat.pow 10 (-k).toNat
  let b := r.den * Nat.pow 10 k.toNat
  let c := a / b
  match r.holds c k, r.holds (c + 1) k with
  | false, false => none
  | true, false => some c
  | false, true => some (c + 1)
  | true, true =>
    let twice := 2 * (a % b)
    if twice < b then some c
    else if b < twice then some (c + 1)
    else
      match tie with
      | .up => some (c + 1)
      | .toEven => if c % 2 = 0 then some c else some (c + 1)

/-- Tries exponents downward from `k`. Every number of the usual formats is met within seventeen
digits. -/
def Range.search (r : Range) (tie : Tie) : Nat → Int → Nat × Int
  | 0, k => (r.mid * Nat.pow 10 (-k).toNat / (r.den * Nat.pow 10 k.toNat), k)
  | fuel + 1, k =>
    match r.candidate? tie k with
    | some c => (c, k)
    | none => r.search tie fuel (k - 1)

/-- Moves trailing zeros of `c` into the exponent. -/
def stripZeros (c : Nat) (k : Int) : Nat × Int :=
  if c = 0 then (0, k)
  else if c % 10 = 0 then stripZeros (c / 10) (k + 1)
  else (c, k)
termination_by c
decreasing_by omega

/-- The shortest decimal `c * 10 ^ k` that reads back as `m * 2 ^ q`. -/
def shortest (f : FloatFormat) (tie : Tie) (m : Nat) (q : Int) : Nat × Int :=
  if m = 0 then (0, 0)
  else
    let r := f.range m q
    let (c, k) := r.search tie 20 (log10Ratio r.mid r.den)
    stripZeros c k

end FloatFormat

end ChangeFeed
