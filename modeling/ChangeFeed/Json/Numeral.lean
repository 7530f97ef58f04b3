import ChangeFeed.Json.Tree
import ChangeFeed.Number.Binary

/-!
# What JSON numbers stand for

* `JsonNumeral.ofInt` and `int?`: whole numbers. A number with a point or an exponent is no whole
  number, and neither is minus zero.
* `JsonNumeral.toDouble?`: double precision. The leading digits that fit a 64-bit word make the
  significand; it is rounded, and then scaled by powers of ten in steps that round each. The result
  can be off by a unit in the last place.
* `JsonNumeral.toSingle?`: single precision. A whole number that fits 64 bits is rounded once,
  anything else by way of double precision.
* `JsonNumeral.ofDouble`, `ofSingle`: the shortest decimal that reads back, in positional or
  scientific notation after its size.
-/

namespace ChangeFeed.JsonNumeral

/-! ## Whole numbers -/

/-- The spelling of a whole number. -/
def ofInt (n : Int) : JsonNumeral :=
  ⟨decide (n < 0), (Text.digits n.natAbs).map fun c => c.toNat - '0'.toNat, [], none⟩

/-- The number without its fraction and exponent, and without its sign. -/
def wholeValue (n : JsonNumeral) : Nat := FloatFormat.ofDigits n.whole

/-- Is the number spelt without point and exponent? -/
def isWhole (n : JsonNumeral) : Bool := n.fraction.isEmpty && n.exponent.isNone

/-- The whole number that is spelt. -/
def int? (n : JsonNumeral) : Option Int :=
  if !n.isWhole then none
  else if !n.negative then some n.wholeValue
  else if n.wholeValue = 0 then none
  else some (-(n.wholeValue : Int))

/-! ## Double precision -/

/-- The largest significand. -/
def maxSignificand : Nat := UInt64.size - 1

/-- Takes digits into a significand as long as it fits a word; counts those taken. -/
def takeFitting (s : Nat) : List Nat → Nat × Nat
  | [] => (s, 0)
  | d :: ds =>
    if maxSignificand < s * 10 + d then (s, 0)
    else
      let r := takeFitting (s * 10 + d) ds
      (r.1, r.2 + 1)

/-- The finite number of a pattern as a ratio, its sign apart. -/
def ratio (bits : Nat) : Nat × Nat :=
  match FloatFormat.double.decode bits with
  | .finite _ m q => (m * Nat.pow 2 q.toNat, Nat.pow 2 (-q).toNat)
  | _ => (0, 1)

/-- The product of a number and a power of ten, each step rounded. -/
def timesTen (bits k : Nat) : Nat :=
  let a := ratio bits
  let b := ratio (FloatFormat.double.round false (Nat.pow 10 k) 1)
  FloatFormat.double.round false (a.1 * b.1) (a.2 * b.2)

/-- The quotient of a number and a power of ten, each step rounded. -/
def overTen (bits k : Nat) : Nat :=
  let a := ratio bits
  let b := ratio (FloatFormat.double.round false (Nat.pow 10 k) 1)
  FloatFormat.double.round false (a.1 * b.2) (a.2 * b.1)

/-- The largest power of ten of double precision. -/
def maxPower : Nat := 308

/-- Scales a rounded significand by `10 ^ e`. A result past the largest number is refused; an
exponent below the smallest power is taken in steps until nothing is left. -/
def scale? : Nat → Nat → Int → Option Nat
  | 0, _, _ => some 0
  | fuel + 1, bits, e =>
    if e.natAbs ≤ maxPower then
      if 0 ≤ e then
        let r := timesTen bits e.toNat
        if r = FloatFormat.double.infinity then none else some r
      else some (overTen bits (-e).toNat)
    else if bits = 0 then some 0
    else if 0 ≤ e then none
    else scale? fuel (overTen bits maxPower) (e + maxPower)

/-- The exponent part as a number, and whether its digits alone pass 32 bits. -/
def exponentValue (n : JsonNumeral) : Int × Bool :=
  match n.exponent with
  | none => (0, false)
  | some (negative, ds) =>
    let v : Nat := FloatFormat.ofDigits ds
    (if negative then -(v : Int) else v, decide (Int32.size / 2 ≤ v))

/-- The number nearest to what is spelt, or nearly so; none if it is past the largest. -/
def toDouble? (n : JsonNumeral) : Option Binary64 :=
  let f := FloatFormat.double
  let signed (bits : Nat) : Binary64 := ⟨UInt64.ofNat (f.withSign n.negative bits)⟩
  if n.isWhole && decide (n.wholeValue ≤ maxSignificand) then
    some (signed (f.round false n.wholeValue 1))
  else
    let (s, taken) := takeFitting 0 n.whole
    let (s, places) := takeFitting s n.fraction
    let shift : Int := (n.whole.length - taken : Nat) - (places : Int)
    let (e, tooLong) := n.exponentValue
    if tooLong then
      if s ≠ 0 ∧ 0 < e then none else some (signed 0)
    else (scale? 8 (f.round false s 1) (shift + e)).map signed

/-! ## Single precision -/

/-- Does a whole number fit 64 bits, unsigned or with a sign? -/
def fitsWord (v : Int) : Bool :=
  decide (Int64.minValue.toInt ≤ v) && decide (v ≤ maxSignificand)

/-- The number of single precision for what is spelt; none if it is past the largest of double
precision. A whole number of 64 bits is rounded once, any other number twice. -/
def toSingle? (n : JsonNumeral) : Option Binary32 :=
  let f := FloatFormat.single
  match n.int?.filter fitsWord with
  | some v => some ⟨UInt32.ofNat (f.withSign n.negative (f.round false v.natAbs 1))⟩
  | none => n.toDouble?.map Binary64.toBinary32

/-! ## Writing floating-point numbers -/

/-- The digits of a number as values. -/
def digitValues (n : Nat) : List Nat :=
  (Text.digits n).map fun c => c.toNat - '0'.toNat

/-- The spelling of `c * 10 ^ k`: positional with at least one digit after the point when the
exponent of the first digit is between `low` and `high`, scientific otherwise. -/
def ofDecimal (negative : Bool) (c : Nat) (k low high : Int) : JsonNumeral :=
  let ds := digitValues c
  let e := FloatFormat.leadExponent c k
  if low ≤ e ∧ e ≤ high then
    if e < 0 then ⟨negative, [0], List.replicate (-e - 1).toNat 0 ++ ds, none⟩
    else if ds.length ≤ e.toNat + 1 then
      ⟨negative, ds ++ List.replicate (e.toNat + 1 - ds.length) 0, [0], none⟩
    else ⟨negative, ds.take (e.toNat + 1), ds.drop (e.toNat + 1), none⟩
  else ⟨negative, ds.take 1, ds.drop 1, some (decide (e < 0), digitValues e.natAbs)⟩

/-- The spelling of a pattern of a format; none for what is no number. -/
def ofPattern? (f : FloatFormat) (bits : Nat) (low high : Int) : Option JsonNumeral :=
  match f.decode bits with
  | .finite negative m q =>
    let (c, k) := f.shortest .toEven m q
    some (ofDecimal negative c k low high)
  | _ => none

/-- The spelling of a number of double precision. -/
def ofDouble? (a : Binary64) : Option JsonNumeral :=
  ofPattern? .double a.bits.toNat (-5) 15

/-- The spelling of a number of single precision. -/
def ofSingle? (a : Binary32) : Option JsonNumeral :=
  ofPattern? .single a.bits.toNat (-6) 12

end ChangeFeed.JsonNumeral
