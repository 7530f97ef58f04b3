/-!
# Binary floating-point formats

The numbers of a binary format as bit patterns, in exact arithmetic on natural numbers.

* `FloatFormat.decode`: what a bit pattern stands for;
* `FloatFormat.round`: the bit pattern nearest to a ratio, a tie going to the even pattern.

A finite number is `m * 2 ^ q`. All numbers of one format share the smallest exponent `q`, and the
patterns of the positive numbers, read as natural numbers, come in the order of the numbers.
-/

namespace ChangeFeed

/-- A binary format: the length of the significand, its leading one included, and the length of the
exponent field. -/
structure FloatFormat where
  precision : Nat
  exponentBits : Nat
  deriving DecidableEq, Repr

/-- What a bit pattern stands for. A finite number is `m * 2 ^ q`, up to its sign. -/
inductive FloatValue where
  | notANumber
  | infinite (negative : Bool)
  | finite (negative : Bool) (m : Nat) (q : Int)
  deriving DecidableEq, Repr

namespace FloatFormat

/-- Single precision. -/
def single : FloatFormat := ⟨24, 8⟩

/-- Double precision. -/
def double : FloatFormat := ⟨53, 11⟩

/-- The exponent `q` of the smallest positive number. -/
def minExponent (f : FloatFormat) : Int :=
  3 - Nat.pow 2 (f.exponentBits - 1) - f.precision

/-- The distance between the patterns of two exponents. -/
def binade (f : FloatFormat) : Nat := Nat.pow 2 (f.precision - 1)

/-- The pattern of plus infinity. -/
def infinity (f : FloatFormat) : Nat := (Nat.pow 2 f.exponentBits - 1) * f.binade

/-- The sign bit. -/
def signBit (f : FloatFormat) : Nat := Nat.pow 2 f.exponentBits * f.binade

/-- The pattern of a quiet not-a-number. -/
def quiet (f : FloatFormat) : Nat := f.infinity + f.binade / 2

/-- The pattern with the sign bit set where asked. -/
def withSign (f : FloatFormat) (negative : Bool) (bits : Nat) : Nat :=
  if negative then f.signBit + bits else bits

/-- What a bit pattern stands for. -/
def decode (f : FloatFormat) (bits : Nat) : FloatValue :=
  let negative := decide (f.signBit ≤ bits)
  let body := bits % f.signBit
  let exponent := body / f.binade
  let fraction := body % f.binade
  if f.infinity < body then .notANumber
  else if body = f.infinity then .infinite negative
  else if exponent = 0 then .finite negative fraction f.minExponent
  else .finite negative (f.binade + fraction) (f.minExponent + (exponent - 1))

/-- The natural number nearest to `a / b`, a half going to the even neighbour. -/
def nearest (a b : Nat) : Nat :=
  let d := a / b
  let r := a % b
  if 2 * r < b then d
  else if b < 2 * r then d + 1
  else if d % 2 = 0 then d else d + 1

/-- The exponent of the largest power of two that is at most `a / b`. -/
def log2Ratio (a b : Nat) : Int :=
  let e : Int := (a.log2 : Int) - b.log2
  let fits : Bool :=
    if 0 ≤ e then decide (b * Nat.pow 2 e.toNat ≤ a) else decide (b ≤ a * Nat.pow 2 (-e).toNat)
  if fits then e else e - 1

/-- The pattern of the number nearest to `a / b`, infinity if that is past the largest number. -/
def round (f : FloatFormat) (negative : Bool) (a b : Nat) : Nat :=
  if a = 0 then f.withSign negative 0
  else
    let q := max (log2Ratio a b - (f.precision - 1)) f.minExponent
    let m :=
      if 0 ≤ q then nearest a (b * Nat.pow 2 q.toNat) else nearest (a * Nat.pow 2 (-q).toNat) b
    let bits := (q - f.minExponent).toNat * f.binade + m
    f.withSign negative (min bits f.infinity)

end FloatFormat

end ChangeFeed
