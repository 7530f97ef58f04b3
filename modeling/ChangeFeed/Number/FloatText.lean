import ChangeFeed.Number.Shortest

/-!
# The texts of floating-point numbers

* `FloatFormat.display`: positional text of any length, for people;
* `FloatFormat.read`: decimal text, nearest number.
-/

namespace ChangeFeed

namespace FloatFormat

/-- The digits `ds`, the first of which stands for tens to the power `e`, in positional notation. A
whole number ends in `whole`. -/
def positional (ds : List Char) (e : Int) (whole : List Char) : List Char :=
  if e < 0 then '0' :: '.' :: List.replicate (-e - 1).toNat '0' ++ ds
  else if ds.length ≤ e.toNat + 1 then
    ds ++ List.replicate (e.toNat + 1 - ds.length) '0' ++ whole
  else ds.take (e.toNat + 1) ++ '.' :: ds.drop (e.toNat + 1)

/-- The exponent of the first of the digits of `c * 10 ^ k`. -/
def leadExponent (c : Nat) (k : Int) : Int :=
  k + ((Text.digits c).length - 1 : Nat)

/-- The text of a number: the fewest digits that read back, never an exponent, no point in a whole
number. Of two equally near decimals the larger one is written. -/
def display (f : FloatFormat) (bits : Nat) : List Char :=
  let sign (negative : Bool) (cs : List Char) := if negative then '-' :: cs else cs
  match f.decode bits with
  | .notANumber => "NaN".toList
  | .infinite n => sign n "inf".toList
  | .finite n m q =>
    let (c, k) := f.shortest .up m q
    sign n (positional (Text.digits c) (leadExponent c k) [])

/-! ## Reading -/

/-- The characters without a sign in front, and whether that was a minus. -/
def takeSign : List Char → Bool × List Char
  | '-' :: cs => (true, cs)
  | '+' :: cs => (false, cs)
  | cs => (false, cs)

/-- The leading ASCII digits as values, and what follows them. -/
def takeDigits (cs : List Char) : List Nat × List Char :=
  (cs.takeWhile Char.isDigit |>.map fun c => c.toNat - '0'.toNat, cs.dropWhile Char.isDigit)

/-- The number that digits spell. -/
def ofDigits (ds : List Nat) : Nat :=
  ds.foldl (fun n d => n * 10 + d) 0

/-- Reads an exponent part, if one is there: a sign and at least one digit. -/
def readExponent? : List Char → Option Int
  | [] => some 0
  | c :: cs =>
    if c = 'e' ∨ c = 'E' then
      let (negative, rest) := takeSign cs
      match takeDigits rest with
      | ([], _) => none
      | (ds, []) => some (if negative then -(ofDigits ds : Int) else ofDigits ds)
      | _ => none
    else none

/-- The pattern of the number nearest to `c * 10 ^ k`. Exponents far outside every format are not
multiplied out. -/
def ofDecimal (f : FloatFormat) (negative : Bool) (c : Nat) (k : Int) : Nat :=
  if c = 0 then f.round negative 0 1
  else if 400 < leadExponent c k then f.withSign negative f.infinity
  else if leadExponent c k < -400 then f.withSign negative 0
  else f.round negative (c * Nat.pow 10 k.toNat) (Nat.pow 10 (-k).toNat)

/-- Reads decimal text as the nearest number. There is at least one digit before or after the point;
`inf`, `infinity` and `nan` are read in any case. -/
def read? (f : FloatFormat) (cs : List Char) : Option Nat :=
  let (negative, body) := takeSign cs
  let word := String.ofList (body.map Char.toLower)
  if word = "inf" ∨ word = "infinity" then some (f.withSign negative f.infinity)
  else if word = "nan" then some (f.withSign negative f.quiet)
  else
    let (whole, rest) := takeDigits body
    let (fraction, rest) :=
      match rest with
      | '.' :: rest => takeDigits rest
      | _ => ([], rest)
    if whole.isEmpty && fraction.isEmpty then none
    else (readExponent? rest).map fun e =>
      f.ofDecimal negative (ofDigits (whole ++ fraction)) (e - fraction.length)

end FloatFormat

end ChangeFeed
