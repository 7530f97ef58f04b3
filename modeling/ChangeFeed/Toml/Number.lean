import ChangeFeed.Number.Binary

/-!
# Numbers, dates and times of TOML

Each is read at the head of a text.

* Whole numbers are signed 64-bit words, in base ten with an optional sign and no leading zeros, or
  in base 16, 8 or 2 after `0x`, `0o` or `0b`. An underscore may stand between two digits.
* Floats have a fraction, an exponent or both; `inf` and `nan` are floats too. One that is too large
  is none, unless it is negative.
* Dates exist in the calendar; a time of day may name a leap second.
-/

namespace ChangeFeed.Toml

/-- The value of a digit in a base. -/
def digitIn? (base : Nat) (c : Char) : Option Nat :=
  let v? :=
    if '0' ≤ c ∧ c ≤ '9' then some (c.toNat - '0'.toNat)
    else if 'a' ≤ c ∧ c ≤ 'f' then some (c.toNat - 'a'.toNat + 10)
    else if 'A' ≤ c ∧ c ≤ 'F' then some (c.toNat - 'A'.toNat + 10)
    else none
  v?.filter (· < base)

/-- Is the character a digit in the base? -/
def isDigitIn (base : Nat) (c : Char) : Bool := (digitIn? base c).isSome

/-- The digits after the first one, underscores between digits left out, and what follows. -/
def moreDigits (base : Nat) : List Char → List Char × List Char
  | '_' :: c :: rest =>
    if isDigitIn base c then
      let r := moreDigits base rest
      (c :: r.1, r.2)
    else ([], '_' :: c :: rest)
  | c :: rest =>
    if isDigitIn base c then
      let r := moreDigits base rest
      (c :: r.1, r.2)
    else ([], c :: rest)
  | [] => ([], [])

/-- At least one digit. -/
def readDigits? (base : Nat) : List Char → Option (List Char × List Char)
  | c :: rest =>
    if isDigitIn base c then
      let r := moreDigits base rest
      some (c :: r.1, r.2)
    else none
  | [] => none

/-- The value of digits. -/
def valueOf (base : Nat) (ds : List Char) : Nat :=
  ds.foldl (fun acc c => acc * base + (digitIn? base c).getD 0) 0

/-- A sign that may be missing: is it a minus? -/
def readSign : List Char → Option Char × List Char
  | '+' :: rest => (some '+', rest)
  | '-' :: rest => (some '-', rest)
  | cs => (none, cs)

/-- Decimal digits without a leading zero. -/
def readDecimal? : List Char → Option (List Char × List Char)
  | '0' :: rest => some (['0'], rest)
  | cs => readDigits? 10 cs

/-- The signed 64-bit word of a value. -/
def word? (n : Int) : Option Int :=
  if Int64.minValue.toInt ≤ n ∧ n ≤ Int64.maxValue.toInt then some n else none

/-- A whole number. -/
def readWhole? : List Char → Option (Int × List Char)
  | '0' :: 'x' :: rest => inBase 16 rest
  | '0' :: 'o' :: rest => inBase 8 rest
  | '0' :: 'b' :: rest => inBase 2 rest
  | cs => do
    let (sign, rest) := readSign cs
    let (ds, rest) ← readDecimal? rest
    let n : Int := valueOf 10 ds
    let n ← word? (if sign = some '-' then -n else n)
    return (n, rest)
where
  /-- Digits in a base. -/
  inBase (base : Nat) (cs : List Char) : Option (Int × List Char) := do
    let (ds, rest) ← readDigits? base cs
    let n ← word? (valueOf base ds)
    return (n, rest)

/-- The fraction of a float, if there is one. -/
def readFraction? : List Char → Option (List Char × List Char)
  | '.' :: rest => (readDigits? 10 rest).map fun r => ('.' :: r.1, r.2)
  | _ => none

/-- The exponent of a float, if there is one. -/
def readExponent? : List Char → Option (List Char × List Char)
  | c :: rest =>
    if c = 'e' ∨ c = 'E' then
      let (sign, rest) := readSign rest
      (readDigits? 10 rest).map fun r => ('e' :: sign.toList ++ r.1, r.2)
    else none
  | [] => none

/-- The text of a float without underscores: digits with a fraction, an exponent or both, or one of
the words. -/
def readFloatText? (cs : List Char) : Option (List Char × List Char) :=
  let (sign, rest) := readSign cs
  match rest with
  | 'i' :: 'n' :: 'f' :: rest => some (sign.toList ++ ['i', 'n', 'f'], rest)
  | 'n' :: 'a' :: 'n' :: rest => some (sign.toList ++ ['n', 'a', 'n'], rest)
  | _ => do
    let (whole, rest) ← readDecimal? rest
    let (tail, rest) ←
      match readFraction? rest with
      | some (fraction, rest) =>
        match readExponent? rest with
        | some (exponent, rest) => some (fraction ++ exponent, rest)
        | none => some (fraction, rest)
      | none => readExponent? rest
    return (sign.toList ++ whole ++ tail, rest)

/-- A float. Only the word for infinity stands for infinity. -/
def readFloat? (cs : List Char) : Option (Binary64 × List Char) := do
  let (s, rest) ← readFloatText? cs
  let x ← Binary64.read? (String.ofList s)
  if x.bits.toNat = FloatFormat.double.infinity ∧ 'i' ∉ s then none else return (x, rest)

/-! ## Dates and times -/

/-- Exactly `n` decimal digits: their value and what follows. -/
def readFixed? (n : Nat) (cs : List Char) : Option (Nat × List Char) :=
  let ds := cs.take n
  if ds.length = n ∧ ds.all (isDigitIn 10) then some (valueOf 10 ds, cs.drop n) else none

/-- A character that has to be there. -/
def expect? (c : Char) : List Char → Option (List Char)
  | d :: rest => if d = c then some rest else none
  | [] => none

/-- How many days a month has. -/
def daysIn (year month : Nat) : Nat :=
  if month = 2 then
    if year % 4 = 0 ∧ (year % 100 ≠ 0 ∨ year % 400 = 0) then 29 else 28
  else if month = 4 ∨ month = 6 ∨ month = 9 ∨ month = 11 then 30
  else 31

/-- A date of the calendar; the result is what follows it. -/
def readDate? (cs : List Char) : Option (List Char) := do
  let (year, rest) ← readFixed? 4 cs
  let rest ← expect? '-' rest
  let (month, rest) ← readFixed? 2 rest
  let rest ← expect? '-' rest
  let (day, rest) ← readFixed? 2 rest
  if 1 ≤ month ∧ month ≤ 12 ∧ 1 ≤ day ∧ day ≤ daysIn year month then some rest else none

/-- Hours and minutes with a colon between them. -/
def readHourMinute? (cs : List Char) : Option (List Char) := do
  let (hour, rest) ← readFixed? 2 cs
  let rest ← expect? ':' rest
  let (minute, rest) ← readFixed? 2 rest
  if hour ≤ 23 ∧ minute ≤ 59 then some rest else none

/-- The text after a fraction of a second, if there is one. -/
def skipSecondFraction : List Char → List Char
  | '.' :: c :: rest =>
    if isDigitIn 10 c then rest.dropWhile (isDigitIn 10) else '.' :: c :: rest
  | cs => cs

/-- A time of day; the result is what follows it. -/
def readTime? (cs : List Char) : Option (List Char) := do
  let rest ← readHourMinute? cs
  let rest ← expect? ':' rest
  let (second, rest) ← readFixed? 2 rest
  if second ≤ 60 then some (skipSecondFraction rest) else none

/-- The text after an offset from universal time, if there is one. -/
def skipOffset : List Char → List Char
  | 'Z' :: rest => rest
  | 'z' :: rest => rest
  | '+' :: rest => (readHourMinute? rest).getD ('+' :: rest)
  | '-' :: rest => (readHourMinute? rest).getD ('-' :: rest)
  | cs => cs

/-- The text after the time that goes with a date, if there is one: a T or a space, a time of day
and an optional offset. -/
def skipTimeOfDate : List Char → List Char
  | c :: rest =>
    if c = 'T' ∨ c = 't' ∨ c = ' ' then
      match readTime? rest with
      | some rest => skipOffset rest
      | none => c :: rest
    else c :: rest
  | [] => []

/-- A date, a time of day or both: the text as written, and what follows it. -/
def readMoment? (cs : List Char) : Option (List Char × List Char) :=
  let rest? :=
    match readDate? cs with
    | some rest => some (skipTimeOfDate rest)
    | none => readTime? cs
  rest?.map fun rest => (cs.take (cs.length - rest.length), rest)

end ChangeFeed.Toml
