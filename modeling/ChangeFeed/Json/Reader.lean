import ChangeFeed.Json.Tree
import ChangeFeed.Json.Quoted

/-!
# Reading JSON

The tree of a JSON text. Space, tab and line ends may stand between tokens; nothing but those may
follow the value. Nesting is not limited.

Bytes stand in patterns by their codes: 22 is a quote, 2B and 2D are the signs, 2C is a comma, 2E a
point, 3A a colon, 5C a backslash, 5B and 5D are brackets, 7B and 7D are braces, 75 is a small u.

* `readRaw?`, `readNumeral?`, `readValue?`: one token or value at the head of a text, and what
  follows it;
* `JsonTree.read?`: a whole text.
-/

namespace ChangeFeed.Json

/-- May the byte stand between tokens? -/
def isGap (b : UInt8) : Bool :=
  b == Ascii.space || b == Ascii.lineFeed || b == Ascii.tab || b == Ascii.carriageReturn

/-- The bytes from the next token on. -/
def skipGap (bs : List UInt8) : List UInt8 :=
  bs.dropWhile isGap

/-- The bytes of a string after its opening quote, up to the closing quote, and what follows that.
Escapes must be well formed; control characters must be escaped. -/
def readRaw? : List UInt8 → Option (List UInt8 × List UInt8)
  | [] => none
  | 0x22 :: rest => some ([], rest)
  | 0x5C :: 0x75 :: a :: b :: c :: d :: rest => do
    let _ ← fourHex? a b c d
    let (raw, rest) ← readRaw? rest
    return (0x5C :: 0x75 :: a :: b :: c :: d :: raw, rest)
  | 0x5C :: b :: rest => do
    let _ ← escapedByte? b
    let (raw, rest) ← readRaw? rest
    return (0x5C :: b :: raw, rest)
  | b :: rest =>
    if b < 0x20 ∨ b = Ascii.backslash then none
    else do
      let (raw, rest) ← readRaw? rest
      return (b :: raw, rest)

/-- The leading digits, as values, and what follows them. -/
def takeDigits (bs : List UInt8) : List Nat × List UInt8 :=
  ((bs.takeWhile Ascii.isDigit).map Ascii.digitValue, bs.dropWhile Ascii.isDigit)

/-- A fraction, if there is one: a point and at least one digit. -/
def readFraction? : List UInt8 → Option (List Nat × List UInt8)
  | 0x2E :: rest =>
    match takeDigits rest with
    | ([], _) => none
    | r => some r
  | bs => some ([], bs)

/-- The digits of an exponent, at least one. -/
def readExponentDigits? (negative : Bool) (bs : List UInt8) :
    Option (Option (Bool × List Nat) × List UInt8) :=
  match takeDigits bs with
  | ([], _) => none
  | (ds, rest) => some (some (negative, ds), rest)

/-- An exponent, if there is one: its letter, an optional sign and digits. -/
def readExponent? : List UInt8 → Option (Option (Bool × List Nat) × List UInt8)
  | [] => some (none, [])
  | b :: rest =>
    if b = Ascii.lowerE ∨ b = Ascii.upperE then
      match rest with
      | 0x2D :: rest => readExponentDigits? true rest
      | 0x2B :: rest => readExponentDigits? false rest
      | rest => readExponentDigits? false rest
    else some (none, b :: rest)

/-- A number after its sign. The whole part has no leading zero unless it is zero. -/
def readUnsigned? (negative : Bool) (bs : List UInt8) : Option (JsonNumeral × List UInt8) :=
  match takeDigits bs with
  | ([], _) => none
  | (0 :: _ :: _, _) => none
  | (whole, rest) => do
    let (fraction, rest) ← readFraction? rest
    let (exponent, rest) ← readExponent? rest
    return (⟨negative, whole, fraction, exponent⟩, rest)

/-- A number. -/
def readNumeral? : List UInt8 → Option (JsonNumeral × List UInt8)
  | 0x2D :: rest => readUnsigned? true rest
  | bs => readUnsigned? false bs

mutual

/-- A value at the head of a text, gaps in front of it skipped. -/
def readValue? : Nat → List UInt8 → Option (JsonTree × List UInt8)
  | 0, _ => none
  | fuel + 1, bs =>
    match skipGap bs with
    | 0x6E :: 0x75 :: 0x6C :: 0x6C :: rest => some (.null, rest)
    | 0x74 :: 0x72 :: 0x75 :: 0x65 :: rest => some (.bool true, rest)
    | 0x66 :: 0x61 :: 0x6C :: 0x73 :: 0x65 :: rest => some (.bool false, rest)
    | 0x22 :: rest => (readRaw? rest).map fun r => (.str r.1, r.2)
    | 0x5B :: rest =>
      match skipGap rest with
      | 0x5D :: rest => some (.arr [], rest)
      | rest => (readItems? fuel rest).map fun r => (.arr r.1, r.2)
    | 0x7B :: rest =>
      match skipGap rest with
      | 0x7D :: rest => some (.obj [], rest)
      | rest => (readMembers? fuel rest).map fun r => (.obj r.1, r.2)
    | rest => (readNumeral? rest).map fun r => (.num r.1, r.2)

/-- At least one item, up to the closing bracket. -/
def readItems? : Nat → List UInt8 → Option (List JsonTree × List UInt8)
  | 0, _ => none
  | fuel + 1, bs => do
    let (t, rest) ← readValue? fuel bs
    match skipGap rest with
    | 0x5D :: rest => return ([t], rest)
    | 0x2C :: rest =>
      let (ts, rest) ← readItems? fuel rest
      return (t :: ts, rest)
    | _ => none

/-- At least one member, up to the closing brace. -/
def readMembers? : Nat → List UInt8 → Option (List (List UInt8 × JsonTree) × List UInt8)
  | 0, _ => none
  | fuel + 1, bs =>
    match skipGap bs with
    | 0x22 :: rest => do
      let (k, rest) ← readRaw? rest
      match skipGap rest with
      | 0x3A :: rest =>
        let (t, rest) ← readValue? fuel rest
        match skipGap rest with
        | 0x7D :: rest => return ([(k, t)], rest)
        | 0x2C :: rest =>
          let (ms, rest) ← readMembers? fuel rest
          return ((k, t) :: ms, rest)
        | _ => none
      | _ => none
    | _ => none

end

end ChangeFeed.Json

namespace ChangeFeed.JsonTree

/-- The tree of a whole text. Each step of the reader that takes no byte is followed by one that
does, so twice the length is fuel enough. -/
def read? (bs : List UInt8) : Option JsonTree :=
  match Json.readValue? (2 * bs.length + 2) bs with
  | some (t, rest) => if (Json.skipGap rest).isEmpty then some t else none
  | none => none

end ChangeFeed.JsonTree
