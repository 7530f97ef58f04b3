import ChangeFeed.Text.Ascii

/-!
# Quoted strings

The bytes that stand between the quotes of a JSON string, and the text that they spell.

* `quoted`: quotes, backslashes and control characters are escaped, all else stands as it is;
* `unquoted?`: all escapes are understood; a surrogate must be half of a pair, and the bytes must be
  UTF-8 in the end.
-/

namespace ChangeFeed.Json

/-- A byte as it stands between quotes. -/
def quotedByte (b : UInt8) : List UInt8 :=
  if b = Ascii.quote then [Ascii.backslash, Ascii.quote]
  else if b = Ascii.backslash then [Ascii.backslash, Ascii.backslash]
  else if b = 0x08 then [Ascii.backslash, 0x62]
  else if b = 0x0C then [Ascii.backslash, 0x66]
  else if b = Ascii.lineFeed then [Ascii.backslash, 0x6E]
  else if b = Ascii.carriageReturn then [Ascii.backslash, 0x72]
  else if b = Ascii.tab then [Ascii.backslash, 0x74]
  else if b < 0x20 then
    [Ascii.backslash, Ascii.lowerU, 0x30, 0x30, Ascii.ofHexDigit (b.toNat / 16),
      Ascii.ofHexDigit (b.toNat % 16)]
  else [b]

/-- The bytes of a text as they stand between quotes. -/
def quoted (s : String) : List UInt8 :=
  (utf8 s).flatMap quotedByte

/-- The byte that a one-letter escape stands for. -/
def escapedByte? (b : UInt8) : Option UInt8 :=
  if b = Ascii.quote ∨ b = Ascii.backslash ∨ b = 0x2F then some b
  else if b = 0x62 then some 0x08
  else if b = 0x66 then some 0x0C
  else if b = 0x6E then some Ascii.lineFeed
  else if b = 0x72 then some Ascii.carriageReturn
  else if b = 0x74 then some Ascii.tab
  else none

/-- The number that four hexadecimal digits spell. -/
def fourHex? (a b c d : UInt8) : Option Nat := do
  let a ← Ascii.hexValue? a
  let b ← Ascii.hexValue? b
  let c ← Ascii.hexValue? c
  let d ← Ascii.hexValue? d
  return ((a * 16 + b) * 16 + c) * 16 + d

/-- The bytes that the bytes between quotes spell. An escape is a backslash (5C) and a letter; after
the letter u (75) come four hexadecimal digits. -/
def unescape? : List UInt8 → Option (List UInt8)
  | [] => some []
  | 0x5C :: 0x75 :: a :: b :: c :: d :: rest => do
    let n ← fourHex? a b c d
    if n < 0xD800 ∨ 0xE000 ≤ n then
      return String.utf8EncodeChar (Char.ofNat n) ++ (← unescape? rest)
    else if 0xDC00 ≤ n then none
    else
      match rest with
      | 0x5C :: 0x75 :: a :: b :: c :: d :: rest => do
        let m ← fourHex? a b c d
        if m < 0xDC00 ∨ 0xE000 ≤ m then none
        else
          let c := Char.ofNat (0x10000 + (n - 0xD800) * 0x400 + (m - 0xDC00))
          return String.utf8EncodeChar c ++ (← unescape? rest)
      | _ => none
  | 0x5C :: b :: rest => do
    let b ← escapedByte? b
    return b :: (← unescape? rest)
  | b :: rest => do
    return b :: (← unescape? rest)

/-- The text that the bytes between quotes spell. -/
def unquoted? (raw : List UInt8) : Option String :=
  (unescape? raw).bind ofUtf8?

end ChangeFeed.Json
