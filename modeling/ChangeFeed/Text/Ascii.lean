/-!
# ASCII bytes

The bytes that carry meaning in texts which are read byte by byte, and the UTF-8 form of a text as a
list of bytes.
-/

namespace ChangeFeed

namespace Ascii

/-- A tab. -/
def tab : UInt8 := 0x09
/-- A line feed. -/
def lineFeed : UInt8 := 0x0A
/-- A carriage return. -/
def carriageReturn : UInt8 := 0x0D
/-- A space. -/
def space : UInt8 := 0x20
/-- A double quote. -/
def quote : UInt8 := 0x22
/-- A plus sign. -/
def plus : UInt8 := 0x2B
/-- A comma. -/
def comma : UInt8 := 0x2C
/-- A minus sign. -/
def minus : UInt8 := 0x2D
/-- A point. -/
def dot : UInt8 := 0x2E
/-- A colon. -/
def colon : UInt8 := 0x3A
/-- A capital E. -/
def upperE : UInt8 := 0x45
/-- An opening square bracket. -/
def openBracket : UInt8 := 0x5B
/-- A backslash. -/
def backslash : UInt8 := 0x5C
/-- A closing square bracket. -/
def closeBracket : UInt8 := 0x5D
/-- A small e. -/
def lowerE : UInt8 := 0x65
/-- A small u. -/
def lowerU : UInt8 := 0x75
/-- An opening brace. -/
def openBrace : UInt8 := 0x7B
/-- A closing brace. -/
def closeBrace : UInt8 := 0x7D

/-- Is the byte a decimal digit? -/
def isDigit (b : UInt8) : Bool := decide (0x30 ≤ b) && decide (b ≤ 0x39)

/-- The value of a decimal digit. -/
def digitValue (b : UInt8) : Nat := b.toNat - 0x30

/-- The byte of a digit below ten. -/
def ofDigit (d : Nat) : UInt8 := UInt8.ofNat (0x30 + d)

/-- The value of a hexadecimal digit of either case. -/
def hexValue? (b : UInt8) : Option Nat :=
  if 0x30 ≤ b ∧ b ≤ 0x39 then some (b.toNat - 0x30)
  else if 0x61 ≤ b ∧ b ≤ 0x66 then some (b.toNat - 0x61 + 10)
  else if 0x41 ≤ b ∧ b ≤ 0x46 then some (b.toNat - 0x41 + 10)
  else none

/-- The byte of a lower-case hexadecimal digit. -/
def ofHexDigit (d : Nat) : UInt8 :=
  if d < 10 then UInt8.ofNat (0x30 + d) else UInt8.ofNat (0x61 + (d - 10))

end Ascii

/-- The bytes of a text in UTF-8. -/
def utf8 (s : String) : List UInt8 := s.toUTF8.data.toList

/-- The text of bytes in UTF-8, if they are. -/
def ofUtf8? (bytes : List UInt8) : Option String := String.fromUTF8? ⟨bytes.toArray⟩

@[simp] theorem ofUtf8?_utf8 (s : String) : ofUtf8? (utf8 s) = some s := by
  have h : (⟨(utf8 s).toArray⟩ : ByteArray) = s.toByteArray := by simp [utf8]
  rw [ofUtf8?, h]
  exact dif_pos s.isValidUTF8

end ChangeFeed
