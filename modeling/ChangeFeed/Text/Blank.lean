/-!
# White space

Which characters are white space, and texts without the white space around them.

* `isBlank_iff`: a character is blank exactly when its code point is one of the twenty-five of the
  property White_Space.
-/

namespace ChangeFeed.Text

/-- The code points of Unicode's property White_Space. -/
def blankCodes : List Nat :=
  [0x09, 0x0A, 0x0B, 0x0C, 0x0D, 0x20, 0x85, 0xA0, 0x1680, 0x2000, 0x2001, 0x2002, 0x2003, 0x2004,
    0x2005, 0x2006, 0x2007, 0x2008, 0x2009, 0x200A, 0x2028, 0x2029, 0x202F, 0x205F, 0x3000]

/-- White space. The byte order mark and the zero-width space are not among it. -/
def isBlank (c : Char) : Bool :=
  blankCodes.contains c.toNat

theorem isBlank_iff {c : Char} : isBlank c = true ↔ c.toNat ∈ blankCodes := by
  simp [isBlank]

/-- The characters without white space at either end. -/
def trimChars (cs : List Char) : List Char :=
  ((cs.dropWhile isBlank).reverse.dropWhile isBlank).reverse

theorem mem_of_mem_trimChars {c : Char} {cs : List Char} (h : c ∈ trimChars cs) : c ∈ cs := by
  have h := (List.dropWhile_sublist _).mem (List.mem_reverse.1 h)
  exact (List.dropWhile_sublist _).mem (List.mem_reverse.1 h)

/-- The text without white space at either end. -/
def trim (s : String) : String :=
  String.ofList (trimChars s.toList)

end ChangeFeed.Text
