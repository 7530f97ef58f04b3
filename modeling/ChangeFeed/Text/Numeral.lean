/-!
# Decimal numerals

Whole numbers as decimal text, written without sign or leading zeros and read with an optional
sign and any number of leading zeros.

* `readU64`, `readI64`: reading into 64-bit words, with the fault that comes first in the text;
* `digits`: writing.
-/

namespace ChangeFeed.Text

/-- Why a text is no numeral of the wanted width. -/
inductive NumeralFault where
  | empty
  | badDigit
  | tooLarge
  | tooSmall
  deriving DecidableEq, Repr

/-- What is said about the fault. -/
def NumeralFault.message : NumeralFault → String
  | .empty => "cannot parse integer from empty string"
  | .badDigit => "invalid digit found in string"
  | .tooLarge => "number too large to fit in target type"
  | .tooSmall => "number too small to fit in target type"

/-- The value of an ASCII digit. -/
def digit? (c : Char) : Option Nat :=
  if '0' ≤ c ∧ c ≤ '9' then some (c.toNat - '0'.toNat) else none

/-- Reads digits after a part with value `acc`. `excess` is the fault of a value above `limit`. -/
def readDigits (limit : Nat) (excess : NumeralFault) (acc : Nat) :
    List Char → Except NumeralFault Nat
  | [] => .ok acc
  | c :: cs =>
    match digit? c with
    | none => .error .badDigit
    | some d =>
      if limit < acc * 10 + d then .error excess else readDigits limit excess (acc * 10 + d) cs

/-- Reads an unsigned 64-bit number: an optional plus sign and at least one digit. -/
def readU64 : List Char → Except NumeralFault UInt64
  | [] => .error .empty
  | '+' :: [] => .error .badDigit
  | '+' :: cs => (readDigits (UInt64.size - 1) .tooLarge 0 cs).map UInt64.ofNat
  | cs => (readDigits (UInt64.size - 1) .tooLarge 0 cs).map UInt64.ofNat

/-- Reads a signed 64-bit number: an optional sign and at least one digit. -/
def readI64 : List Char → Except NumeralFault Int64
  | [] => .error .empty
  | '+' :: [] => .error .badDigit
  | '-' :: [] => .error .badDigit
  | '+' :: cs => (readDigits (Int64.size / 2 - 1) .tooLarge 0 cs).map fun n => Int64.ofNat n
  | '-' :: cs => (readDigits (Int64.size / 2) .tooSmall 0 cs).map fun n => Int64.ofInt (-n)
  | cs => (readDigits (Int64.size / 2 - 1) .tooLarge 0 cs).map fun n => Int64.ofNat n

/-- The character of a digit below ten. -/
def digitChar (d : Nat) : Char :=
  Char.ofNat ('0'.toNat + d)

/-- The decimal digits of a number, without leading zeros. -/
def digits (n : Nat) : List Char :=
  if n < 10 then [digitChar n] else digits (n / 10) ++ [digitChar (n % 10)]
termination_by n
decreasing_by omega

theorem digit?_digitChar : ∀ d < 10, digit? (digitChar d) = some d := by decide

theorem digits_ne_nil (n : Nat) : digits n ≠ [] := by
  rw [digits]
  split <;> simp

/-- Only digits are written. -/
theorem not_mem_digits {c : Char} (h : digit? c = none) (n : Nat) : c ∉ digits n := by
  have hne : ∀ d < 10, c ≠ digitChar d := by
    rintro d hd rfl
    rw [digit?_digitChar d hd] at h
    cases h
  induction n using digits.induct with
  | case1 n hn =>
    rw [digits, if_pos hn, List.mem_singleton]
    exact hne n hn
  | case2 n hn ih =>
    rw [digits, if_neg hn, List.mem_append, List.mem_singleton]
    rintro (h | h)
    · exact ih h
    · exact hne (n % 10) (Nat.mod_lt _ (by decide)) h

theorem readDigits_append {limit acc a : Nat} {excess : NumeralFault} {cs : List Char}
    (h : readDigits limit excess acc cs = .ok a) (ds : List Char) :
    readDigits limit excess acc (cs ++ ds) = readDigits limit excess a ds := by
  induction cs generalizing acc with
  | nil =>
    cases h
    rfl
  | cons c cs ih =>
    rw [List.cons_append, readDigits]
    rw [readDigits] at h
    split at h
    · cases h
    · split at h
      · cases h
      · rename_i hlt
        simp only [if_neg hlt]
        exact ih h

/-- Reading undoes writing below the limit. -/
theorem readDigits_digits {limit n : Nat} (excess : NumeralFault) (h : n ≤ limit) :
    readDigits limit excess 0 (digits n) = .ok n := by
  induction n using digits.induct with
  | case1 n hn =>
    rw [digits, if_pos hn, readDigits, digit?_digitChar n hn]
    simp only [Nat.zero_mul, Nat.zero_add]
    exact if_neg (Nat.not_lt.2 h)
  | case2 n hn ih =>
    have hmod : n % 10 < 10 := Nat.mod_lt _ (by decide)
    have hdiv : n / 10 * 10 + n % 10 = n := by omega
    rw [digits, if_neg hn, readDigits_append (ih (by omega)), readDigits,
      digit?_digitChar _ hmod]
    simp only [hdiv]
    exact if_neg (Nat.not_lt.2 h)

/-- Only digits are read. -/
theorem isSome_digit?_of_readDigits {limit acc a : Nat} {excess : NumeralFault} {cs : List Char}
    (h : readDigits limit excess acc cs = .ok a) : ∀ c ∈ cs, (digit? c).isSome := by
  induction cs generalizing acc with
  | nil => exact fun c hc => absurd hc List.not_mem_nil
  | cons c cs ih =>
    rw [readDigits] at h
    split at h
    · cases h
    · rename_i d hd
      split at h
      · cases h
      · intro e he
        rcases List.mem_cons.1 he with rfl | he
        · rw [hd]
          rfl
        · exact ih h e he

theorem isSome_digit?_of_readU64 {cs : List Char} {n : UInt64} (h : readU64 cs = .ok n) :
    ∀ c ∈ cs, c = '+' ∨ (digit? c).isSome := by
  have hall : ∀ {ds : List Char}, (readDigits (UInt64.size - 1) .tooLarge 0 ds).map UInt64.ofNat =
      .ok n → ∀ c ∈ ds, (digit? c).isSome := by
    intro ds hds
    cases hr : readDigits (UInt64.size - 1) .tooLarge 0 ds with
    | error f =>
      rw [hr] at hds
      cases hds
    | ok m => exact isSome_digit?_of_readDigits hr
  unfold readU64 at h
  split at h
  · cases h
  · cases h
  · intro c hc
    exact (List.mem_cons.1 hc).imp_right (hall h c)
  · exact fun c hc => Or.inr (hall h c hc)

theorem readU64_of_not_mem {cs : List Char} (hne : cs ≠ []) (hplus : '+' ∉ cs) :
    readU64 cs = (readDigits (UInt64.size - 1) .tooLarge 0 cs).map UInt64.ofNat := by
  unfold readU64
  split
  · exact absurd rfl hne
  · exact absurd List.mem_cons_self hplus
  · exact absurd List.mem_cons_self hplus
  · rfl

theorem readDigits_zeros (limit : Nat) (excess : NumeralFault) (k : Nat) :
    readDigits limit excess 0 (List.replicate k '0') = .ok 0 := by
  induction k with
  | zero => rfl
  | succ k ih =>
    rw [List.replicate_succ, readDigits, show digit? '0' = some 0 by decide]
    simp only [Nat.zero_mul, Nat.add_zero, Nat.not_lt_zero, if_false, ih]

/-- Zeros in front of a numeral do not count. -/
theorem readU64_padded (k : Nat) (n : UInt64) :
    readU64 (List.replicate k '0' ++ digits n.toNat) = .ok n := by
  have hplus : '+' ∉ List.replicate k '0' ++ digits n.toNat := by
    rw [List.mem_append, not_or]
    exact ⟨fun h => absurd (List.eq_of_mem_replicate h) (by decide), not_mem_digits (by decide) _⟩
  rw [readU64_of_not_mem (List.append_ne_nil_of_right_ne_nil _ (digits_ne_nil _)) hplus,
    readDigits_append (readDigits_zeros _ _ k),
    readDigits_digits .tooLarge (Nat.le_sub_one_of_lt n.toNat_lt)]
  exact congrArg Except.ok (UInt64.ofNat_toNat ..)

theorem readU64_digits (n : UInt64) : readU64 (digits n.toNat) = .ok n :=
  readU64_padded 0 n

theorem digits_inj {n m : UInt64} (h : digits n.toNat = digits m.toNat) : n = m := by
  have hn := readU64_digits n
  rw [h, readU64_digits] at hn
  cases hn
  rfl

/-- The decimal text of a number. -/
def decimal (n : Nat) : String :=
  String.ofList (digits n)

/-- The decimal text of a signed number. -/
def decimalInt (n : Int) : String :=
  if n < 0 then "-" ++ decimal n.natAbs else decimal n.natAbs

end ChangeFeed.Text
