import ChangeFeed.Json.Numeral
import ChangeFeed.Json.Reader
import Mathlib.Tactic.Common

/-!
# Whole numbers read back

**Digits.** The digits of a number have that number as their value, and only zero begins with a
zero.

**The end of a number** (`EndsNumber`). A number is read up to the first byte that cannot go on with
it, so it reads back in front of everything that begins with another byte.

Main results: `int?_ofInt` and `readNumeral?_ofInt`.
-/

namespace ChangeFeed

/-! ## Digits -/

namespace JsonNumeral

theorem digitValues_eq (n : Nat) :
    digitValues n = if n < 10 then [n] else digitValues (n / 10) ++ [n % 10] := by
  have hvalue : ∀ d < 10, (Text.digitChar d).toNat - '0'.toNat = d := by decide
  unfold digitValues
  rw [Text.digits]
  split
  · rename_i hn
    rw [List.map_singleton, hvalue n hn]
  · rw [List.map_append, List.map_singleton, hvalue _ (Nat.mod_lt _ (by decide))]

theorem lt_of_mem_digitValues {d n : Nat} (h : d ∈ digitValues n) : d < 10 := by
  induction n using Text.digits.induct with
  | case1 n hn =>
    rw [digitValues_eq, if_pos hn, List.mem_singleton] at h
    omega
  | case2 n hn ih =>
    rw [digitValues_eq, if_neg hn, List.mem_append, List.mem_singleton] at h
    rcases h with h | h
    · exact ih h
    · omega

theorem ofDigits_digitValues (n : Nat) : FloatFormat.ofDigits (digitValues n) = n := by
  induction n using Text.digits.induct with
  | case1 n hn =>
    rw [digitValues_eq, if_pos hn]
    simp [FloatFormat.ofDigits]
  | case2 n hn ih =>
    rw [digitValues_eq, if_neg hn]
    unfold FloatFormat.ofDigits at ih ⊢
    rw [List.foldl_append, ih]
    simp only [List.foldl_cons, List.foldl_nil]
    omega

theorem digitValues_ne_nil (n : Nat) : digitValues n ≠ [] := by
  rw [digitValues_eq]
  split <;> simp

/-- Only zero begins with a zero. -/
theorem head?_digitValues {n : Nat} (h : 0 < n) : (digitValues n).head? ≠ some 0 := by
  induction n using Text.digits.induct with
  | case1 n hn =>
    rw [digitValues_eq, if_pos hn, List.head?_singleton, ne_eq, Option.some.injEq]
    omega
  | case2 n hn ih =>
    have ih := ih (by omega)
    rw [digitValues_eq, if_neg hn]
    cases hd : digitValues (n / 10) with
    | nil => exact absurd hd (digitValues_ne_nil _)
    | cons d ds =>
      rw [hd] at ih
      exact ih

theorem digitValues_ne_zero_cons (n d : Nat) (ds : List Nat) :
    digitValues n ≠ 0 :: d :: ds := by
  intro h
  rcases Nat.eq_zero_or_pos n with h0 | hpos
  · rw [h0, digitValues_eq] at h
    cases h
  · exact head?_digitValues hpos (h ▸ rfl)

/-- The spelling of a whole number stands for it. -/
@[simp] theorem int?_ofInt (n : Int) : (ofInt n).int? = some n := by
  have hvalue : (ofInt n).wholeValue = n.natAbs := ofDigits_digitValues n.natAbs
  have hwhole : (ofInt n).isWhole = true := rfl
  have hneg : (ofInt n).negative = decide (n < 0) := rfl
  unfold int?
  rw [hwhole, hneg, hvalue]
  by_cases h : n < 0
  · have hne : n.natAbs ≠ 0 := by omega
    have heq : -(n.natAbs : Int) = n := by omega
    rw [decide_eq_true h, if_neg hne, heq]
    rfl
  · have heq : (n.natAbs : Int) = n := by omega
    rw [decide_eq_false h, heq]
    rfl

end JsonNumeral

/-! ## Reading numbers -/

namespace Json

/-- What follows does not go on with a number. -/
def EndsNumber (rest : List UInt8) : Prop :=
  ∀ b ∈ rest.head?, Ascii.isDigit b = false ∧ b ≠ Ascii.dot ∧ b ≠ Ascii.lowerE ∧ b ≠ Ascii.upperE

theorem endsNumber_cons {b : UInt8} (rest : List UInt8)
    (h : Ascii.isDigit b = false ∧ b ≠ Ascii.dot ∧ b ≠ Ascii.lowerE ∧ b ≠ Ascii.upperE) :
    EndsNumber (b :: rest) := by
  intro c hc
  obtain rfl := Option.some.inj hc
  exact h

theorem takeDigits_append {ds : List Nat} (hds : ∀ d ∈ ds, d < 10) {rest : List UInt8}
    (hrest : EndsNumber rest) : takeDigits (ds.map Ascii.ofDigit ++ rest) = (ds, rest) := by
  have hdigit : ∀ d < 10, Ascii.isDigit (Ascii.ofDigit d) = true := by decide
  have hvalue : ∀ d < 10, Ascii.digitValue (Ascii.ofDigit d) = d := by decide
  have hall : ∀ b ∈ ds.map Ascii.ofDigit, Ascii.isDigit b = true := by
    intro b hb
    obtain ⟨d, hd, rfl⟩ := List.mem_map.1 hb
    exact hdigit d (hds d hd)
  have hstop : rest.takeWhile Ascii.isDigit = [] ∧ rest.dropWhile Ascii.isDigit = rest := by
    cases rest with
    | nil => exact ⟨rfl, rfl⟩
    | cons b rest =>
      have hb := (hrest b rfl).1
      simp [hb]
  unfold takeDigits
  rw [List.takeWhile_append_of_pos hall, List.dropWhile_append_of_pos hall, hstop.1, hstop.2,
    List.append_nil, List.map_map]
  have hid : ds.map (Ascii.digitValue ∘ Ascii.ofDigit) = ds.map id :=
    List.map_congr_left fun d hd => hvalue d (hds d hd)
  rw [hid, List.map_id]

theorem readFraction?_of_ends {rest : List UInt8} (h : EndsNumber rest) :
    readFraction? rest = some ([], rest) := by
  unfold readFraction?
  split
  · exact absurd rfl (h _ rfl).2.1
  · rfl

theorem readExponent?_of_ends {rest : List UInt8} (h : EndsNumber rest) :
    readExponent? rest = some (none, rest) := by
  cases rest with
  | nil => rfl
  | cons b rest =>
    obtain ⟨-, -, hlower, hupper⟩ := h b rfl
    exact if_neg (not_or.2 ⟨hlower, hupper⟩)

theorem readUnsigned?_append (negative : Bool) {ds : List Nat} (hds : ∀ d ∈ ds, d < 10)
    (hne : ds ≠ []) (hzero : ∀ d ds', ds ≠ 0 :: d :: ds') {rest : List UInt8}
    (hrest : EndsNumber rest) :
    readUnsigned? negative (ds.map Ascii.ofDigit ++ rest) =
      some (⟨negative, ds, [], none⟩, rest) := by
  unfold readUnsigned?
  rw [takeDigits_append hds hrest]
  split
  · rename_i h
    exact absurd (Prod.mk.inj h).1 hne
  · rename_i h
    exact absurd (Prod.mk.inj h).1 (hzero _ _)
  · rename_i h
    cases h
    rw [readFraction?_of_ends hrest]
    simp only [Option.bind_eq_bind, Option.bind_some]
    rw [readExponent?_of_ends hrest]
    rfl

theorem render_ofInt (n : Int) : (JsonNumeral.ofInt n).render =
    (if n < 0 then [Ascii.minus] else []) ++
      (JsonNumeral.digitValues n.natAbs).map Ascii.ofDigit := by
  simp [JsonNumeral.render, JsonNumeral.ofInt, JsonNumeral.digitValues]

theorem ne_minus_of_digit : ∀ d < 10, Ascii.ofDigit d ≠ 0x2D := by decide

/-- A whole number reads as it is spelt. -/
theorem readNumeral?_ofInt (n : Int) {rest : List UInt8} (hrest : EndsNumber rest) :
    readNumeral? ((JsonNumeral.ofInt n).render ++ rest) = some (.ofInt n, rest) := by
  have hread (negative : Bool) := readUnsigned?_append negative
    (fun d hd => JsonNumeral.lt_of_mem_digitValues hd) (JsonNumeral.digitValues_ne_nil n.natAbs)
    (JsonNumeral.digitValues_ne_zero_cons n.natAbs) hrest
  have hofInt : JsonNumeral.ofInt n =
      ⟨decide (n < 0), JsonNumeral.digitValues n.natAbs, [], none⟩ := rfl
  rw [render_ofInt, hofInt]
  by_cases h : n < 0
  · rw [if_pos h, decide_eq_true h]
    exact hread true
  · rw [if_neg h, List.nil_append, decide_eq_false h, ← hread false]
    unfold readNumeral?
    split
    · rename_i hminus
      cases hd : JsonNumeral.digitValues n.natAbs with
      | nil => exact absurd hd (JsonNumeral.digitValues_ne_nil _)
      | cons d ds =>
        rw [hd] at hminus
        have hlt := JsonNumeral.lt_of_mem_digitValues (hd ▸ List.mem_cons_self)
        exact absurd (List.cons.inj hminus).1 (ne_minus_of_digit d hlt)
    · rfl

/-- What a number begins with: a digit or a minus sign. -/
theorem exists_render_ofInt (n : Int) : ∃ b bs, (JsonNumeral.ofInt n).render = b :: bs ∧
    (b = Ascii.minus ∨ Ascii.isDigit b = true) := by
  rw [render_ofInt]
  by_cases h : n < 0
  · rw [if_pos h]
    exact ⟨_, _, rfl, Or.inl rfl⟩
  · rw [if_neg h]
    have hdigit : ∀ d < 10, Ascii.isDigit (Ascii.ofDigit d) = true := by decide
    cases hd : JsonNumeral.digitValues n.natAbs with
    | nil => exact absurd hd (JsonNumeral.digitValues_ne_nil _)
    | cons d ds =>
      exact ⟨_, _, rfl,
        Or.inr (hdigit d (JsonNumeral.lt_of_mem_digitValues (hd ▸ List.mem_cons_self)))⟩

theorem isGap_of_number {b : UInt8} (hb : b = Ascii.minus ∨ Ascii.isDigit b = true) :
    isGap b = false := by
  by_contra hgap
  simp only [Bool.not_eq_false, isGap, Bool.or_eq_true, beq_iff_eq] at hgap
  rcases hgap with ((rfl | rfl) | rfl) | rfl <;> revert hb <;> decide

end Json

end ChangeFeed
