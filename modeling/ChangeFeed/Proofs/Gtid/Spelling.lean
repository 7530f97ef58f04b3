import ChangeFeed.Gtid.UuidSet
import Mathlib.Tactic.Common

/-!
# One spelling of a UUID

Trimming leaves trimmed text alone, lower case leaves lower-case text alone, and neither undoes the
other. So the usual spelling of a UUID is its own usual spelling.

**The table** (`avoids_lowerRows`). No form that a row of the case table yields is covered by a row
again. This is checked on the rows, by their ends and their parity, not on the characters.

**Sigma.** What a capital sigma becomes depends on its neighbours. Lower-case text holds no capital
sigma, so its neighbours do not matter (`IsLower.not_sigma`).

Main result: `normalUuid_normalUuid`.
-/

namespace ChangeFeed.Text

/-! ## Lower case of lower case -/

namespace LowerRow

/-- The first simple lower-case form of the row. -/
def low (r : LowerRow) : Nat := (r.first + r.shift).toNat

/-- The last simple lower-case form of the row. -/
def high (r : LowerRow) : Nat := (r.last + r.shift).toNat

/-- Is the code point a simple lower-case form of the row? -/
def yields (r : LowerRow) (n : Nat) : Bool :=
  Nat.ble r.low n && Nat.ble n r.high && Nat.beq ((n - r.low) % r.step) 0

/-- Between `low` and `high` in steps of `step` the row holds no code point. Where the ranges
overlap parity tells them apart. -/
def avoids (r : LowerRow) (low high step : Nat) : Bool :=
  Nat.blt high r.first || Nat.blt r.last low ||
    (Nat.beq r.step 2 && (Nat.beq step 2 || Nat.beq low high) &&
      Nat.beq ((low + r.first) % 2) 1)

variable {r s : LowerRow} {n : Nat}

theorem yields_of_covers (hr : r ∈ lowerRows) (h : r.covers n = true) :
    r.yields (n + r.shift).toNat = true := by
  have hle := le_lowerRows r hr
  simp only [covers, Bool.and_eq_true, decide_eq_true_eq, beq_iff_eq] at h
  simp only [yields, low, high, Bool.and_eq_true, Nat.ble_eq, Nat.beq_eq]
  obtain ⟨⟨hfirst, hlast⟩, hmod⟩ := h
  have hsub : (n + r.shift).toNat - (r.first + r.shift).toNat = n - r.first := by omega
  rw [hsub]
  omega

theorem not_covers_of_avoids (h : s.avoids r.low r.high r.step = true)
    (hn : r.yields n = true) : s.covers n = false := by
  rw [Bool.eq_false_iff]
  intro hc
  simp only [covers, Bool.and_eq_true, decide_eq_true_eq, beq_iff_eq] at hc
  simp only [yields, Bool.and_eq_true, Nat.ble_eq, Nat.beq_eq] at hn
  simp only [avoids, Bool.or_eq_true, Bool.and_eq_true, Nat.blt_eq, Nat.beq_eq] at h
  obtain ⟨⟨hfirst, hlast⟩, hmod⟩ := hc
  obtain ⟨⟨hlow, hhigh⟩, hstep⟩ := hn
  rcases h with (h | h) | ⟨⟨hr, h | h⟩, hparity⟩
  · omega
  · omega
  · rw [hr] at hmod
    rw [h] at hstep
    omega
  · rw [hr] at hmod
    omega

end LowerRow

/-- The table maps no simple lower-case form again. -/
theorem avoids_lowerRows :
    (lowerRows.all fun r => lowerRows.all fun s => s.avoids r.low r.high r.step) = true := by
  decide +kernel

/-- No simple lower-case form is white space or a capital I with a dot above. -/
theorem not_yields_lowerRows :
    (lowerRows.all fun r => (0x130 :: blankCodes).all fun n => !r.yields n) = true := by
  decide +kernel

/-- The character stays as it is in lower case, wherever it stands. -/
structure IsLower (c : Char) : Prop where
  not_dotted : c ≠ '\u0130'
  not_covered : ∀ r ∈ lowerRows, r.covers c.toNat = false

theorem IsLower.not_sigma {c : Char} (h : IsLower c) : c ≠ 'Σ' := by
  have hsigma : ∃ r ∈ lowerRows, r.covers 'Σ'.toNat = true := by decide +kernel
  obtain ⟨r, hr, hc⟩ := hsigma
  rintro rfl
  rw [h.not_covered r hr] at hc
  cases hc

theorem IsLower.lowerChar_eq {c : Char} (h : IsLower c) : lowerChar c = [c] := by
  have hnone : lowerRows.find? (·.covers c.toNat) = none :=
    List.find?_eq_none.2 fun r hr => Bool.eq_false_iff.1 (h.not_covered r hr)
  rw [lowerChar, if_neg h.not_dotted, lowerSimple, hnone]

/-- The simple lower-case form of a character is the character itself, what a row yields, or a
zero. -/
theorem lowerSimple_cases (c : Char) :
    (lowerSimple c = c ∧ ∀ r ∈ lowerRows, r.covers c.toNat = false) ∨
      (∃ r ∈ lowerRows, r.yields (lowerSimple c).toNat = true) ∨ (lowerSimple c).toNat = 0 := by
  unfold lowerSimple
  cases h : lowerRows.find? (·.covers c.toNat) with
  | none => exact Or.inl ⟨rfl, fun r hr => Bool.eq_false_iff.2 (List.find?_eq_none.1 h r hr)⟩
  | some r =>
    refine Or.inr ?_
    have hmem := List.mem_of_find?_eq_some h
    have hcovers : r.covers c.toNat = true := by simpa using List.find?_some h
    have hyields := LowerRow.yields_of_covers hmem hcovers
    rcases toNat_ofNat (c.toNat + r.shift).toNat with hn | hn
    · exact Or.inl ⟨r, hmem, hn ▸ hyields⟩
    · exact Or.inr hn

theorem isLower_of_toNat_eq_zero {c : Char} (h : c.toNat = 0) : IsLower c where
  not_dotted := by
    rintro rfl
    cases h
  not_covered := by
    rw [h]
    decide +kernel

theorem ne_of_yields {r : LowerRow} (hr : r ∈ lowerRows) {n : Nat} (h : r.yields n = true) :
    ∀ k ∈ 0x130 :: blankCodes, n ≠ k := by
  rintro k hk rfl
  have hno := List.all_eq_true.1 (List.all_eq_true.1 not_yields_lowerRows r hr) n hk
  rw [h] at hno
  cases hno

theorem isLower_lowerSimple {c : Char} (hdot : c ≠ '\u0130') : IsLower (lowerSimple c) := by
  rcases lowerSimple_cases c with ⟨he, hn⟩ | ⟨r, hr, hy⟩ | h0
  · rw [he]
    exact ⟨hdot, hn⟩
  · refine ⟨fun he => ?_, fun s hs => ?_⟩
    · exact ne_of_yields hr hy 0x130 List.mem_cons_self (congrArg Char.toNat he)
    · exact LowerRow.not_covers_of_avoids
        (List.all_eq_true.1 (List.all_eq_true.1 avoids_lowerRows r hr) s hs) hy
  · exact isLower_of_toNat_eq_zero h0

theorem isLower_lowerChar {c d : Char} (h : d ∈ lowerChar c) : IsLower d := by
  unfold lowerChar at h
  split at h
  · rw [List.mem_cons, List.mem_singleton] at h
    rcases h with rfl | rfl
    · exact ⟨by decide, by decide +kernel⟩
    · exact ⟨by decide, by decide +kernel⟩
  · rename_i hdot
    rw [List.mem_singleton] at h
    exact h ▸ isLower_lowerSimple hdot

/-- The characters that stand for one character in lower case. -/
def lowerHere (before : List Char) (c : Char) (rest : List Char) : List Char :=
  if c = 'Σ' then [if startsCased before && !startsCased rest then 'ς' else 'σ'] else lowerChar c

theorem isLower_lowerHere {before rest : List Char} {c d : Char}
    (h : d ∈ lowerHere before c rest) : IsLower d := by
  unfold lowerHere at h
  split at h
  · rw [List.mem_singleton] at h
    split at h
    · exact h ▸ ⟨by decide, by decide +kernel⟩
    · exact h ▸ ⟨by decide, by decide +kernel⟩
  · exact isLower_lowerChar h

theorem lowerAfter_cons (before : List Char) (c : Char) (rest : List Char) :
    lowerAfter before (c :: rest) = lowerHere before c rest ++ lowerAfter (c :: before) rest :=
  rfl

theorem lowerHere_ne_nil (before : List Char) (c : Char) (rest : List Char) :
    lowerHere before c rest ≠ [] := by
  unfold lowerHere lowerChar
  split
  · exact List.cons_ne_nil _ _
  · split <;> exact List.cons_ne_nil _ _

theorem isLower_of_mem_lowerAfter {before cs : List Char} {c : Char}
    (h : c ∈ lowerAfter before cs) : IsLower c := by
  induction cs generalizing before with
  | nil => cases h
  | cons d cs ih =>
    rw [lowerAfter_cons, List.mem_append] at h
    rcases h with h | h
    · exact isLower_lowerHere h
    · exact ih h

theorem lowerAfter_of_isLower {cs : List Char} (h : ∀ c ∈ cs, IsLower c) (before : List Char) :
    lowerAfter before cs = cs := by
  induction cs generalizing before with
  | nil => rfl
  | cons c cs ih =>
    have hc := h c List.mem_cons_self
    rw [lowerAfter_cons, lowerHere, if_neg hc.not_sigma, hc.lowerChar_eq,
      ih fun d hd => h d (List.mem_cons_of_mem _ hd)]
    rfl

/-- Lower case has itself as its lower case. -/
theorem lowerChars_lowerChars (cs : List Char) : lowerChars (lowerChars cs) = lowerChars cs :=
  lowerAfter_of_isLower (fun _ hc => isLower_of_mem_lowerAfter hc) []

/-! ## Lower case and white space -/

theorem isBlank_lowerHere {before rest : List Char} {c d : Char} (hc : isBlank c = false)
    (h : d ∈ lowerHere before c rest) : isBlank d = false := by
  unfold lowerHere at h
  split at h
  · rw [List.mem_singleton] at h
    split at h <;> exact h ▸ by decide
  · unfold lowerChar at h
    split at h
    · rw [List.mem_cons, List.mem_singleton] at h
      rcases h with rfl | rfl <;> decide
    · rw [List.mem_singleton] at h
      subst h
      rcases lowerSimple_cases c with ⟨he, -⟩ | ⟨r, hr, hy⟩ | h0
      · rwa [he]
      · refine Bool.eq_false_iff.2 fun hb => ?_
        exact ne_of_yields hr hy _ (List.mem_cons_of_mem _ (isBlank_iff.1 hb)) rfl
      · rw [isBlank, h0]
        decide

/-! ## Trimmed texts -/

/-- No white space stands at either end. -/
structure Trimmed (cs : List Char) : Prop where
  head : ∀ c ∈ cs.head?, isBlank c = false
  last : ∀ c ∈ cs.getLast?, isBlank c = false

theorem dropWhile_isBlank_of_head {cs : List Char} (h : ∀ c ∈ cs.head?, isBlank c = false) :
    cs.dropWhile isBlank = cs := by
  cases cs with
  | nil => rfl
  | cons c cs => exact List.dropWhile_cons_of_neg (Bool.eq_false_iff.1 (h c rfl))

theorem Trimmed.trimChars_eq {cs : List Char} (h : Trimmed cs) : trimChars cs = cs := by
  rw [trimChars, dropWhile_isBlank_of_head h.head, dropWhile_isBlank_of_head, List.reverse_reverse]
  intro c hc
  exact h.last c (by rwa [List.head?_reverse] at hc)

theorem head?_dropWhile_isBlank (cs : List Char) :
    ∀ c ∈ (cs.dropWhile isBlank).head?, isBlank c = false := by
  intro c hc
  have h := List.head?_dropWhile_not isBlank cs
  rw [hc] at h
  simpa using h

theorem trimmed_trimChars (cs : List Char) : Trimmed (trimChars cs) where
  last := by
    intro c hc
    rw [trimChars, List.getLast?_reverse] at hc
    exact head?_dropWhile_isBlank _ c hc
  head := by
    -- What is left is the beginning of the text without the white space in front.
    intro c hc
    obtain ⟨ds, hds⟩ := List.reverse_prefix.2
      (List.dropWhile_suffix (l := (cs.dropWhile isBlank).reverse) isBlank)
    rw [List.reverse_reverse] at hds
    refine head?_dropWhile_isBlank cs c ?_
    rw [trimChars] at hc
    rw [← hds, List.head?_append, hc]
    rfl

theorem trimmed_append {cs ds : List Char} (hc : ∀ c ∈ (cs ++ ds).head?, isBlank c = false)
    (hd : ∀ d ∈ ds.getLast?, isBlank d = false) (hne : ds ≠ []) : Trimmed (cs ++ ds) where
  head := hc
  last := by
    intro c h
    rw [List.getLast?_append, List.getLast?_eq_some_getLast hne] at h
    exact hd c (by rw [List.getLast?_eq_some_getLast hne]; exact h)

/-- The last character is lowered with nothing after it. -/
theorem exists_lowerAfter_concat (before cs : List Char) (c : Char) :
    ∃ ds bs, lowerAfter before (cs ++ [c]) = ds ++ lowerHere bs c [] := by
  induction cs generalizing before with
  | nil =>
    refine ⟨[], before, ?_⟩
    rw [List.nil_append, lowerAfter_cons, lowerAfter, List.append_nil, List.nil_append]
  | cons d cs ih =>
    obtain ⟨ds, bs, h⟩ := ih (d :: before)
    refine ⟨lowerHere before d (cs ++ [c]) ++ ds, bs, ?_⟩
    rw [List.cons_append, lowerAfter_cons, h, List.append_assoc]

/-- A trimmed text is trimmed in lower case. -/
theorem Trimmed.lowerChars {cs : List Char} (h : Trimmed cs) : Trimmed (lowerChars cs) where
  head := by
    intro c hc
    cases cs with
    | nil => cases hc
    | cons d cs =>
      have hne := lowerHere_ne_nil [] d cs
      rw [Text.lowerChars, lowerAfter_cons, List.head?_append, List.head?_eq_some_head hne] at hc
      obtain rfl := Option.some.inj hc
      exact isBlank_lowerHere (h.head d rfl) (List.head_mem hne)
  last := by
    intro c hc
    rcases List.eq_nil_or_concat cs with rfl | ⟨ds, d, rfl⟩
    · cases hc
    · rw [List.concat_eq_append] at h hc
      obtain ⟨es, bs, he⟩ := exists_lowerAfter_concat [] ds d
      have hne := lowerHere_ne_nil bs d []
      rw [Text.lowerChars, he, List.getLast?_append, List.getLast?_eq_some_getLast hne] at hc
      obtain rfl := Option.some.inj hc
      exact isBlank_lowerHere (h.last d (by simp)) (List.getLast_mem hne)

/-- White space is in lower case. -/
theorem isLower_of_isBlank {c : Char} (h : isBlank c = true) : IsLower c where
  not_dotted := by
    rintro rfl
    exact absurd h (by decide)
  not_covered r hr := by
    have hno : (blankCodes.all fun n => lowerRows.all fun r => !r.covers n) = true := by
      decide +kernel
    have hrow := List.all_eq_true.1 (List.all_eq_true.1 hno c.toNat (isBlank_iff.1 h)) r hr
    simpa using hrow

theorem lowerHere_of_isBlank {c : Char} (h : isBlank c = true) (before rest : List Char) :
    lowerHere before c rest = [c] := by
  have hc := isLower_of_isBlank h
  rw [lowerHere, if_neg hc.not_sigma, hc.lowerChar_eq]

/-- Lower case leaves the white space at the ends where it is. -/
theorem trimmed_lowerChars_iff {cs : List Char} : Trimmed (lowerChars cs) ↔ Trimmed cs := by
  refine ⟨fun h => ⟨fun c hc => ?_, fun c hc => ?_⟩, Trimmed.lowerChars⟩
  · obtain ⟨ds, rfl⟩ := List.head?_eq_some_iff.1 hc
    refine Bool.eq_false_iff.2 fun hb => ?_
    have hhead := h.head c (by rw [lowerChars, lowerAfter_cons, lowerHere_of_isBlank hb]; rfl)
    rw [hb] at hhead
    cases hhead
  · obtain ⟨ds, rfl⟩ := List.getLast?_eq_some_iff.1 hc
    refine Bool.eq_false_iff.2 fun hb => ?_
    obtain ⟨es, bs, he⟩ := exists_lowerAfter_concat [] ds c
    have hlast := h.last c (by rw [lowerChars, he, lowerHere_of_isBlank hb]; simp)
    rw [hb] at hlast
    cases hlast

end ChangeFeed.Text

namespace ChangeFeed

/-- The usual spelling of a UUID is trimmed. -/
theorem trimmed_normalUuid (cs : List Char) : Text.Trimmed (normalUuid cs) :=
  (Text.trimmed_trimChars cs).lowerChars

/-- **One spelling.** The usual spelling of a UUID is its own usual spelling. -/
theorem normalUuid_normalUuid (cs : List Char) : normalUuid (normalUuid cs) = normalUuid cs := by
  have htrim := (trimmed_normalUuid cs).trimChars_eq
  rw [normalUuid, htrim]
  exact Text.lowerChars_lowerChars (Text.trimChars cs)

end ChangeFeed
