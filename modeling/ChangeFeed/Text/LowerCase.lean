import ChangeFeed.Text.CaseTable

/-!
# Lower case

The full lower-case mapping of a text. All letters are mapped one by one except two: a capital I
with a dot above becomes two characters, and a capital sigma takes its final form at the end of a
word.
-/

namespace ChangeFeed.Text

/-- The simple lower-case form of a character. -/
def lowerSimple (c : Char) : Char :=
  match lowerRows.find? (·.covers c.toNat) with
  | some r => Char.ofNat (c.toNat + r.shift).toNat
  | none => c

/-- The lower-case form of a character that stands alone. -/
def lowerChar (c : Char) : List Char :=
  if c = '\u0130' then ['i', '\u0307'] else [lowerSimple c]

/-- Is the code point in one of the ranges? -/
def inRanges (rs : List (Nat × Nat)) (n : Nat) : Bool :=
  rs.any fun r => decide (r.1 ≤ n) && decide (n ≤ r.2)

/-- Does a cased letter come first, ignorable characters apart? -/
def startsCased (cs : List Char) : Bool :=
  match cs.dropWhile (fun c => inRanges ignorableRanges c.toNat) with
  | c :: _ => inRanges casedRanges c.toNat
  | [] => false

/-- Lower case of the characters that follow `before`, which is written backwards. A sigma is final
when a letter stands before it and none after it. -/
def lowerAfter (before : List Char) : List Char → List Char
  | [] => []
  | c :: rest =>
    let here :=
      if c = 'Σ' then [if startsCased before && !startsCased rest then 'ς' else 'σ']
      else lowerChar c
    here ++ lowerAfter (c :: before) rest

/-- Lower case of a list of characters. -/
def lowerChars (cs : List Char) : List Char :=
  lowerAfter [] cs

/-! ## Characters before the small letters -/

theorem le_lowerRows : ∀ r ∈ lowerRows, 97 ≤ (r.first : Int) + r.shift := by decide +kernel

theorem toNat_ofNat (n : Nat) : (Char.ofNat n).toNat = n ∨ (Char.ofNat n).toNat = 0 := by
  by_cases hv : n.isValidChar
  · exact Or.inl (congrArg Char.toNat (dif_pos hv))
  · exact Or.inr (congrArg Char.toNat (dif_neg hv))

theorem lowerSimple_eq {c d : Char} (h : lowerSimple d = c) (hc : 0 < c.toNat ∧ c.toNat < 97) :
    d = c := by
  rw [lowerSimple] at h
  split at h
  · rename_i r hr
    have hle := le_lowerRows r (List.mem_of_find?_eq_some hr)
    have hcov := List.find?_some hr
    simp only [LowerRow.covers, Bool.and_eq_true, decide_eq_true_eq] at hcov
    rcases toNat_ofNat (d.toNat + r.shift).toNat with hn | hn
    · rw [h] at hn
      omega
    · rw [h] at hn
      omega
  · exact h

theorem eq_of_mem_lowerChar {c d : Char} (hc : 0 < c.toNat ∧ c.toNat < 97)
    (h : c ∈ lowerChar d) : c = d := by
  rw [lowerChar] at h
  split at h
  · rw [List.mem_cons, List.mem_singleton] at h
    rcases h with rfl | rfl
    · exact absurd hc.2 (by decide)
    · exact absurd hc.2 (by decide)
  · exact (lowerSimple_eq (List.mem_singleton.1 h).symm hc).symm

/-- Lower case brings in no character before the small letters. -/
theorem mem_of_mem_lowerChars {c : Char} (hc : 0 < c.toNat ∧ c.toNat < 97) {cs : List Char}
    (h : c ∈ lowerChars cs) : c ∈ cs := by
  suffices ∀ before, c ∈ lowerAfter before cs → c ∈ cs from this [] h
  clear h
  induction cs with
  | nil => exact fun _ h => h
  | cons d cs ih =>
    intro before h
    rcases List.mem_append.1 h with h | h
    · rw [List.mem_cons]
      split at h
      · obtain rfl := List.mem_singleton.1 h
        split at hc
        · exact absurd hc.2 (by decide)
        · exact absurd hc.2 (by decide)
      · exact Or.inl (eq_of_mem_lowerChar hc h)
    · exact List.mem_cons_of_mem _ (ih _ h)

/-- Lower case of a text. -/
def lower (s : String) : String :=
  String.ofList (lowerChars s.toList)

end ChangeFeed.Text
