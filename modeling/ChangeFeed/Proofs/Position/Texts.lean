import ChangeFeed.Proofs.Gtid.Grammar
import ChangeFeed.Proofs.Wire.RoundTrip
import Mathlib.Data.Nat.Digits.Lemmas
import Mathlib.Tactic.Positivity
import Mathlib.Tactic.Ring

/-!
# Log positions come back from their texts

**Numerals** (`Text.WordText`). A word is spelled by ASCII digits after an optional plus sign. The
digits have a decimal value, and leading zeros do not change it.

**Positions** (`PositionText`). A file that is not empty, a colon, a word, a colon and a word. Words
hold no colon, so the last two colons are those between the three parts, and all others belong to
the file. White space counts only at the ends of the whole text.

Main result: `comes_back_from_texts`, for the text `file:position:next` and for the JSON form.
-/

namespace ChangeFeed

namespace Text

/-! ## Numerals -/

/-- The value of a digit. -/
def digitValue (c : Char) : Nat := c.toNat - '0'.toNat

/-- The value of digits in decimal, the first one counting most. -/
def digitsValue (ds : List Char) : Nat := Nat.ofDigits 10 (ds.map digitValue).reverse

/-- The text spells the word: one or more ASCII digits with its value, after a plus sign or not. -/
def WordText (cs : List Char) (n : UInt64) : Prop :=
  ∃ ds, (cs = ds ∨ cs = '+' :: ds) ∧ ds ≠ [] ∧ (∀ c ∈ ds, c.isDigit = true) ∧
    digitsValue ds = n.toNat

theorem digitsValue_cons (c : Char) (cs : List Char) :
    digitsValue (c :: cs) = digitValue c * 10 ^ cs.length + digitsValue cs := by
  rw [digitsValue, List.map_cons, List.reverse_cons, Nat.ofDigits_append, Nat.ofDigits_singleton,
    List.length_reverse, List.length_map, digitsValue]
  ring

theorem digit?_of_isDigit {c : Char} (h : c.isDigit = true) : digit? c = some (digitValue c) := by
  rw [Char.isDigit, Bool.and_eq_true, decide_eq_true_eq, decide_eq_true_eq] at h
  exact if_pos h

theorem digit?_of_not_isDigit {c : Char} (h : ¬c.isDigit = true) : digit? c = none := by
  rw [Char.isDigit, Bool.and_eq_true, decide_eq_true_eq, decide_eq_true_eq] at h
  exact if_neg h

/-- Digits are read as the decimal number that they go on, if it is within the limit. -/
theorem readDigits_eq_ok {limit acc n : Nat} {excess : NumeralFault} {cs : List Char}
    (hacc : acc ≤ limit) : readDigits limit excess acc cs = .ok n ↔
      (∀ c ∈ cs, c.isDigit = true) ∧ acc * 10 ^ cs.length + digitsValue cs = n ∧ n ≤ limit := by
  induction cs generalizing acc with
  | nil =>
    simp only [readDigits, Except.ok.injEq, List.not_mem_nil, false_implies, implies_true,
      List.length_nil, pow_zero, mul_one, digitsValue, List.map_nil, List.reverse_nil,
      Nat.ofDigits_nil, add_zero, true_and]
    exact ⟨fun h => ⟨h, h ▸ hacc⟩, fun h => h.1⟩
  | cons c cs ih =>
    by_cases hc : c.isDigit = true
    · have hvalue : acc * 10 ^ (c :: cs).length + digitsValue (c :: cs) =
          (acc * 10 + digitValue c) * 10 ^ cs.length + digitsValue cs := by
        rw [digitsValue_cons, List.length_cons, pow_succ]
        ring
      rw [hvalue, readDigits, digit?_of_isDigit hc, List.forall_mem_cons, and_iff_right hc]
      dsimp only
      split
      · rename_i hlt
        -- What follows can only make the number larger.
        have hle : acc * 10 + digitValue c ≤ (acc * 10 + digitValue c) * 10 ^ cs.length :=
          Nat.le_mul_of_pos_right _ (by positivity)
        refine iff_of_false (by simp) ?_
        rintro ⟨-, rfl, hn⟩
        omega
      · rename_i hle
        exact ih (Nat.le_of_not_lt hle)
    · rw [readDigits, digit?_of_not_isDigit hc, List.forall_mem_cons]
      exact iff_of_false (by simp) fun h => hc h.1.1

/-- Digits are read as the word that has their value. -/
theorem readDigits_map_eq_ok {ds : List Char} {n : UInt64} :
    (readDigits (UInt64.size - 1) .tooLarge 0 ds).map UInt64.ofNat = .ok n ↔
      (∀ c ∈ ds, c.isDigit = true) ∧ digitsValue ds = n.toNat := by
  have hread := fun m =>
    @readDigits_eq_ok (UInt64.size - 1) 0 m .tooLarge ds (Nat.zero_le (UInt64.size - 1))
  simp only [zero_mul, zero_add] at hread
  have hsize : 0 < UInt64.size := by decide
  constructor
  · intro h
    cases hr : readDigits (UInt64.size - 1) .tooLarge 0 ds with
    | error f =>
      rw [hr] at h
      cases h
    | ok m =>
      rw [hr] at h
      cases h
      obtain ⟨hall, rfl, hle⟩ := (hread m).1 hr
      exact ⟨hall, (UInt64.toNat_ofNat_of_lt' (by omega)).symm⟩
  · rintro ⟨hall, hv⟩
    rw [(hread n.toNat).2 ⟨hall, hv, Nat.le_sub_one_of_lt n.toNat_lt_size⟩]
    exact congrArg Except.ok (UInt64.ofNat_toNat ..)

/-- The words that are read are those that are spelled. -/
theorem readU64_eq_ok {cs : List Char} {n : UInt64} : readU64 cs = .ok n ↔ WordText cs n := by
  unfold WordText
  constructor
  · intro h
    unfold readU64 at h
    split at h
    · cases h
    · cases h
    · rename_i ds hne
      exact ⟨ds, Or.inr rfl, hne, readDigits_map_eq_ok.1 h⟩
    · rename_i hne _ _
      exact ⟨cs, Or.inl rfl, hne, readDigits_map_eq_ok.1 h⟩
  · rintro ⟨ds, hcs, hne, hds⟩
    rcases hcs with rfl | rfl
    · have hplus : '+' ∉ cs := fun hmem => absurd (hds.1 '+' hmem) (by decide)
      rw [readU64_of_not_mem hne hplus]
      exact readDigits_map_eq_ok.2 hds
    · obtain ⟨c, ds, rfl⟩ := List.exists_cons_of_ne_nil hne
      exact readDigits_map_eq_ok.2 hds

theorem WordText.colon_not_mem {cs : List Char} {n : UInt64} (h : WordText cs n) : ':' ∉ cs := by
  obtain ⟨ds, hcs, -, hall, -⟩ := h
  have hds : ':' ∉ ds := fun hmem => absurd (hall ':' hmem) (by decide)
  rcases hcs with rfl | rfl
  · exact hds
  · exact List.not_mem_cons_of_ne_of_not_mem (by decide) hds

end Text

namespace LogPosition

/-! ## Positions -/

/-- The text spells the position: a file and two words, with colons between them. -/
inductive PositionText : List Char → LogPosition → Prop where
  | intro {file : String} {a b : List Char} {position next : UInt64} (hfile : file ≠ "")
      (ha : Text.WordText a position) (hb : Text.WordText b next) :
      PositionText (file.toList ++ ':' :: a ++ ':' :: b) (plain file position next)

theorem parseOffset_eq_ok {whole : String} {cs : List Char} {n : UInt64} :
    parseOffset whole cs = .ok n ↔ Text.WordText cs n := by
  rw [parseOffset, ← Text.readU64_eq_ok]
  cases Text.readU64 cs with
  | error f => simp
  | ok m => simp

/-- **The texts that are read.** -/
theorem parse_eq_ok {s : String} {p : LogPosition} :
    parse s = .ok p ↔ PositionText (Text.trimChars s.toList) p := by
  unfold parse
  constructor
  · intro h
    split at h
    · cases h
    · rename_i front b hlast
      split at h
      · cases h
      · rename_i file a hfront
        split at h
        · cases h
        · rename_i hfile
          obtain ⟨position, ha, h⟩ := bind_eq_ok.1 h
          obtain ⟨next, hb, h⟩ := bind_eq_ok.1 h
          cases h
          have hne : String.ofList file ≠ "" := fun he => by simp_all
          rw [Text.eq_append_of_cutLast? hlast, Text.eq_append_of_cutLast? hfront]
          have htext := PositionText.intro hne (parseOffset_eq_ok.1 ha) (parseOffset_eq_ok.1 hb)
          simpa using htext
  · generalize Text.trimChars s.toList = cs
    rintro @⟨file, a, b, position, next, hfile, ha, hb⟩
    have hempty : file.toList.isEmpty = false := by simpa using hfile
    simp only [Text.cutLast?_append hb.colon_not_mem, Text.cutLast?_append ha.colon_not_mem, hempty]
    refine bind_eq_ok.2 ⟨position, parseOffset_eq_ok.2 ha, ?_⟩
    refine bind_eq_ok.2 ⟨next, parseOffset_eq_ok.2 hb, ?_⟩
    exact congrArg (fun f => Except.ok (plain f position next)) String.ofList_toList

theorem toList_render (p : LogPosition) : p.render.toList = p.file.toList ++
    ':' :: Text.digits p.position.toNat ++ ':' :: Text.digits p.next.toNat :=
  String.toList_ofList

/-- What is written of a position spells it. -/
theorem positionText_render {file : String} (hfile : file ≠ "") (position next : UInt64) :
    PositionText (plain file position next).render.toList (plain file position next) := by
  have hword : ∀ n : UInt64, Text.WordText (Text.digits n.toNat) n := fun n =>
    Text.readU64_eq_ok.1 (Text.readU64_digits n)
  rw [toList_render]
  exact .intro hfile (hword position) (hword next)

/-- A text of a position ends with a digit, so only white space before the file is at its ends. -/
theorem trimmed_render {p : LogPosition} (hne : p.file.toList ≠ [])
    (hhead : ∀ c ∈ p.file.toList.head?, Text.isBlank c = false) : Text.Trimmed p.render.toList := by
  rw [toList_render, List.append_cons]
  refine Text.trimmed_append (fun c hc => ?_) (fun c hc => ?_) (Text.digits_ne_nil p.next.toNat)
  · rw [List.append_assoc, List.append_assoc, List.head?_append_of_ne_nil _ hne] at hc
    exact hhead c hc
  · exact Text.isBlank_of_mem_digits (List.mem_of_getLast? hc)

/-- What was read from a text is read again from its own text: both texts begin with its file. -/
theorem parse_render_of_parse {s : String} {p : LogPosition} (h : parse s = .ok p) :
    parse p.render = .ok p := by
  have htrimmed := Text.trimmed_trimChars s.toList
  rw [parse_eq_ok] at h
  generalize Text.trimChars s.toList = cs at h htrimmed
  obtain @⟨file, a, b, position, next, hfile, -, -⟩ := h
  have hne : file.toList ≠ [] := fun he => hfile (String.toList_eq_nil_iff.1 he)
  have hhead := htrimmed.head
  rw [List.append_assoc, List.head?_append_of_ne_nil _ hne] at hhead
  have hagain : Text.Trimmed (plain file position next).render.toList := trimmed_render hne hhead
  rw [parse_eq_ok, hagain.trimChars_eq]
  exact positionText_render hfile position next

/-- **Positions come back from their texts.** A text is read as a position exactly if, without the
white space at its ends, it is a file that is not empty and two words with colons between them; the
position has that file and those words. The text of a position that was read is read as the same
position. The JSON form of a position is read as the position, whatever its file and its server are
called, without transactions, with none of them or with some. -/
theorem comes_back_from_texts :
    (∀ s p, parse s = .ok p ↔ PositionText (Text.trimChars s.toList) p) ∧
    (∀ s p, parse s = .ok p → parse p.render = .ok p) ∧
    ∀ p : LogPosition, p.Portable →
      JsonForm.read? (JsonForm.write p) = some p ∧ JsonForm.parse? (JsonForm.text p) = some p :=
  ⟨fun _ _ => parse_eq_ok, fun _ _ h => parse_render_of_parse h, fun _ h =>
    ⟨(faithful_position h).read?_write, (faithful_position h).parse?_text⟩⟩

/-- A file with colons and with white space at its end, words with a plus sign and with zeros in
front, the largest word, and a position whose file has no text at all and that carries no
transactions but says so. -/
theorem comes_back_from_texts_colons :
    let p : LogPosition := plain ":a: .7 " 7 18446744073709551615
    let q : LogPosition := ⟨"", 0, 1, some .empty, some " Ä\""⟩
    (parse "\t:a: .7 :+007:18446744073709551615\n" = .ok p ∧ parse p.render = .ok p) ∧
      JsonForm.read? (JsonForm.write q) = some q ∧
      JsonForm.read? (JsonForm.write { q with gtids := none }) = some { q with gtids := none } := by
  intro p q
  obtain ⟨hread, hagain, hjson⟩ := comes_back_from_texts
  have hfirst : Text.WordText "+007".toList 7 := Text.readU64_eq_ok.1 rfl
  have hlast : Text.WordText "18446744073709551615".toList 18446744073709551615 :=
    Text.readU64_eq_ok.1 rfl
  have htrim : Text.trimChars "\t:a: .7 :+007:18446744073709551615\n".toList =
      ":a: .7 ".toList ++ ':' :: "+007".toList ++ ':' :: "18446744073709551615".toList := by
    decide +kernel
  have hp : parse "\t:a: .7 :+007:18446744073709551615\n" = .ok p := by
    rw [hread, htrim]
    exact .intro (by decide) hfirst hlast
  have hq : q.Portable := fun s hs => ⟨"", by rw [← Option.some.inj hs]; rfl⟩
  exact ⟨⟨hp, hagain _ p hp⟩, (hjson q hq).1, (hjson { q with gtids := none } nofun).1⟩

end LogPosition

end ChangeFeed
