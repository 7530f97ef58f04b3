import ChangeFeed.Json.Reader
import Mathlib.Data.List.Basic
import Mathlib.Tactic.Common

/-!
# Quoted strings read back

**One byte** (`quotedByte_cases`). Between quotes a byte stands for itself, for an escape of one
letter, or for an escape of four hexadecimal digits. Both the reader of tokens and the reader of
escapes take it as one piece.

**UTF-8** (`IsText`). Escapes are ASCII and the bytes of longer characters stand as they are, so
what stands between quotes is a text again.

Main results: `unquoted?_quoted`, `readRaw?_quoted` and `isText_quoted`.
-/

namespace ChangeFeed

/-! ## Texts in UTF-8 -/

theorem utf8_eq (s : String) : utf8 s = s.toList.flatMap String.utf8EncodeChar := by
  have h : (String.ofList s.toList).toByteArray = _ := String.toByteArray_ofList
  rw [String.ofList_toList] at h
  rw [utf8, String.toUTF8, h, List.utf8Encode]
  simp

theorem utf8_append (s t : String) : utf8 (s ++ t) = utf8 s ++ utf8 t := by
  simp [utf8_eq]

/-- The bytes are a text in UTF-8. -/
def IsText (bs : List UInt8) : Prop := ∃ s, utf8 s = bs

theorem IsText.append {bs cs : List UInt8} (hb : IsText bs) (hc : IsText cs) :
    IsText (bs ++ cs) := by
  obtain ⟨s, rfl⟩ := hb
  obtain ⟨t, rfl⟩ := hc
  exact ⟨s ++ t, utf8_append s t⟩

theorem IsText.utf8_ofUtf8? {bs : List UInt8} (h : IsText bs) :
    utf8 ((ofUtf8? bs).getD "") = bs := by
  obtain ⟨s, rfl⟩ := h
  rw [ofUtf8?_utf8, Option.getD_some]

theorem isText_nil : IsText [] := ⟨"", by simp [utf8_eq]⟩

theorem isText_char (c : Char) : IsText (String.utf8EncodeChar c) :=
  ⟨String.ofList [c], by simp [utf8_eq]⟩

theorem isText_byte {b : UInt8} (h : b < 0x80) : IsText [b] := by
  have hchar : ∀ n < 128, String.utf8EncodeChar (Char.ofNat n) = [UInt8.ofNat n] := by decide
  have htext := isText_char (Char.ofNat b.toNat)
  rwa [hchar _ (UInt8.lt_iff_toNat_lt.1 h), UInt8.ofNat_toNat] at htext

theorem isText_ascii {bs : List UInt8} (h : bs.all (· < 0x80) = true) : IsText bs := by
  induction bs with
  | nil => exact isText_nil
  | cons b bs ih =>
    rw [List.all_cons, Bool.and_eq_true, decide_eq_true_iff] at h
    exact (isText_byte h.1).append (ih h.2)

/-- A character is one byte of ASCII, or bytes above ASCII. -/
theorem utf8EncodeChar_cases (c : Char) :
    (∃ b < 0x80, String.utf8EncodeChar c = [b]) ∨
      ∀ b ∈ String.utf8EncodeChar c, (0x80 : UInt8) ≤ b := by
  have hhigh : ∀ n, 128 ≤ n → n < 256 → (0x80 : UInt8) ≤ UInt8.ofNat n := by
    intro n hlow hlt
    rw [UInt8.le_iff_toNat_le, UInt8.toNat_ofNat_of_lt' hlt]
    exact hlow
  unfold String.utf8EncodeChar
  simp only
  split
  · rename_i h
    refine Or.inl ⟨_, ?_, rfl⟩
    have hlt : c.val.toNat < 128 := Nat.lt_succ_of_le h
    rw [UInt8.lt_iff_toNat_lt, UInt8.toNat_ofNat_of_lt' (Nat.lt_trans hlt (by decide))]
    exact hlt
  · refine Or.inr fun b hb => ?_
    split at hb
    · simp only [List.mem_cons, List.not_mem_nil, or_false] at hb
      rcases hb with rfl | rfl <;> exact hhigh _ (by omega) (by omega)
    · split at hb
      · simp only [List.mem_cons, List.not_mem_nil, or_false] at hb
        rcases hb with rfl | rfl | rfl <;> exact hhigh _ (by omega) (by omega)
      · simp only [List.mem_cons, List.not_mem_nil, or_false] at hb
        rcases hb with rfl | rfl | rfl | rfl <;> exact hhigh _ (by omega) (by omega)

namespace Json

/-! ## One byte -/

/-- The three ways in which a byte stands between quotes. -/
theorem quotedByte_cases (b : UInt8) :
    (quotedByte b = [b] ∧ b ≠ 0x22 ∧ b ≠ 0x5C ∧ ¬b < 0x20) ∨
      (∃ x, quotedByte b = [0x5C, x] ∧ x ≠ 0x75 ∧ escapedByte? x = some b) ∨
        ∃ h l, quotedByte b = [0x5C, 0x75, 0x30, 0x30, h, l] ∧
          fourHex? 0x30 0x30 h l = some b.toNat ∧ b < 0x20 := by
  have hletter : ∀ a x, b = a → x ≠ 0x75 → escapedByte? x = some a →
      ∃ y, [0x5C, x] = [0x5C, y] ∧ y ≠ 0x75 ∧ escapedByte? y = some b := by
    rintro a x rfl hx he
    exact ⟨x, rfl, hx, he⟩
  generalize hq : quotedByte b = q
  unfold quotedByte at hq
  split_ifs at hq with hquote hslash hback hfeed hline hreturn htab hlow <;> subst hq
  · exact Or.inr (Or.inl (hletter _ _ hquote (by decide) (by decide)))
  · exact Or.inr (Or.inl (hletter _ _ hslash (by decide) (by decide)))
  · exact Or.inr (Or.inl (hletter _ _ hback (by decide) (by decide)))
  · exact Or.inr (Or.inl (hletter _ _ hfeed (by decide) (by decide)))
  · exact Or.inr (Or.inl (hletter _ _ hline (by decide) (by decide)))
  · exact Or.inr (Or.inl (hletter _ _ hreturn (by decide) (by decide)))
  · exact Or.inr (Or.inl (hletter _ _ htab (by decide) (by decide)))
  · have hex : ∀ n < 32, fourHex? 0x30 0x30 (Ascii.ofHexDigit (n / 16))
        (Ascii.ofHexDigit (n % 16)) = some n := by decide
    exact Or.inr (Or.inr ⟨_, _, rfl, hex _ (UInt8.lt_iff_toNat_lt.1 hlow), hlow⟩)
  · exact Or.inl ⟨rfl, hquote, hslash, hlow⟩

/-! ## Reading escapes -/

theorem unescape?_of_ne {b : UInt8} (h : b ≠ 0x5C) (rest : List UInt8) :
    unescape? (b :: rest) = (unescape? rest).map (b :: ·) := by
  rw [unescape?.eq_def]
  split
  · simp_all
  · simp_all
  · simp_all
  · rename_i hb
    cases hb
    cases unescape? rest <;> rfl

theorem unescape?_quotedByte (b : UInt8) (rest : List UInt8) :
    unescape? (quotedByte b ++ rest) = (unescape? rest).map (b :: ·) := by
  rcases quotedByte_cases b with ⟨hq, -, hslash, -⟩ | ⟨x, hq, hx, he⟩ | ⟨h, l, hq, hex, hlow⟩
  · rw [hq]
    exact unescape?_of_ne hslash rest
  · rw [hq]
    simp only [List.cons_append, List.nil_append]
    rw [unescape?, he]
    · cases unescape? rest <;> rfl
    · intro _ _ _ _ _ hu
      exact absurd hu hx
  · have hcontrol : ∀ n < 32, String.utf8EncodeChar (Char.ofNat n) = [UInt8.ofNat n] := by decide
    have hlt := UInt8.lt_iff_toNat_lt.1 hlow
    have hn : b.toNat < 0xD800 ∨ 0xE000 ≤ b.toNat := Or.inl (Nat.lt_trans hlt (by decide))
    rw [hq]
    simp only [List.cons_append, List.nil_append]
    rw [unescape?, hex]
    simp only [Option.bind_eq_bind, Option.bind_some, if_pos hn, hcontrol _ hlt,
      UInt8.ofNat_toNat]
    cases unescape? rest <;> rfl

theorem unescape?_quoted (bs : List UInt8) : unescape? (bs.flatMap quotedByte) = some bs := by
  induction bs with
  | nil => rfl
  | cons b bs ih => rw [List.flatMap_cons, unescape?_quotedByte, ih, Option.map_some]

/-- Every text is spelled by what stands between its quotes. -/
@[simp] theorem unquoted?_quoted (s : String) : unquoted? (quoted s) = some s := by
  rw [unquoted?, quoted, unescape?_quoted]
  exact ofUtf8?_utf8 s

/-! ## Reading the token -/

theorem readRaw?_quotedByte (b : UInt8) (rest : List UInt8) :
    readRaw? (quotedByte b ++ rest) =
      (readRaw? rest).map fun r => (quotedByte b ++ r.1, r.2) := by
  rcases quotedByte_cases b with ⟨hq, hquote, hslash, hlow⟩ | ⟨x, hq, hx, he⟩ | ⟨h, l, hq, hex, -⟩
  · rw [hq, List.singleton_append, readRaw?.eq_def]
    split
    · simp_all
    · simp_all
    · simp_all
    · simp_all
    · rename_i hb
      cases hb
      have hplain : ¬(b < 0x20 ∨ b = Ascii.backslash) := not_or.2 ⟨hlow, hslash⟩
      rw [if_neg hplain]
      cases readRaw? rest <;> rfl
  · rw [hq]
    simp only [List.cons_append, List.nil_append]
    rw [readRaw?, he]
    · cases readRaw? rest <;> rfl
    · intro _ _ _ _ _ hu
      exact absurd hu hx
  · rw [hq]
    simp only [List.cons_append, List.nil_append]
    rw [readRaw?, hex]
    cases readRaw? rest <;> rfl

/-- The token of a text ends at its closing quote. -/
theorem readRaw?_quoted (s : String) (rest : List UInt8) :
    readRaw? (quoted s ++ Ascii.quote :: rest) = some (quoted s, rest) := by
  rw [quoted]
  induction utf8 s with
  | nil => rfl
  | cons b bs ih =>
    rw [List.flatMap_cons, List.append_assoc, readRaw?_quotedByte, ih, Option.map_some]

/-! ## The bytes between quotes are a text -/

theorem quotedByte_of_high {b : UInt8} (h : 0x80 ≤ b) : quotedByte b = [b] := by
  have hall : ∀ n < 128, quotedByte (UInt8.ofNat (n + 128)) = [UInt8.ofNat (n + 128)] := by decide
  have hlow : 128 ≤ b.toNat := UInt8.le_iff_toNat_le.1 h
  have hlt : b.toNat < 256 := b.toNat_lt
  have hb := hall (b.toNat - 128) (by omega)
  rwa [Nat.sub_add_cancel hlow, UInt8.ofNat_toNat] at hb

theorem isText_quotedByte {b : UInt8} (h : b < 0x80) : IsText (quotedByte b) := by
  have hall : ∀ n < 128, (quotedByte (UInt8.ofNat n)).all (· < 0x80) = true := by decide
  have hb := hall b.toNat (UInt8.lt_iff_toNat_lt.1 h)
  rw [UInt8.ofNat_toNat] at hb
  exact isText_ascii hb

theorem isText_quotedChar (c : Char) : IsText ((String.utf8EncodeChar c).flatMap quotedByte) := by
  rcases utf8EncodeChar_cases c with ⟨b, hlt, hb⟩ | hhigh
  · rw [hb, List.flatMap_singleton]
    exact isText_quotedByte hlt
  · have hsame : (String.utf8EncodeChar c).flatMap quotedByte =
        (String.utf8EncodeChar c).flatMap fun b => [b] :=
      List.flatMap_congr fun b hb => quotedByte_of_high (hhigh b hb)
    rw [hsame, List.flatMap_singleton']
    exact isText_char c

/-- What stands between quotes is a text in UTF-8. -/
theorem isText_quoted (s : String) : IsText (quoted s) := by
  rw [quoted, utf8_eq]
  induction s.toList with
  | nil => exact isText_nil
  | cons c cs ih =>
    rw [List.flatMap_cons, List.flatMap_append]
    exact (isText_quotedChar c).append ih

end Json

end ChangeFeed
