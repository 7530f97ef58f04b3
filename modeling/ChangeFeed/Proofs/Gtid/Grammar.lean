import ChangeFeed.Proofs.Gtid.Pairs
import ChangeFeed.Proofs.Gtid.Spelling
import Mathlib.Data.List.DropRight

/-!
# The grammar of sets of transaction ids

**The grammar.** A text without its line feeds is cut at its commas (`parts`). A part is blank, or
it names a server and after it, each after a colon, one or more ranges (`ServerText`). A range is a
numeral, or two in order with a dash between them (`RangeText`). White space may surround parts,
UUIDs, ranges and numerals.

**White space** (`Framed`). Trimming takes off a frame of white space. Colons, dashes and digits are
not white space, so a frame around a part only moves into its UUID and its last range, which are
trimmed themselves.

Main result: `parse_grammar`. The texts that are read are those of the grammar, and what they are
read as holds the ids that the ranges hold.
-/

namespace ChangeFeed

namespace Text

/-! ## White space -/

/-- There is only white space. -/
def Blank (cs : List Char) : Prop := ∀ c ∈ cs, isBlank c = true

instance (cs : List Char) : Decidable (Blank cs) := List.decidableBAll _ cs

theorem blank_nil : Blank [] := fun _ h => absurd h List.not_mem_nil

theorem Blank.not_mem {cs : List Char} (h : Blank cs) {c : Char} (hc : isBlank c = false) :
    c ∉ cs := by
  intro hmem
  rw [h c hmem] at hc
  cases hc

theorem trimChars_blank_append {pre : List Char} (h : Blank pre) (cs : List Char) :
    trimChars (pre ++ cs) = trimChars cs := by
  rw [trimChars, List.dropWhile_append_of_pos h, trimChars]

theorem trimChars_append_blank {post : List Char} (h : Blank post) (cs : List Char) :
    trimChars (cs ++ post) = trimChars cs := by
  have hpost : ∀ c ∈ post.reverse, isBlank c = true := fun c hc => h c (List.mem_reverse.1 hc)
  rw [trimChars, List.dropWhile_append, trimChars]
  split
  · rename_i hnil
    rw [List.isEmpty_iff.1 hnil, List.dropWhile_eq_nil_iff.2 h]
  · rw [List.reverse_append, List.dropWhile_append_of_pos hpost]

/-- What trimming leaves stands in a frame of white space. -/
theorem exists_frame (cs : List Char) :
    ∃ pre post, Blank pre ∧ Blank post ∧ cs = pre ++ (trimChars cs ++ post) := by
  refine ⟨cs.takeWhile isBlank, (cs.dropWhile isBlank).rtakeWhile isBlank,
    fun c hc => List.mem_takeWhile_imp hc, fun c hc => List.mem_rtakeWhile_imp hc, ?_⟩
  have htail : trimChars cs ++ (cs.dropWhile isBlank).rtakeWhile isBlank = cs.dropWhile isBlank :=
    List.rdropWhile_append_rtakeWhile
  rw [htail, List.takeWhile_append_dropWhile]

theorem trimChars_eq_nil {cs : List Char} : trimChars cs = [] ↔ Blank cs := by
  constructor
  · intro h
    obtain ⟨pre, post, hpre, hpost, he⟩ := exists_frame cs
    rw [he, h]
    exact fun c hc => (List.mem_append.1 hc).elim (hpre c) (hpost c)
  · exact fun h => trimChars_append_blank h []

theorem trimChars_trimChars (cs : List Char) : trimChars (trimChars cs) = trimChars cs :=
  (trimmed_trimChars cs).trimChars_eq

theorem mem_trimChars {c : Char} {cs : List Char} (hc : isBlank c = false) :
    c ∈ trimChars cs ↔ c ∈ cs := by
  refine ⟨mem_of_mem_trimChars, fun h => ?_⟩
  obtain ⟨pre, post, hpre, hpost, he⟩ := exists_frame cs
  rw [he, List.mem_append, List.mem_append] at h
  rcases h with h | h | h
  · exact absurd h (hpre.not_mem hc)
  · exact h
  · exact absurd h (hpost.not_mem hc)

theorem cutFirst?_frame {sep : Char} (hsep : isBlank sep = false) {pre post : List Char}
    (hpre : Blank pre) (hpost : Blank post) (cs : List Char) :
    cutFirst? sep (pre ++ (cs ++ post)) =
      (cutFirst? sep cs).map fun r => (pre ++ r.1, r.2 ++ post) := by
  cases h : cutFirst? sep cs with
  | none =>
    refine cutFirst?_eq_none.2 ?_
    rw [List.mem_append, List.mem_append]
    rintro (hs | hs | hs)
    · exact hpre.not_mem hsep hs
    · exact cutFirst?_eq_none.1 h hs
    · exact hpost.not_mem hsep hs
  | some r =>
    obtain ⟨rfl, hp⟩ := cutFirst?_eq_some.1 h
    refine cutFirst?_eq_some.2 ⟨by simp, ?_⟩
    rw [List.mem_append]
    exact fun hs => hs.elim (hpre.not_mem hsep) hp

/-- White space at the end of a text ends up at the end of its last piece. -/
theorem pieces_append_blank {sep : Char} {post : List Char} (hsep : sep ∉ post)
    (cs : List Char) :
    List.Forall₂ (fun p q => ∃ e, (e = [] ∨ e = post) ∧ p = q ++ e)
      (pieces sep (cs ++ post)) (pieces sep cs) := by
  induction cs with
  | nil =>
    rw [List.nil_append, pieces_of_not_mem hsep]
    exact .cons ⟨post, Or.inr rfl, rfl⟩ .nil
  | cons c cs ih =>
    rw [List.cons_append, pieces, pieces]
    split
    · exact .cons ⟨[], Or.inl rfl, rfl⟩ ih
    · obtain ⟨p, ps, hp⟩ := List.exists_cons_of_ne_nil (pieces_ne_nil sep (cs ++ post))
      obtain ⟨q, qs, hq⟩ := List.exists_cons_of_ne_nil (pieces_ne_nil sep cs)
      rw [hp, hq] at ih ⊢
      obtain ⟨⟨e, he, rfl⟩, hs⟩ := List.forall₂_cons.1 ih
      exact .cons ⟨e, he, rfl⟩ hs

end Text

/-! ## The grammar -/

/-- The text is the numeral of the id, up to white space around it. -/
def Numeral (cs : List Char) (n : UInt64) : Prop := Text.readU64 (Text.trimChars cs) = .ok n

/-- The text is a range: one numeral, or two in order with a dash between them, up to white space
around it. -/
inductive RangeText (cs : List Char) : Interval → Prop where
  | single {n : UInt64} (h : Numeral cs n) : RangeText cs ⟨n, n⟩
  | span {a b : List Char} {n m : UInt64} (hcs : Text.trimChars cs = a ++ '-' :: b)
      (ha : Numeral a n) (hb : Numeral b m) (h : n ≤ m) : RangeText cs ⟨n, m⟩

/-- The text is a UUID, a colon, and one or more ranges with colons between them. -/
def ServerText (cs uuid : List Char) (is : List Interval) : Prop :=
  ':' ∉ uuid ∧ ∃ rs, rs ≠ [] ∧ cs = uuid ++ ':' :: Text.joinWith [':'] rs ∧
    List.Forall₂ RangeText rs is

/-- The parts between the commas of a text, whose line feeds do not count. -/
def parts (text : String) : List (List Char) :=
  Text.pieces ',' (text.toList.filter (· != '\n'))

/-! ## Ranges -/

theorem Numeral.not_mem {cs : List Char} {n : UInt64} (h : Numeral cs n) {c : Char}
    (hc : c ≠ '+' ∧ Text.digit? c = none ∧ Text.isBlank c = false) : c ∉ cs := by
  intro hmem
  rcases Text.isSome_digit?_of_readU64 h c ((Text.mem_trimChars hc.2.2).2 hmem) with he | hd
  · exact hc.1 he
  · rw [hc.2.1] at hd
    cases hd

theorem numeral_trimChars {cs : List Char} {n : UInt64} :
    Numeral (Text.trimChars cs) n ↔ Numeral cs n := by
  rw [Numeral, Text.trimChars_trimChars, Numeral]

theorem RangeText.colon_not_mem {cs : List Char} {i : Interval} (h : RangeText cs i) :
    ':' ∉ cs := by
  have hcolon : ':' ≠ '+' ∧ Text.digit? ':' = none ∧ Text.isBlank ':' = false := by decide
  cases h with
  | single h => exact h.not_mem hcolon
  | span hcs ha hb _ =>
    rw [← Text.mem_trimChars hcolon.2.2, hcs, List.mem_append, List.mem_cons]
    rintro (h | h | h)
    · exact ha.not_mem hcolon h
    · exact absurd h (by decide)
    · exact hb.not_mem hcolon h

theorem RangeText.wellFormed {cs : List Char} {i : Interval} (h : RangeText cs i) :
    i.start.toNat ≤ i.stop.toNat := by
  cases h with
  | single _ => exact Nat.le_refl _
  | span _ _ _ h => exact UInt64.le_iff_toNat_le.1 h

theorem rangeText_append_blank {post : List Char} (h : Text.Blank post) {cs : List Char}
    {i : Interval} : RangeText (cs ++ post) i ↔ RangeText cs i := by
  have he := Text.trimChars_append_blank h cs
  have hn : ∀ n, Numeral (cs ++ post) n ↔ Numeral cs n := fun n => by rw [Numeral, he, Numeral]
  constructor
  · rintro (h | ⟨hcs, ha, hb, h⟩)
    · exact .single ((hn _).1 h)
    · exact .span (he ▸ hcs) ha hb h
  · rintro (h | ⟨hcs, ha, hb, h⟩)
    · exact .single ((hn _).2 h)
    · exact .span (he ▸ hcs) ha hb h

namespace UuidSet

theorem parseNumeral_eq_ok {whole cs : List Char} {n : UInt64} :
    parseNumeral whole cs = .ok n ↔ Numeral cs n := by
  rw [parseNumeral, Numeral]
  cases Text.readU64 (Text.trimChars cs) with
  | error f => simp
  | ok m => simp

theorem parseInterval_eq_ok {whole cs : List Char} {i : Interval} :
    parseInterval whole (Text.trimChars cs) = .ok i ↔ RangeText cs i := by
  -- A dash is part of no numeral, so the text is cut where it stands.
  have hdash : '-' ≠ '+' ∧ Text.digit? '-' = none ∧ Text.isBlank '-' = false := by decide
  have hjoin := Text.joinWith_pieces '-' (Text.trimChars cs)
  constructor
  · intro h
    rw [parseInterval] at h
    split at h
    · rename_i a hp
      obtain ⟨n, hn, h⟩ := bind_eq_ok.1 h
      cases h
      rw [hp] at hjoin
      obtain rfl : a = Text.trimChars cs := hjoin
      exact .single (numeral_trimChars.1 (parseNumeral_eq_ok.1 hn))
    · rename_i a b hp
      obtain ⟨n, hn, h⟩ := bind_eq_ok.1 h
      obtain ⟨m, hm, h⟩ := bind_eq_ok.1 h
      dsimp only at h
      split at h
      · cases h
      · rename_i hlt
        cases h
        rw [hp] at hjoin
        have hcs : Text.trimChars cs = a ++ '-' :: b := by simpa [Text.joinWith] using hjoin.symm
        exact .span hcs (parseNumeral_eq_ok.1 hn) (parseNumeral_eq_ok.1 hm) (UInt64.not_lt.1 hlt)
    · cases h
  · intro h
    cases h with
    | single h =>
      have h := numeral_trimChars.2 h
      rw [parseInterval, Text.pieces_of_not_mem (h.not_mem hdash)]
      exact bind_eq_ok.2 ⟨_, parseNumeral_eq_ok.2 h, rfl⟩
    | span hcs ha hb h =>
      rw [parseInterval, hcs, Text.pieces_append (ha.not_mem hdash),
        Text.pieces_of_not_mem (hb.not_mem hdash)]
      refine bind_eq_ok.2 ⟨_, parseNumeral_eq_ok.2 ha, ?_⟩
      refine bind_eq_ok.2 ⟨_, parseNumeral_eq_ok.2 hb, ?_⟩
      rw [if_neg (UInt64.not_lt.2 h)]
      rfl

end UuidSet

/-! ## Servers -/

/-- The ranges are the pieces between the colons after the first. -/
theorem serverText_iff {cs uuid : List Char} {is : List Interval} :
    ServerText cs uuid is ↔ ∃ ranges, Text.cutFirst? ':' cs = some (uuid, ranges) ∧
      List.Forall₂ RangeText (Text.pieces ':' ranges) is := by
  constructor
  · rintro ⟨huuid, rs, hne, rfl, hrs⟩
    refine ⟨_, Text.cutFirst?_append huuid _, ?_⟩
    rw [Text.pieces_joinWith hne fun r hr => ?_]
    · exact hrs
    · obtain ⟨i, -, hi⟩ := (mem_of_forall₂ hrs).1 r hr
      exact hi.colon_not_mem
  · rintro ⟨ranges, hcut, hrs⟩
    obtain ⟨rfl, huuid⟩ := Text.cutFirst?_eq_some.1 hcut
    exact ⟨huuid, _, Text.pieces_ne_nil ':' ranges, by rw [Text.joinWith_pieces], hrs⟩

theorem ServerText.not_blank {cs uuid : List Char} {is : List Interval}
    (h : ServerText cs uuid is) : ¬Text.Blank cs := by
  obtain ⟨-, rs, -, rfl, -⟩ := h
  exact fun hb => hb.not_mem (show Text.isBlank ':' = false by decide) (by simp)

theorem ServerText.wellFormed {cs uuid : List Char} {is : List Interval}
    (h : ServerText cs uuid is) : Interval.WellFormed is := by
  obtain ⟨-, rs, -, -, hrs⟩ := h
  intro i hi
  obtain ⟨r, -, hr⟩ := (mem_of_forall₂ hrs).2 i hi
  exact hr.wellFormed

/-- White space after the ranges belongs to the last of them. -/
theorem forall₂_rangeText_append_blank {post : List Char} (h : Text.Blank post)
    (ranges : List Char) (is : List Interval) :
    List.Forall₂ RangeText (Text.pieces ':' (ranges ++ post)) is ↔
      List.Forall₂ RangeText (Text.pieces ':' ranges) is := by
  have hcolon : Text.isBlank ':' = false := by decide
  have hpieces := Text.pieces_append_blank (h.not_mem hcolon) ranges
  generalize Text.pieces ':' (ranges ++ post) = ps, Text.pieces ':' ranges = qs at hpieces ⊢
  induction hpieces generalizing is with
  | nil => rfl
  | cons hpq _ ih =>
    obtain ⟨e, he, rfl⟩ := hpq
    have hblank : Text.Blank e := he.elim (fun he => he ▸ Text.blank_nil) fun he => he ▸ h
    simp only [List.forall₂_cons_left_iff, rangeText_append_blank hblank, ih]

namespace UuidSet

/-- A part is read when it names a server and its ranges. -/
theorem parseChars_eq_ok {cs : List Char} {u : UuidSet} :
    parseChars (Text.trimChars cs) = .ok u ↔ ∃ uuid is, ServerText cs uuid is ∧
      u = ⟨String.ofList (normalUuid uuid), Interval.collapse is⟩ := by
  obtain ⟨pre, post, hpre, hpost, hcs⟩ := Text.exists_frame cs
  have hcut := Text.cutFirst?_frame (show Text.isBlank ':' = false by decide) hpre hpost
    (Text.trimChars cs)
  rw [← hcs] at hcut
  simp only [serverText_iff, hcut, parseChars, Text.trimChars_trimChars]
  cases Text.cutFirst? ':' (Text.trimChars cs) with
  | none => simp
  | some r =>
    have huuid : normalUuid (pre ++ r.1) = normalUuid r.1 := by
      rw [normalUuid, Text.trimChars_blank_append hpre, normalUuid]
    simp only [Option.map_some, Option.some.injEq, Prod.mk.injEq, bind_eq_ok, mapM_eq_ok,
      parseInterval_eq_ok]
    constructor
    · rintro ⟨is, his, h⟩
      cases h
      exact ⟨_, is, ⟨_, ⟨rfl, rfl⟩, (forall₂_rangeText_append_blank hpost _ _).2 his⟩,
        by rw [huuid]⟩
    · rintro ⟨_, is, ⟨_, ⟨rfl, rfl⟩, his⟩, rfl⟩
      exact ⟨is, (forall₂_rangeText_append_blank hpost _ _).1 his, by rw [huuid]; rfl⟩

end UuidSet

/-! ## Whole texts -/

namespace GtidSet

/-- Some part of the text names the server, in any spelling of its UUID, and a range with the id. -/
def Listed (text : String) (k : String) (n : UInt64) : Prop :=
  ∃ p ∈ parts text, ∃ uuid is, ServerText p uuid is ∧ String.ofList (normalUuid uuid) = k ∧
    Interval.Holds is n

theorem mem_serverParts {text : String} {p : List Char} : p ∈ serverParts text.toList ↔
    ∃ q ∈ parts text, ¬Text.Blank q ∧ Text.trimChars q = p := by
  simp only [serverParts, parts, List.mem_filter, List.mem_map, ← Text.trimChars_eq_nil]
  constructor
  · rintro ⟨⟨q, hq, rfl⟩, hne⟩
    exact ⟨q, hq, by simpa using hne, rfl⟩
  · rintro ⟨q, hq, hne, rfl⟩
    exact ⟨⟨q, hq, rfl⟩, by simpa using hne⟩

theorem exists_parse_eq_ok {text : String} : (∃ s, parse text = .ok s) ↔
    ∀ p ∈ serverParts text.toList, ∃ u, UuidSet.parseChars p = .ok u := by
  simp only [parse, parseParts_eq_ok]
  rw [exists_comm, ← exists_forall₂]
  simp

/-- **The texts that are read are those of the grammar.** -/
theorem exists_parse_iff {text : String} : (∃ s, parse text = .ok s) ↔
    ∀ p ∈ parts text, Text.Blank p ∨ ∃ uuid is, ServerText p uuid is := by
  rw [exists_parse_eq_ok]
  constructor
  · intro h p hp
    refine Classical.or_iff_not_imp_left.2 fun hb => ?_
    obtain ⟨u, hu⟩ := h _ (mem_serverParts.2 ⟨p, hp, hb, rfl⟩)
    obtain ⟨uuid, is, hs, -⟩ := UuidSet.parseChars_eq_ok.1 hu
    exact ⟨uuid, is, hs⟩
  · intro h p hp
    obtain ⟨q, hq, hb, rfl⟩ := mem_serverParts.1 hp
    obtain ⟨uuid, is, hs⟩ := (h q hq).resolve_left hb
    exact ⟨_, UuidSet.parseChars_eq_ok.2 ⟨uuid, is, hs, rfl⟩⟩

/-- **A text means its grammar.** -/
theorem mem_pairs_parse {text : String} {s : GtidSet} (h : parse text = .ok s) (k : String)
    (n : UInt64) : (k, n) ∈ s.pairs ↔ Listed text k n := by
  obtain ⟨us, hus, rfl⟩ := parseParts_eq_ok.1 h
  obtain ⟨hread, hfrom⟩ := mem_of_forall₂ hus
  have hcompact : ∀ u ∈ us, u.Compact := fun u hu =>
    have ⟨_, _, hp⟩ := hfrom u hu
    UuidSet.compact_parseChars hp
  rw [mem_pairs_foldl_merge hcompact compact_empty, pairs_empty]
  constructor
  · rintro (hn | ⟨u, hu, hk, hn⟩)
    · exact absurd hn (Set.notMem_empty _)
    · obtain ⟨p, hp, hu⟩ := hfrom u hu
      obtain ⟨q, hq, -, rfl⟩ := mem_serverParts.1 hp
      obtain ⟨uuid, is, hs, rfl⟩ := UuidSet.parseChars_eq_ok.1 hu
      exact ⟨q, hq, uuid, is, hs, hk, (Interval.holds_collapse hs.wellFormed n).1 hn⟩
  · rintro ⟨q, hq, uuid, is, hs, hk, hn⟩
    obtain ⟨u, hu, hp⟩ := hread _ (mem_serverParts.2 ⟨q, hq, hs.not_blank, rfl⟩)
    have hu' := UuidSet.parseChars_eq_ok.2 ⟨uuid, is, hs, rfl⟩
    rw [hp] at hu'
    cases hu'
    exact Or.inr ⟨_, hu, hk, (Interval.holds_collapse hs.wellFormed n).2 hn⟩

/-- **Reading follows the grammar.** A text is read exactly when each of its parts is blank or names
a server with its ranges. What it is read as holds exactly the ids that are in the ranges of some
part with that server, and a look-up finds them. -/
theorem parse_grammar (text : String) :
    ((∃ s, parse text = .ok s) ↔
      ∀ p ∈ parts text, Text.Blank p ∨ ∃ uuid is, ServerText p uuid is) ∧
    ∀ s, parse text = .ok s → ∀ k n,
      ((k, n) ∈ s.pairs ↔ Listed text k n) ∧
      (s.contains k n = true ↔ Listed text (lookupKey k) n) :=
  ⟨exists_parse_iff, fun _ h k n =>
    ⟨mem_pairs_parse h k n, contains_iff.trans (mem_pairs_parse h _ n)⟩⟩

/-- White space is around everything, a line feed stands within a number, and one server is named
twice in two spellings. -/
theorem parse_grammar_spaced :
    ∃ s, parse " AB : 1 - 3 :7\n8, ,ab:+4-18446744073709551615,\n" = .ok s ∧
      s.contains "Ab" 18446744073709551615 = true ∧ ("ab", 3) ∈ s.pairs := by
  have hparts : parts " AB : 1 - 3 :7\n8, ,ab:+4-18446744073709551615,\n" =
      [" AB : 1 - 3 :78".toList, " ".toList, "ab:+4-18446744073709551615".toList, []] := by
    decide +kernel
  have hfirst : ServerText " AB : 1 - 3 :78".toList " AB ".toList [⟨1, 3⟩, ⟨78, 78⟩] :=
    ⟨by decide, [" 1 - 3 ".toList, "78".toList], by decide, by decide,
      .cons (.span (a := "1 ".toList) (b := " 3".toList) (by decide) rfl rfl (by decide))
        (.cons (.single rfl) .nil)⟩
  have hlast : ServerText "ab:+4-18446744073709551615".toList "ab".toList
      [⟨4, 18446744073709551615⟩] :=
    ⟨by decide, ["+4-18446744073709551615".toList], by decide, by decide,
      .cons (.span (a := "+4".toList) (b := "18446744073709551615".toList)
        (by decide) rfl rfl (by decide)) .nil⟩
  obtain ⟨hread, hmeans⟩ := parse_grammar " AB : 1 - 3 :7\n8, ,ab:+4-18446744073709551615,\n"
  simp only [Listed, hparts] at hread hmeans
  obtain ⟨s, hs⟩ := hread.2 (by
    simp only [List.forall_mem_cons]
    exact ⟨.inr ⟨_, _, hfirst⟩, .inl (by decide), .inr ⟨_, _, hlast⟩, .inl Text.blank_nil,
      fun _ h => absurd h List.not_mem_nil⟩)
  refine ⟨s, hs, (hmeans s hs _ _).2.2 ?_, (hmeans s hs _ _).1.2 ?_⟩
  · exact ⟨_, by simp, _, _, hlast, by decide +kernel, _, List.mem_cons_self, by decide⟩
  · exact ⟨_, by simp, _, _, hfirst, by decide +kernel, _, List.mem_cons_self, by decide⟩

end GtidSet

end ChangeFeed
