import ChangeFeed.Proofs.Gtid.Pairs
import ChangeFeed.Proofs.Gtid.Spelling

/-!
# Reading the text of a set of transaction ids

**Legible sets** (`Legible`). Canonical sets whose UUIDs are in their usual spelling and on one
line. What a text reads as is legible, and putting in an id, an interval or another legible set
leads to legible sets.

**Reading back.** The text of a legible set reads as that set: cutting undoes joining, there is
nothing to trim, numerals read as what they were written for, intervals in normal form are their own
normal form, and the servers make up the set again.

Main result: `parse_render`.
-/

namespace ChangeFeed

/-! ## Numerals and intervals -/

namespace Text

theorem isBlank_of_mem_digits {c : Char} {n : Nat} (h : c ∈ digits n) : isBlank c = false := by
  have hfar : ∀ k ∈ blankCodes, k < '0'.toNat ∨ '9'.toNat < k := by decide
  refine Bool.eq_false_iff.2 fun hb => not_mem_digits (if_neg ?_) n h
  rintro ⟨hlow, hhigh⟩
  have hlow : '0'.toNat ≤ c.toNat := hlow
  have hhigh : c.toNat ≤ '9'.toNat := hhigh
  rcases hfar c.toNat (isBlank_iff.1 hb) with hk | hk
  · exact Nat.not_lt.2 hlow hk
  · exact Nat.not_lt.2 hhigh hk

theorem trimmed_of_forall {cs : List Char} (h : ∀ c ∈ cs, isBlank c = false) : Trimmed cs :=
  ⟨fun c hc => h c (List.mem_of_head? hc), fun c hc => h c (List.mem_of_getLast? hc)⟩

theorem trimChars_digits (n : Nat) : trimChars (digits n) = digits n :=
  (trimmed_of_forall fun _ hc => isBlank_of_mem_digits hc).trimChars_eq

end Text

namespace Interval

theorem isBlank_of_mem_render {c : Char} {i : Interval} (h : c ∈ i.render) :
    Text.isBlank c = false := by
  rw [render] at h
  split at h
  · exact Text.isBlank_of_mem_digits h
  · rcases List.mem_append.1 h with h | h
    · exact Text.isBlank_of_mem_digits h
    · rcases List.mem_cons.1 h with rfl | h
      · decide
      · exact Text.isBlank_of_mem_digits h

theorem trimChars_render (i : Interval) : Text.trimChars i.render = i.render :=
  (Text.trimmed_of_forall fun _ hc => isBlank_of_mem_render hc).trimChars_eq

/-- Intervals in normal form are their own normal form. -/
theorem collapse_of_normal {is : List Interval} (h : Normal is) : collapse is = is :=
  normal_ext (normal_collapse h.wellFormed) h (holds_collapse h.wellFormed)

end Interval

namespace UuidSet

theorem parseNumeral_digits (whole : List Char) (n : UInt64) :
    parseNumeral whole (Text.digits n.toNat) = .ok n := by
  rw [parseNumeral, Text.trimChars_digits, Text.readU64_digits]

theorem parseInterval_render (whole : List Char) {i : Interval}
    (h : i.start.toNat ≤ i.stop.toNat) :
    parseInterval whole (Text.trimChars i.render) = .ok i := by
  have hlt : ¬i.stop < i.start := UInt64.not_lt.2 (UInt64.le_iff_toNat_le.2 h)
  rw [i.trimChars_render, parseInterval, i.pieces_render]
  by_cases he : i.start = i.stop
  · rw [if_pos he]
    refine bind_eq_ok.2 ⟨i.start, parseNumeral_digits whole _, ?_⟩
    exact congrArg (fun n => Except.ok (Interval.mk i.start n)) he
  · rw [if_neg he]
    refine bind_eq_ok.2 ⟨i.start, parseNumeral_digits whole _, ?_⟩
    refine bind_eq_ok.2 ⟨i.stop, parseNumeral_digits whole _, ?_⟩
    rw [if_neg hlt]
    rfl

/-! ## One server -/

/-- The UUID is in its usual spelling and on one line. -/
structure Spelled (uuid : String) : Prop where
  normal : normalUuid uuid.toList = uuid.toList
  oneLine : '\n' ∉ uuid.toList

theorem Spelled.trimmed {uuid : String} (h : Spelled uuid) : Text.Trimmed uuid.toList :=
  h.normal ▸ trimmed_normalUuid uuid.toList

theorem spelled_normalUuid {cs : List Char} (h : '\n' ∉ cs) :
    Spelled (String.ofList (normalUuid cs)) where
  normal := by rw [String.toList_ofList, normalUuid_normalUuid]
  oneLine := by
    rw [String.toList_ofList]
    exact fun hc => h (Text.mem_of_mem_trimChars (Text.mem_of_mem_lowerChars (by decide) hc))

theorem spelled_parseChars {cs : List Char} (hcs : '\n' ∉ cs) {u : UuidSet}
    (h : parseChars cs = .ok u) : Spelled u.uuid := by
  rw [parseChars] at h
  split at h
  · cases h
  · rename_i uuid ranges hcut
    obtain ⟨is, -, h⟩ := bind_eq_ok.1 h
    cases h
    obtain ⟨htrim, -⟩ := Text.eq_append_of_cutFirst? hcut
    exact spelled_normalUuid fun hc => hcs (Text.mem_of_mem_trimChars (by simp [htrim, hc]))

theorem isBlank_of_mem_ranges {c : Char} {is : List Interval}
    (h : c ∈ Text.joinWith [':'] (is.map Interval.render)) : Text.isBlank c = false := by
  rcases Text.mem_joinWith h with h | ⟨p, hp, h⟩
  · obtain rfl := List.mem_singleton.1 h
    decide
  · obtain ⟨i, -, rfl⟩ := List.mem_map.1 hp
    exact Interval.isBlank_of_mem_render h

/-- Neither the UUID nor the intervals have white space at their ends. -/
theorem trimmed_renderChars {u : UuidSet} (h : Spelled u.uuid) : Text.Trimmed u.renderChars := by
  refine Text.trimmed_append (fun c hc => ?_) (fun c hc => ?_) (List.cons_ne_nil _ _)
  · rw [List.head?_append] at hc
    cases hu : u.uuid.toList.head? with
    | none =>
      rw [hu] at hc
      cases hc
      decide
    | some d =>
      rw [hu] at hc
      cases hc
      exact h.trimmed.head c hu
  · rcases List.mem_cons.1 (List.mem_of_getLast? hc) with rfl | hc
    · decide
    · exact isBlank_of_mem_ranges hc

theorem newline_not_mem_renderChars {u : UuidSet} (h : Spelled u.uuid) : '\n' ∉ u.renderChars := by
  rw [renderChars, List.mem_append, List.mem_cons]
  rintro (hc | hc | hc)
  · exact h.oneLine hc
  · exact absurd hc (by decide)
  · exact absurd (isBlank_of_mem_ranges hc) (by decide)

/-- The text of one server reads as what it was written for. -/
theorem parseChars_renderChars {u : UuidSet} (hu : u.Canonical) (h : Spelled u.uuid) :
    parseChars u.renderChars = .ok u := by
  have hread : ∀ i ∈ u.intervals,
      parseInterval u.renderChars (Text.trimChars i.render) = .ok i :=
    fun i hi => parseInterval_render _ (hu.normal.wellFormed i hi)
  rw [parseChars, (trimmed_renderChars h).trimChars_eq]
  rw [show Text.cutFirst? ':' u.renderChars = _ from Text.cutFirst?_append hu.plain.2 _]
  refine bind_eq_ok.2 ⟨u.intervals, ?_, ?_⟩
  · rw [pieces_intervals hu]
    exact mapM_map hread
  · rw [h.normal, String.ofList_toList, Interval.collapse_of_normal hu.normal]
    rfl

end UuidSet

/-! ## Sets -/

namespace GtidSet

/-- The set is canonical, with its UUIDs in their usual spelling. -/
structure Legible (s : GtidSet) : Prop where
  canonical : s.Canonical
  spelled : ∀ u ∈ s.toList, UuidSet.Spelled u.uuid

theorem legible_empty : empty.Legible :=
  ⟨canonical_empty, fun _ hu => absurd hu List.not_mem_nil⟩

/-! ## The operations -/

theorem legible_addInterval {s : GtidSet} (hs : s.Legible) {uuid : String}
    (hp : Plain uuid.toList) (hl : '\n' ∉ uuid.toList) {i : Interval} (hi : i.start ≤ i.stop) :
    (s.addInterval uuid i).Legible where
  canonical := canonical_addInterval hs.canonical hp hi
  spelled :=
    forall_uuid_addInterval UuidSet.Spelled hs.spelled (UuidSet.spelled_normalUuid hl) i

theorem legible_addGtid {s : GtidSet} (hs : s.Legible) {uuid : String} (hp : Plain uuid.toList)
    (hl : '\n' ∉ uuid.toList) (n : UInt64) : (s.addGtid uuid n).2.Legible where
  canonical := canonical_addGtid hs.canonical hp n
  spelled := forall_uuid_addGtid UuidSet.Spelled hs.spelled (UuidSet.spelled_normalUuid hl) n

theorem legible_foldl_merge {us : List UuidSet} (hc : ∀ u ∈ us, u.Canonical)
    (hn : ∀ u ∈ us, UuidSet.Spelled u.uuid) {s : GtidSet} (hs : s.Legible) :
    (us.foldl merge s).Legible where
  canonical := canonical_foldl_merge hc hs.canonical
  spelled := List.foldlRecOn (motive := fun t => ∀ v ∈ t.toList, UuidSet.Spelled v.uuid)
    us merge hs.spelled fun _ ht u hu => forall_uuid_merge UuidSet.Spelled ht (hn u hu)

theorem legible_union {s t : GtidSet} (hs : s.Legible) (ht : t.Legible) : (s.union t).Legible :=
  legible_foldl_merge ht.canonical ht.spelled hs

theorem legible_parseParts {ps : List (List Char)} (hps : ∀ p ∈ ps, ',' ∉ p ∧ '\n' ∉ p)
    {s t : GtidSet} (hs : s.Legible) (h : parseParts s ps = .ok t) : t.Legible := by
  obtain ⟨us, hus, rfl⟩ := parseParts_eq_ok.1 h
  obtain ⟨-, hfrom⟩ := mem_of_forall₂ hus
  refine legible_foldl_merge (fun u hu => ?_) (fun u hu => ?_) hs
  · obtain ⟨p, hp, hu⟩ := hfrom u hu
    exact UuidSet.canonical_parseChars (hps p hp).1 hu
  · obtain ⟨p, hp, hu⟩ := hfrom u hu
    exact UuidSet.spelled_parseChars (hps p hp).2 hu

theorem newline_not_mem_serverParts {cs p : List Char} (h : p ∈ serverParts cs) : '\n' ∉ p := by
  obtain ⟨q, hq, rfl⟩ := List.mem_map.1 (List.mem_filter.1 h).1
  intro hc
  have hc := Text.mem_of_mem_pieces hq (Text.mem_of_mem_trimChars hc)
  exact absurd (List.mem_filter.1 hc).2 (by decide)

theorem legible_parse {text : String} {s : GtidSet} (h : parse text = .ok s) : s.Legible :=
  legible_parseParts (fun _ hp => ⟨comma_not_mem_serverParts hp, newline_not_mem_serverParts hp⟩)
    legible_empty h

/-! ## Reading back -/

theorem newline_not_mem_renderChars {s : GtidSet} (h : s.Legible) : '\n' ∉ s.renderChars := by
  intro hc
  rcases Text.mem_joinWith hc with hc | ⟨p, hp, hc⟩
  · exact absurd hc (by decide)
  · obtain ⟨u, hu, rfl⟩ := List.mem_map.1 hp
    exact UuidSet.newline_not_mem_renderChars (h.spelled u hu) hc

theorem serverParts_renderChars {s : GtidSet} (h : s.Legible) :
    serverParts s.renderChars = s.toList.map UuidSet.renderChars := by
  have hline : s.renderChars.filter (· != '\n') = s.renderChars := by
    refine List.filter_eq_self.2 fun c hc => bne_iff_ne.2 ?_
    rintro rfl
    exact newline_not_mem_renderChars h hc
  rw [serverParts, hline]
  by_cases hne : s.toList = []
  · rw [renderChars_eq_nil_iff.2 hne, hne]
    rfl
  · rw [pieces_servers h.canonical hne, List.map_map]
    have htrim : s.toList.map (Text.trimChars ∘ UuidSet.renderChars) =
        s.toList.map UuidSet.renderChars :=
      List.map_congr_left fun u hu =>
        (UuidSet.trimmed_renderChars (h.spelled u hu)).trimChars_eq
    rw [htrim]
    refine List.filter_eq_self.2 fun p hp => ?_
    obtain ⟨u, -, rfl⟩ := List.mem_map.1 hp
    simpa using u.renderChars_ne_nil

theorem parseParts_renderChars {us : List UuidSet}
    (h : ∀ u ∈ us, UuidSet.parseChars u.renderChars = .ok u) (s : GtidSet) :
    parseParts s (us.map UuidSet.renderChars) = .ok (us.foldl merge s) := by
  induction us generalizing s with
  | nil => rfl
  | cons u us ih =>
    rw [List.map_cons, parseParts, h u List.mem_cons_self]
    exact ih (fun v hv => h v (List.mem_cons_of_mem _ hv)) (s.merge u)

/-- The servers of a set make it up. -/
theorem foldl_merge_toList {s : GtidSet} (h : s.Canonical) : s.toList.foldl merge empty = s := by
  refine eq_of_pairs_eq (canonical_foldl_merge h canonical_empty) h ?_
  ext ⟨k, n⟩
  rw [mem_pairs_foldl_merge h.compact compact_empty, pairs_empty]
  simp [pairs]

/-- **Reading undoes writing.** The text of what a text reads as reads as the same set. -/
theorem parse_render {s : GtidSet} (h : s.Legible) : parse s.render = .ok s := by
  rw [parse, render, String.toList_ofList, serverParts_renderChars h, parseParts_renderChars,
    foldl_merge_toList h.canonical]
  exact fun u hu => UuidSet.parseChars_renderChars (h.canonical u hu) (h.spelled u hu)

end GtidSet

end ChangeFeed
