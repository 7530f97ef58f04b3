import ChangeFeed.Proofs.Gtid.Compact
import Mathlib.Tactic.Common

/-!
# Canonical sets of transaction ids

**The invariant** (`Canonical`). The set is compact, and no UUID holds either of the two characters
that separate the parts of a text.

**Operations.** The empty set is canonical, and so is what a text reads as. Putting in an id, an
interval or another canonical set leads to canonical sets.

**Texts.** Canonical sets with the same text are the same set.

Main results: `canonical_addGtid`, `canonical_addInterval`, `canonical_union`, `canonical_parse` and
`renderChars_inj`.
-/

namespace ChangeFeed

/-- Neither a comma nor a colon is in the text. -/
def Plain (cs : List Char) : Prop := ',' ∉ cs ∧ ':' ∉ cs

theorem plain_normalUuid {cs : List Char} (h : Plain cs) : Plain (normalUuid cs) :=
  ⟨fun hc => h.1 (Text.mem_of_mem_trimChars (Text.mem_of_mem_lowerChars (by decide) hc)),
    fun hc => h.2 (Text.mem_of_mem_trimChars (Text.mem_of_mem_lowerChars (by decide) hc))⟩

/-! ## The text of an interval -/

namespace Interval

theorem pieces_render (i : Interval) : Text.pieces '-' i.render =
    if i.start = i.stop then [Text.digits i.start.toNat]
    else [Text.digits i.start.toNat, Text.digits i.stop.toNat] := by
  have hdash : ∀ n, '-' ∉ Text.digits n := Text.not_mem_digits (by decide)
  rw [render]
  split
  · exact Text.pieces_of_not_mem (hdash _)
  · rw [Text.pieces_append (hdash _), Text.pieces_of_not_mem (hdash _)]

theorem render_inj {i j : Interval} (h : i.render = j.render) : i = j := by
  have hp := congrArg (Text.pieces '-') h
  rw [pieces_render, pieces_render] at hp
  obtain ⟨a, b⟩ := i
  obtain ⟨c, d⟩ := j
  split at hp <;> split at hp
  · rename_i h₁ h₂
    have hac := Text.digits_inj (List.cons.inj hp).1
    simp_all
  · cases (List.cons.inj hp).2
  · cases (List.cons.inj hp).2
  · obtain ⟨ha, hp⟩ := List.cons.inj hp
    have hac := Text.digits_inj ha
    have hbd := Text.digits_inj (List.cons.inj hp).1
    simp_all

theorem not_mem_render {c : Char} (h : Text.digit? c = none) (hdash : c ≠ '-') (i : Interval) :
    c ∉ i.render := by
  have hdigits := Text.not_mem_digits h
  rw [render]
  split
  · exact hdigits _
  · simp [hdigits, hdash]

theorem plain_render (i : Interval) : Plain i.render :=
  ⟨not_mem_render (by decide) (by decide) i, not_mem_render (by decide) (by decide) i⟩

end Interval

namespace UuidSet

/-- The UUID does not disturb the text, and the intervals are in normal form, at least one. -/
structure Canonical (u : UuidSet) : Prop where
  plain : Plain u.uuid.toList
  nonempty : u.intervals ≠ []
  normal : Interval.Normal u.intervals

theorem Canonical.compact {u : UuidSet} (h : u.Canonical) : u.Compact := ⟨h.nonempty, h.normal⟩

/-! ## The text of one server -/

theorem pieces_intervals {u : UuidSet} (h : u.Canonical) :
    Text.pieces ':' (Text.joinWith [':'] (u.intervals.map Interval.render)) =
      u.intervals.map Interval.render := by
  refine Text.pieces_joinWith (fun hn => h.nonempty (List.map_eq_nil_iff.1 hn)) fun p hp => ?_
  obtain ⟨i, -, rfl⟩ := List.mem_map.1 hp
  exact i.plain_render.2

theorem renderChars_inj {u v : UuidSet} (hu : u.Canonical) (hv : v.Canonical)
    (h : u.renderChars = v.renderChars) : u = v := by
  have hcut := congrArg (Text.cutFirst? ':') h
  rw [renderChars, renderChars, Text.cutFirst?_append hu.plain.2,
    Text.cutFirst?_append hv.plain.2, Option.some.injEq, Prod.mk.injEq] at hcut
  have huuid : u.uuid = v.uuid := String.toList_inj.1 hcut.1
  have hrender := congrArg (Text.pieces ':') hcut.2
  rw [pieces_intervals hu, pieces_intervals hv] at hrender
  have his := (List.map_inj_right fun _ _ => Interval.render_inj).1 hrender
  obtain ⟨k, is⟩ := u
  obtain ⟨l, js⟩ := v
  simp_all

theorem comma_not_mem_renderChars {u : UuidSet} (h : u.Canonical) : ',' ∉ u.renderChars := by
  rw [renderChars, List.mem_append, List.mem_cons]
  rintro (hc | hc | hc)
  · exact h.plain.1 hc
  · exact absurd hc (by decide)
  · rcases Text.mem_joinWith hc with hc | ⟨p, hp, hc⟩
    · exact absurd hc (by decide)
    · obtain ⟨i, -, rfl⟩ := List.mem_map.1 hp
      exact i.plain_render.1 hc

theorem renderChars_ne_nil (u : UuidSet) : u.renderChars ≠ [] := by
  simp [renderChars]

/-! ## Reading one server -/

theorem canonical_parseChars {cs : List Char} (hcs : ',' ∉ cs) {u : UuidSet}
    (h : parseChars cs = .ok u) : u.Canonical := by
  obtain ⟨hne, hnormal⟩ := compact_parseChars h
  rw [parseChars] at h
  split at h
  · cases h
  · rename_i uuid ranges hcut
    obtain ⟨is, -, h⟩ := bind_eq_ok.1 h
    cases h
    obtain ⟨htrim, hcolon⟩ := Text.eq_append_of_cutFirst? hcut
    have hcomma : ',' ∉ uuid := fun hc => hcs (Text.mem_of_mem_trimChars (by simp [htrim, hc]))
    exact ⟨by simpa using plain_normalUuid ⟨hcomma, hcolon⟩, hne, hnormal⟩

end UuidSet

namespace GtidSet

/-- Every listed server is canonical. -/
def Canonical (s : GtidSet) : Prop := ∀ u ∈ s.toList, u.Canonical

theorem Canonical.compact {s : GtidSet} (h : s.Canonical) : s.Compact :=
  fun u hu => (h u hu).compact

theorem Canonical.plain {s : GtidSet} (h : s.Canonical) : ∀ u ∈ s.toList, Plain u.uuid.toList :=
  fun u hu => (h u hu).plain

theorem Compact.canonical {s : GtidSet} (h : s.Compact)
    (hp : ∀ u ∈ s.toList, Plain u.uuid.toList) : s.Canonical :=
  fun u hu => ⟨hp u hu, (h u hu).nonempty, (h u hu).normal⟩

theorem canonical_empty : empty.Canonical := fun _ hu => absurd hu List.not_mem_nil

/-! ## The operations -/

theorem canonical_merge {s : GtidSet} (hs : s.Canonical) {u : UuidSet} (hu : u.Canonical) :
    (s.merge u).Canonical :=
  (compact_merge hs.compact hu.compact).canonical
    (forall_uuid_merge (Plain ·.toList) hs.plain hu.plain)

theorem canonical_foldl_merge {us : List UuidSet} (hus : ∀ u ∈ us, u.Canonical) {s : GtidSet}
    (hs : s.Canonical) : (us.foldl merge s).Canonical :=
  List.foldlRecOn us merge hs fun _ ht u hu => canonical_merge ht (hus u hu)

theorem canonical_union {s t : GtidSet} (hs : s.Canonical) (ht : t.Canonical) :
    (s.union t).Canonical :=
  canonical_foldl_merge ht hs

theorem plain_entry {uuid : String} (hu : Plain uuid.toList) (s : GtidSet) :
    Plain (s.entry uuid).uuid.toList := by
  simpa [entry] using plain_normalUuid hu

theorem canonical_addInterval {s : GtidSet} (hs : s.Canonical) {uuid : String}
    (hu : Plain uuid.toList) {i : Interval} (hi : i.start ≤ i.stop) :
    (s.addInterval uuid i).Canonical :=
  (compact_addInterval hs.compact uuid hi).canonical
    (forall_uuid_addInterval (Plain ·.toList) hs.plain (plain_entry hu s) i)

theorem canonical_addGtid {s : GtidSet} (hs : s.Canonical) {uuid : String}
    (hu : Plain uuid.toList) (n : UInt64) : (s.addGtid uuid n).2.Canonical :=
  (compact_addGtid hs.compact uuid n).canonical
    (forall_uuid_addGtid (Plain ·.toList) hs.plain (plain_entry hu s) n)

/-! ## Texts -/

theorem canonical_parseParts {ps : List (List Char)} (hps : ∀ p ∈ ps, ',' ∉ p) {s t : GtidSet}
    (hs : s.Canonical) (h : parseParts s ps = .ok t) : t.Canonical := by
  obtain ⟨us, hus, rfl⟩ := parseParts_eq_ok.1 h
  refine canonical_foldl_merge (fun u hu => ?_) hs
  obtain ⟨p, hp, hu⟩ := (mem_of_forall₂ hus).2 u hu
  exact UuidSet.canonical_parseChars (hps p hp) hu

theorem comma_not_mem_serverParts {cs p : List Char} (h : p ∈ serverParts cs) : ',' ∉ p := by
  obtain ⟨q, hq, rfl⟩ := List.mem_map.1 (List.mem_filter.1 h).1
  exact fun hc => Text.not_mem_of_mem_pieces hq (Text.mem_of_mem_trimChars hc)

theorem canonical_parse {text : String} {s : GtidSet} (h : parse text = .ok s) : s.Canonical :=
  canonical_parseParts (fun _ hp => comma_not_mem_serverParts hp) canonical_empty h

theorem renderChars_eq_nil_iff {s : GtidSet} : s.renderChars = [] ↔ s.toList = [] := by
  rw [renderChars]
  cases s.toList with
  | nil => exact ⟨fun _ => rfl, fun _ => rfl⟩
  | cons u us =>
    cases us with
    | nil => simp [Text.joinWith, UuidSet.renderChars_ne_nil]
    | cons v vs => simp [UuidSet.renderChars_ne_nil]

theorem pieces_servers {s : GtidSet} (hs : s.Canonical) (hne : s.toList ≠ []) :
    Text.pieces ',' s.renderChars = s.toList.map UuidSet.renderChars := by
  refine Text.pieces_joinWith (fun hn => hne (List.map_eq_nil_iff.1 hn)) fun p hp => ?_
  obtain ⟨u, hu, rfl⟩ := List.mem_map.1 hp
  exact UuidSet.comma_not_mem_renderChars (hs u hu)

theorem toList_inj {s t : GtidSet} (h : s.toList = t.toList) : s = t := by
  have he : s.servers.entries = t.servers.entries := by
    refine (List.map_inj_right fun e f hef => ?_).1 h
    obtain ⟨hk, hv⟩ := UuidSet.mk.inj hef
    exact Prod.ext hk hv
  obtain ⟨m⟩ := s
  obtain ⟨m'⟩ := t
  exact congrArg GtidSet.mk (NameMap.ext_entries he)

theorem eq_of_map_renderChars {us vs : List UuidSet} (hus : ∀ u ∈ us, u.Canonical)
    (hvs : ∀ v ∈ vs, v.Canonical)
    (h : us.map UuidSet.renderChars = vs.map UuidSet.renderChars) : us = vs := by
  induction us generalizing vs with
  | nil => exact (List.map_eq_nil_iff.1 h.symm).symm
  | cons u us ih =>
    cases vs with
    | nil => cases h
    | cons v vs =>
      obtain ⟨hhead, htail⟩ := List.cons.inj h
      rw [UuidSet.renderChars_inj (hus u List.mem_cons_self) (hvs v List.mem_cons_self) hhead,
        ih (fun w hw => hus w (List.mem_cons_of_mem _ hw))
          (fun w hw => hvs w (List.mem_cons_of_mem _ hw)) htail]

/-- **Texts tell canonical sets apart.** -/
theorem renderChars_inj {s t : GtidSet} (hs : s.Canonical) (ht : t.Canonical)
    (h : s.renderChars = t.renderChars) : s = t := by
  refine toList_inj ?_
  by_cases hn : s.toList = []
  · rw [hn, renderChars_eq_nil_iff.1 (h ▸ renderChars_eq_nil_iff.2 hn)]
  · have hn' : t.toList ≠ [] := fun ht => hn (renderChars_eq_nil_iff.1
      (h.trans (renderChars_eq_nil_iff.2 ht)))
    have hp := congrArg (Text.pieces ',') h
    rw [pieces_servers hs hn, pieces_servers ht hn'] at hp
    exact eq_of_map_renderChars hs ht hp

end GtidSet

end ChangeFeed
