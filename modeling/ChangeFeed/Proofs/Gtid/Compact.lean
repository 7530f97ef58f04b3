import ChangeFeed.Gtid.GtidSet
import ChangeFeed.Proofs.Elementwise
import ChangeFeed.Proofs.Gtid.NormalForm

/-!
# Compact sets of transaction ids

**The invariant** (`Compact`). Each listed server has at least one interval, and its intervals are
in normal form. How the servers are named does not matter.

**Operations.** What a text reads as is compact. Putting in an id, an interval or another compact
set leads to compact sets.

Main results: `compact_addGtid`, `compact_addInterval`, `compact_union` and `compact_parse`.
-/

namespace ChangeFeed

namespace UuidSet

/-- There is at least one interval, and the intervals are in normal form. -/
structure Compact (u : UuidSet) : Prop where
  nonempty : u.intervals ≠ []
  normal : Interval.Normal u.intervals

/-! ## Reading one server -/

theorem wellFormed_parseInterval {whole cs : List Char} {i : Interval}
    (h : parseInterval whole cs = .ok i) : i.start.toNat ≤ i.stop.toNat := by
  rw [parseInterval] at h
  split at h
  · obtain ⟨n, -, h⟩ := bind_eq_ok.1 h
    cases h
    exact Nat.le_refl _
  · obtain ⟨n, -, h⟩ := bind_eq_ok.1 h
    obtain ⟨m, -, h⟩ := bind_eq_ok.1 h
    dsimp only at h
    split at h
    · cases h
    · rename_i hlt
      cases h
      exact UInt64.le_iff_toNat_le.1 (UInt64.not_lt.1 hlt)
  · cases h

theorem compact_parseChars {cs : List Char} {u : UuidSet} (h : parseChars cs = .ok u) :
    u.Compact := by
  rw [parseChars] at h
  split at h
  · cases h
  · rename_i uuid ranges hcut
    obtain ⟨is, his, h⟩ := bind_eq_ok.1 h
    cases h
    have hall := mapM_eq_ok.1 his
    refine ⟨Interval.collapse_ne_nil fun hn => Text.pieces_ne_nil ':' ranges ?_,
      Interval.normal_collapse fun i hi => ?_⟩
    · exact List.forall₂_nil_right_iff.1 (hn ▸ hall)
    · obtain ⟨t, -, ht⟩ := (mem_of_forall₂ hall).2 i hi
      exact wellFormed_parseInterval ht

end UuidSet

namespace GtidSet

/-! ## The listed servers -/

theorem forall_toList {s : GtidSet} {P : UuidSet → Prop} :
    (∀ u ∈ s.toList, P u) ↔ ∀ k is, s.servers.get? k = some is → P ⟨k, is⟩ := by
  simp only [NameMap.get?_eq_some_iff]
  constructor
  · intro h k is hk
    exact h _ (List.mem_map_of_mem hk)
  · intro h u hu
    obtain ⟨e, he, rfl⟩ := List.mem_map.1 hu
    exact h _ _ he

theorem forall_insert {P : UuidSet → Prop} {s : GtidSet} (hs : ∀ u ∈ s.toList, P u) {k : String}
    {is : List Interval} (hk : P ⟨k, is⟩) : ∀ u ∈ toList ⟨s.servers.insert k is⟩, P u := by
  refine forall_toList.2 fun l js hl => ?_
  simp only [NameMap.get?_insert] at hl
  split at hl
  · rename_i h
    cases hl
    exact h ▸ hk
  · exact forall_toList.1 hs l js hl

/-- What holds of the names of the servers holds once those of another server are put in. -/
theorem forall_uuid_merge (N : String → Prop) {s : GtidSet} {u : UuidSet}
    (hs : ∀ v ∈ s.toList, N v.uuid) (hu : N u.uuid) : ∀ v ∈ (s.merge u).toList, N v.uuid := by
  rw [merge]
  split
  · exact forall_insert hs hu
  · exact forall_insert hs hu

theorem forall_uuid_addInterval (N : String → Prop) {s : GtidSet} {uuid : String}
    (hs : ∀ v ∈ s.toList, N v.uuid) (hu : N (s.entry uuid).uuid) (i : Interval) :
    ∀ v ∈ (s.addInterval uuid i).toList, N v.uuid :=
  forall_insert hs hu

theorem forall_uuid_addGtid (N : String → Prop) {s : GtidSet} {uuid : String}
    (hs : ∀ v ∈ s.toList, N v.uuid) (hu : N (s.entry uuid).uuid) (n : UInt64) :
    ∀ v ∈ (s.addGtid uuid n).2.toList, N v.uuid := by
  rw [addGtid, UuidSet.addGtid]
  split
  · exact forall_insert hs hu
  · exact forall_insert hs hu

/-- Server parts are read one by one and put in. -/
theorem parseParts_eq_ok {ps : List (List Char)} {s t : GtidSet} : parseParts s ps = .ok t ↔
    ∃ us, List.Forall₂ (fun p u => UuidSet.parseChars p = .ok u) ps us ∧
      us.foldl merge s = t := by
  induction ps generalizing s with
  | nil => simp [parseParts]
  | cons p ps ih =>
    rw [parseParts]
    cases hp : UuidSet.parseChars p with
    | error f => simp [List.forall₂_cons_left_iff, hp]
    | ok u => simp [List.forall₂_cons_left_iff, hp, ih]

/-! ## The invariant -/

/-- Every listed server is compact. -/
def Compact (s : GtidSet) : Prop := ∀ u ∈ s.toList, u.Compact

theorem compact_empty : empty.Compact := fun _ hu => absurd hu List.not_mem_nil

theorem compact_merge {s : GtidSet} (hs : s.Compact) {u : UuidSet} (hu : u.Compact) :
    (s.merge u).Compact := by
  rw [merge]
  split
  · rename_i is his
    have hold := forall_toList.1 hs _ _ his
    have hwf := Interval.wellFormed_append hold.normal.wellFormed hu.normal.wellFormed
    have hne : is ++ u.intervals ≠ [] := fun h => hu.nonempty (List.append_eq_nil_iff.1 h).2
    exact forall_insert hs ⟨Interval.collapse_ne_nil hne, Interval.normal_collapse hwf⟩
  · exact forall_insert hs hu

theorem compact_foldl_merge {us : List UuidSet} (hus : ∀ u ∈ us, u.Compact) {s : GtidSet}
    (hs : s.Compact) : (us.foldl merge s).Compact :=
  List.foldlRecOn us merge hs fun _ ht u hu => compact_merge ht (hus u hu)

theorem compact_union {s t : GtidSet} (hs : s.Compact) (ht : t.Compact) : (s.union t).Compact :=
  compact_foldl_merge ht hs

theorem normal_entry {s : GtidSet} (hs : s.Compact) (uuid : String) :
    Interval.Normal (s.entry uuid).intervals := by
  simp only [entry]
  cases h : s.servers.get? (String.ofList (normalUuid uuid.toList)) with
  | none => exact Interval.normal_nil
  | some is => exact (forall_toList.1 hs _ _ h).normal

theorem wellFormed_entry_append {s : GtidSet} (hs : s.Compact) (uuid : String) {i : Interval}
    (hi : i.start ≤ i.stop) : Interval.WellFormed ((s.entry uuid).intervals ++ [i]) :=
  Interval.wellFormed_append (normal_entry hs uuid).wellFormed (Interval.wellFormed_singleton hi)

theorem compact_entry_add {s : GtidSet} (hs : s.Compact) (uuid : String) {i : Interval}
    (hi : i.start ≤ i.stop) : ((s.entry uuid).add i).Compact where
  nonempty := Interval.collapse_ne_nil (List.append_ne_nil_of_right_ne_nil _ (List.cons_ne_nil _ _))
  normal := Interval.normal_collapse (wellFormed_entry_append hs uuid hi)

theorem compact_addInterval {s : GtidSet} (hs : s.Compact) (uuid : String) {i : Interval}
    (hi : i.start ≤ i.stop) : (s.addInterval uuid i).Compact :=
  forall_insert hs (compact_entry_add hs uuid hi)

theorem compact_addGtid {s : GtidSet} (hs : s.Compact) (uuid : String) (n : UInt64) :
    (s.addGtid uuid n).2.Compact := by
  rw [addGtid, UuidSet.addGtid]
  split
  · rename_i h
    -- An interval that contains the id is there already.
    obtain ⟨i, hi, -⟩ := List.any_eq_true.1 h
    exact forall_insert hs ⟨List.ne_nil_of_mem hi, normal_entry hs uuid⟩
  · exact forall_insert hs (compact_entry_add hs uuid (UInt64.le_refl n))

theorem compact_parse {text : String} {s : GtidSet} (h : parse text = .ok s) : s.Compact := by
  obtain ⟨us, hus, rfl⟩ := parseParts_eq_ok.1 h
  refine compact_foldl_merge (fun u hu => ?_) compact_empty
  obtain ⟨p, -, hp⟩ := (mem_of_forall₂ hus).2 u hu
  exact UuidSet.compact_parseChars hp

end GtidSet

end ChangeFeed
