import ChangeFeed.Proofs.Gtid.Canonical
import Mathlib.Data.Finite.Prod
import Mathlib.Data.Set.Finite.Lattice

/-!
# Sets of transaction ids as sets of pairs

**The meaning** (`pairs`). A set stands for the pairs of a server and an id that it holds. Servers
are named by their UUIDs, trimmed and in lower case (`serverKey`).

**Runs** (`Built`). The sets that are built from the empty set and from texts by putting in ids,
intervals and other such sets. All of them are canonical.

Main result: `refines_pairs`. What is put in arrives in the meaning and nothing else does, and sets
with the same meaning are the same set with the same text.
-/

namespace ChangeFeed.GtidSet

/-- The name that all spellings of a server's UUID share. -/
def serverKey (uuid : String) : String := String.ofList (normalUuid uuid.toList)

/-- The pairs of server and transaction id that the set stands for. -/
def pairs (s : GtidSet) : Set (String × UInt64) :=
  {x | ∃ u ∈ s.toList, u.uuid = x.1 ∧ Interval.Holds u.intervals x.2}

/-- The sets that the operations build. -/
inductive Built : GtidSet → Prop where
  | empty : Built empty
  | parsed {text : String} {s : GtidSet} (h : parse text = .ok s) : Built s
  | gtid {s : GtidSet} (hs : Built s) {uuid : String} (hu : Plain uuid.toList) (n : UInt64) :
      Built (s.addGtid uuid n).2
  | interval {s : GtidSet} (hs : Built s) {uuid : String} (hu : Plain uuid.toList) {i : Interval}
      (hi : i.start ≤ i.stop) : Built (s.addInterval uuid i)
  | union {s t : GtidSet} (hs : Built s) (ht : Built t) : Built (s.union t)

theorem Built.canonical {s : GtidSet} (h : Built s) : s.Canonical := by
  induction h with
  | empty => exact canonical_empty
  | parsed h => exact canonical_parse h
  | gtid _ hu n ih => exact canonical_addGtid ih hu n
  | interval _ hu hi ih => exact canonical_addInterval ih hu hi
  | union _ _ ihs iht => exact canonical_union ihs iht

/-! ## What a set stands for -/

theorem mem_pairs {s : GtidSet} {k : String} {n : UInt64} :
    (k, n) ∈ s.pairs ↔ ∃ is, s.servers.get? k = some is ∧ Interval.Holds is n := by
  simp only [NameMap.get?_eq_some_iff]
  constructor
  · rintro ⟨u, hu, hk, hn⟩
    obtain ⟨e, he, rfl⟩ := List.mem_map.1 hu
    obtain rfl : e.1 = k := hk
    exact ⟨e.2, he, hn⟩
  · rintro ⟨is, hk, hn⟩
    exact ⟨⟨k, is⟩, List.mem_map_of_mem hk, rfl, hn⟩

theorem holds_get? (s : GtidSet) (k : String) (n : UInt64) :
    Interval.Holds ((s.servers.get? k).getD []) n ↔ (k, n) ∈ s.pairs := by
  rw [mem_pairs]
  cases s.servers.get? k <;> simp

theorem mem_pairs_insert (s : GtidSet) (k : String) (is : List Interval) (l : String)
    (n : UInt64) : (l, n) ∈ pairs ⟨s.servers.insert k is⟩ ↔
      if l = k then Interval.Holds is n else (l, n) ∈ s.pairs := by
  rw [mem_pairs]
  simp only [NameMap.get?_insert]
  split
  · simp
  · exact mem_pairs.symm

theorem finite_pairs (s : GtidSet) : s.pairs.Finite := by
  have : Finite UInt64 := Finite.of_injective UInt64.toFin fun _ _ => UInt64.toFin_inj.1
  refine (Set.Finite.prod (List.finite_toSet (s.toList.map UuidSet.uuid)) Set.finite_univ).subset ?_
  rintro x ⟨u, hu, hk, -⟩
  exact ⟨List.mem_map.2 ⟨u, hu, hk⟩, trivial⟩

theorem contains_iff {s : GtidSet} {uuid : String} {n : UInt64} :
    s.contains uuid n = true ↔ (lookupKey uuid, n) ∈ s.pairs := by
  rw [mem_pairs, contains, get?]
  cases s.servers.get? (lookupKey uuid) <;> simp [UuidSet.contains, Interval.Holds]

theorem pairs_empty : empty.pairs = ∅ := by
  refine Set.eq_empty_of_forall_notMem fun x => ?_
  rintro ⟨u, hu, -⟩
  exact List.not_mem_nil hu

/-! ## Putting in -/

@[simp] theorem entry_uuid (s : GtidSet) (uuid : String) :
    (s.entry uuid).uuid = serverKey uuid :=
  rfl

theorem holds_entry (s : GtidSet) (uuid : String) (n : UInt64) :
    Interval.Holds (s.entry uuid).intervals n ↔ (serverKey uuid, n) ∈ s.pairs :=
  holds_get? s (serverKey uuid) n

theorem contains_entry (s : GtidSet) (uuid : String) (n : UInt64) :
    (s.entry uuid).contains n = true ↔ (serverKey uuid, n) ∈ s.pairs := by
  rw [← holds_entry, UuidSet.contains, List.any_eq_true]
  rfl

theorem Compact.pairs_addInterval {s : GtidSet} (hs : s.Compact) (uuid : String) {i : Interval}
    (hi : i.start ≤ i.stop) : (s.addInterval uuid i).pairs =
      s.pairs ∪ {x | x.1 = serverKey uuid ∧ i.start ≤ x.2 ∧ x.2 ≤ i.stop} := by
  have hwf := wellFormed_entry_append hs uuid hi
  ext ⟨k, n⟩
  rw [addInterval, mem_pairs_insert, UuidSet.add, Interval.add, Interval.holds_collapse hwf,
    Interval.holds_append, holds_entry]
  by_cases hk : k = serverKey uuid
  · subst hk
    simp [Interval.contains]
  · simp [hk]

/-- An id that is there is put in without any change. -/
theorem addGtid_of_mem {s : GtidSet} {uuid : String} {n : UInt64}
    (h : (serverKey uuid, n) ∈ s.pairs) : s.addGtid uuid n = (false, s) := by
  obtain ⟨is, his, -⟩ := mem_pairs.1 h
  have hentry : (s.entry uuid).intervals = is := congrArg (Option.getD · []) his
  have hold : s.servers.insert (serverKey uuid) (s.entry uuid).intervals = s.servers := by
    rw [hentry, NameMap.insert_eq_self his]
  rw [addGtid, UuidSet.addGtid, if_pos ((contains_entry s uuid n).2 h)]
  exact congrArg (fun m => (false, GtidSet.mk m)) hold

theorem addGtid_of_not_mem {s : GtidSet} {uuid : String} {n : UInt64}
    (h : (serverKey uuid, n) ∉ s.pairs) :
    s.addGtid uuid n = (true, s.addInterval uuid (.single n)) := by
  rw [addGtid, UuidSet.addGtid, if_neg fun hc => h ((contains_entry s uuid n).1 hc)]
  rfl

theorem addGtid_fst (s : GtidSet) (uuid : String) (n : UInt64) :
    (s.addGtid uuid n).1 = true ↔ (serverKey uuid, n) ∉ s.pairs := by
  by_cases h : (serverKey uuid, n) ∈ s.pairs
  · simp [addGtid_of_mem h, h]
  · simp [addGtid_of_not_mem h, h]

theorem Compact.pairs_addGtid {s : GtidSet} (hs : s.Compact) (uuid : String) (n : UInt64) :
    (s.addGtid uuid n).2.pairs = insert (serverKey uuid, n) s.pairs := by
  by_cases h : (serverKey uuid, n) ∈ s.pairs
  · rw [addGtid_of_mem h, Set.insert_eq_of_mem h]
  · rw [addGtid_of_not_mem h, hs.pairs_addInterval uuid (UInt64.le_refl n)]
    ext ⟨k, m⟩
    rw [Set.mem_union, Set.mem_insert_iff, Set.mem_ofPred_eq, Prod.mk.injEq, or_comm]
    refine or_congr_left (and_congr_right fun _ => ?_)
    exact ⟨fun hm => UInt64.le_antisymm hm.2 hm.1,
      fun hm => hm ▸ ⟨UInt64.le_refl _, UInt64.le_refl _⟩⟩

/-! ## Union -/

theorem mem_pairs_merge {s : GtidSet} (hs : s.Compact) {u : UuidSet} (hu : u.Compact)
    (k : String) (n : UInt64) : (k, n) ∈ (s.merge u).pairs ↔
      (k, n) ∈ s.pairs ∨ u.uuid = k ∧ Interval.Holds u.intervals n := by
  have hold := holds_get? s u.uuid n
  rw [merge]
  split
  · rename_i is his
    have hwf := Interval.wellFormed_append (forall_toList.1 hs _ _ his).normal.wellFormed
      hu.normal.wellFormed
    rw [his, Option.getD_some] at hold
    rw [mem_pairs_insert, Interval.holds_collapse hwf, Interval.holds_append, hold]
    split
    · rename_i hk
      simp [hk]
    · rename_i hk
      simp [Ne.symm hk]
  · rename_i his
    rw [his, Option.getD_none] at hold
    rw [mem_pairs_insert]
    split
    · rename_i hk
      simp [hk, ← hold]
    · rename_i hk
      simp [Ne.symm hk]

theorem mem_pairs_foldl_merge {us : List UuidSet} (hus : ∀ u ∈ us, u.Compact) {s : GtidSet}
    (hs : s.Compact) (k : String) (n : UInt64) : (k, n) ∈ (us.foldl merge s).pairs ↔
      (k, n) ∈ s.pairs ∨ ∃ u ∈ us, u.uuid = k ∧ Interval.Holds u.intervals n := by
  induction us generalizing s with
  | nil => simp
  | cons u us ih =>
    have hu := hus u List.mem_cons_self
    rw [List.foldl_cons, ih (fun v hv => hus v (List.mem_cons_of_mem _ hv))
      (compact_merge hs hu), mem_pairs_merge hs hu]
    simp [or_assoc]

theorem Compact.pairs_union {s t : GtidSet} (hs : s.Compact) (ht : t.Compact) :
    (s.union t).pairs = s.pairs ∪ t.pairs := by
  ext ⟨k, n⟩
  exact mem_pairs_foldl_merge ht hs k n

/-! ## One set for each meaning -/

theorem get?_isSome_of_pairs {s t : GtidSet} (hs : s.Compact) (h : s.pairs = t.pairs)
    {k : String} {is : List Interval} (hk : s.servers.get? k = some is) :
    ∃ js, t.servers.get? k = some js := by
  have hu := forall_toList.1 hs k is hk
  obtain ⟨n, hn⟩ := hu.normal.exists_holds hu.nonempty
  obtain ⟨js, hjs, -⟩ := mem_pairs.1 (h ▸ mem_pairs.2 ⟨is, hk, hn⟩)
  exact ⟨js, hjs⟩

/-- **Compact sets that stand for the same pairs are the same set.** -/
theorem Compact.eq_of_pairs_eq {s t : GtidSet} (hs : s.Compact) (ht : t.Compact)
    (h : s.pairs = t.pairs) : s = t := by
  obtain ⟨m⟩ := s
  obtain ⟨m'⟩ := t
  refine congrArg GtidSet.mk (NameMap.ext_get? fun k => ?_)
  cases hk : m.get? k with
  | none =>
    cases hk' : m'.get? k with
    | none => rfl
    | some js =>
      obtain ⟨is, his⟩ := get?_isSome_of_pairs ht h.symm hk'
      cases hk.symm.trans his
  | some is =>
    obtain ⟨js, hjs⟩ := get?_isSome_of_pairs hs h hk
    rw [hjs]
    have hi := (forall_toList.1 hs k is hk).normal
    have hj := (forall_toList.1 ht k js hjs).normal
    refine congrArg some (Interval.normal_ext hi hj fun n => ?_)
    have hn := holds_get? ⟨m⟩ k n
    have hn' := holds_get? ⟨m'⟩ k n
    simp only [hk, hjs, Option.getD_some] at hn hn'
    rw [hn, hn', h]

/-! ## Canonical sets -/

theorem pairs_addInterval {s : GtidSet} (hs : s.Canonical) (uuid : String) {i : Interval}
    (hi : i.start ≤ i.stop) : (s.addInterval uuid i).pairs =
      s.pairs ∪ {x | x.1 = serverKey uuid ∧ i.start ≤ x.2 ∧ x.2 ≤ i.stop} :=
  hs.compact.pairs_addInterval uuid hi

theorem pairs_addGtid {s : GtidSet} (hs : s.Canonical) (uuid : String) (n : UInt64) :
    (s.addGtid uuid n).2.pairs = insert (serverKey uuid, n) s.pairs :=
  hs.compact.pairs_addGtid uuid n

theorem pairs_union {s t : GtidSet} (hs : s.Canonical) (ht : t.Canonical) :
    (s.union t).pairs = s.pairs ∪ t.pairs :=
  hs.compact.pairs_union ht.compact

theorem eq_of_pairs_eq {s t : GtidSet} (hs : s.Canonical) (ht : t.Canonical)
    (h : s.pairs = t.pairs) : s = t :=
  hs.compact.eq_of_pairs_eq ht.compact h

/-- **Sets of transaction ids refine sets of pairs.** Whatever built them, each server has intervals
in normal form, and at least one. Ids, intervals and sets that are put in arrive in the meaning, and
putting an id in tells whether it is new. Sets with the same meaning are the same set, and so are
sets with the same text. -/
theorem refines_pairs {s t : GtidSet} (hs : Built s) (ht : Built t) :
    (∀ u ∈ s.toList, u.intervals ≠ [] ∧ (∀ i ∈ u.intervals, i.start ≤ i.stop) ∧
      u.intervals.Pairwise fun i j => i.stop.toNat + 1 < j.start.toNat) ∧
    s.pairs.Finite ∧ empty.pairs = ∅ ∧
    (∀ uuid n, (s.addGtid uuid n).2.pairs = insert (serverKey uuid, n) s.pairs ∧
      ((s.addGtid uuid n).1 = true ↔ (serverKey uuid, n) ∉ s.pairs)) ∧
    (∀ uuid i, i.start ≤ i.stop → (s.addInterval uuid i).pairs =
      s.pairs ∪ {x | x.1 = serverKey uuid ∧ i.start ≤ x.2 ∧ x.2 ≤ i.stop}) ∧
    (s.union t).pairs = s.pairs ∪ t.pairs ∧
    (s = t ↔ s.pairs = t.pairs) ∧ (s.render = t.render ↔ s.pairs = t.pairs) := by
  have hcs := hs.canonical
  have hct := ht.canonical
  refine ⟨fun u hu => ?_, s.finite_pairs, pairs_empty, fun uuid n => ?_, fun uuid i hi => ?_,
    pairs_union hcs hct, ⟨fun h => h ▸ rfl, eq_of_pairs_eq hcs hct⟩, fun h => ?_, fun h => ?_⟩
  · have hu := hcs u hu
    exact ⟨hu.nonempty, fun i hi => UInt64.le_iff_toNat_le.2 (hu.normal.wellFormed i hi),
      hu.normal.apart⟩
  · exact ⟨pairs_addGtid hcs uuid n, addGtid_fst s uuid n⟩
  · exact pairs_addInterval hcs uuid hi
  · rw [renderChars_inj hcs hct (String.ofList_injective h)]
  · rw [eq_of_pairs_eq hcs hct h]

/-- The largest id joins the interval of all ids before it, whatever spelling names the server. -/
theorem refines_pairs_largest :
    let s := empty.addInterval " AB" ⟨7, 18446744073709551614⟩
    let t := (empty.addGtid "ab" 18446744073709551615).2
    Built s ∧ Built t ∧ ((s.union t).addGtid "Ab" 18446744073709551615).1 = false ∧
      (s.union t).pairs = s.pairs ∪ t.pairs ∧ (s = t ↔ s.pairs = t.pairs) := by
  intro s t
  have hs : Built s := Built.empty.interval ⟨by decide, by decide⟩ (by decide)
  have ht : Built t := Built.empty.gtid ⟨by decide, by decide⟩ _
  obtain ⟨-, -, -, -, -, hunion, heq, -⟩ := refines_pairs hs ht
  obtain ⟨-, -, -, hadd, -⟩ := refines_pairs Built.empty Built.empty
  obtain ⟨-, -, -, hnew, -⟩ := refines_pairs (hs.union ht) ht
  refine ⟨hs, ht, ?_, hunion, heq⟩
  have hmem : (serverKey "Ab", 18446744073709551615) ∈ t.pairs := by
    rw [(hadd _ _).1]
    exact Or.inl (congrArg (·, _) (by decide +kernel))
  have hin : (serverKey "Ab", 18446744073709551615) ∈ (s.union t).pairs :=
    hunion ▸ Or.inr hmem
  exact Bool.eq_false_iff.2 fun h => (hnew _ _).2.1 h hin

end ChangeFeed.GtidSet
