import ChangeFeed.Proofs.Gtid.Pairs

/-!
# Containment of sets of transaction ids

**What is checked.** Each interval of one set has to lie within a single interval of the other. The
ids of an interval follow each other, and between two intervals in normal form an id is missing, so
an interval that is held at all is held by one of them (`Interval.Normal.exists_covers`).

**Runs** (`Grown`). The sets that are built from the empty set and from texts by putting in ids,
intervals and other such sets, whatever the servers are called. All of them are compact.

Main result: `within_order`. Containment is inclusion of the pairs, so it is a partial order with
the empty set at the bottom and with unions as least upper bounds.
-/

namespace ChangeFeed.GtidSet

/-- The sets that the operations build, with any texts as UUIDs. -/
inductive Grown : GtidSet → Prop where
  | empty : Grown empty
  | parsed {text : String} {s : GtidSet} (h : parse text = .ok s) : Grown s
  | gtid {s : GtidSet} (hs : Grown s) (uuid : String) (n : UInt64) : Grown (s.addGtid uuid n).2
  | interval {s : GtidSet} (hs : Grown s) (uuid : String) {i : Interval} (hi : i.start ≤ i.stop) :
      Grown (s.addInterval uuid i)
  | union {s t : GtidSet} (hs : Grown s) (ht : Grown t) : Grown (s.union t)

theorem Grown.compact {s : GtidSet} (h : Grown s) : s.Compact := by
  induction h with
  | empty => exact compact_empty
  | parsed h => exact compact_parse h
  | gtid _ uuid n ih => exact compact_addGtid ih uuid n
  | interval _ uuid hi ih => exact compact_addInterval ih uuid hi
  | union _ _ ihs iht => exact compact_union ihs iht

/-! ## The check -/

theorem within_iff {s t : GtidSet} : s.within t = true ↔
    ∀ k is, s.servers.get? k = some is →
      ∃ js, t.servers.get? k = some js ∧ ∀ i ∈ is, ∃ j ∈ js, j.covers i = true := by
  simp only [within, List.all_eq_true, NameMap.get?_eq_some_iff (m := s.servers), Prod.forall]
  refine forall_congr' fun k => forall_congr' fun is => imp_congr_right fun _ => ?_
  cases t.servers.get? k <;> simp

theorem pairs_subset_of_within {s t : GtidSet} (h : s.within t = true) : s.pairs ⊆ t.pairs := by
  rintro ⟨k, n⟩ hn
  obtain ⟨is, his, i, hi, hin⟩ := mem_pairs.1 hn
  obtain ⟨js, hjs, hcovers⟩ := within_iff.1 h k is his
  obtain ⟨j, hj, hji⟩ := hcovers i hi
  rw [Interval.covers_iff] at hji
  rw [Interval.contains_iff] at hin
  exact mem_pairs.2 ⟨js, hjs, j, hj, (Interval.contains_iff _ _).2 (by omega)⟩

theorem Compact.within_of_pairs_subset {s t : GtidSet} (hs : s.Compact) (ht : t.Compact)
    (h : s.pairs ⊆ t.pairs) : s.within t = true := by
  refine within_iff.2 fun k is his => ?_
  have hu := forall_toList.1 hs k is his
  have hheld : ∀ n, Interval.Holds is n → Interval.Holds ((t.servers.get? k).getD []) n :=
    fun n hn => (holds_get? t k n).2 (h (mem_pairs.2 ⟨is, his, hn⟩))
  -- The server has an id, so the other set lists the server.
  obtain ⟨n, hn⟩ := hu.normal.exists_holds hu.nonempty
  cases hjs : t.servers.get? k with
  | none =>
    rw [hjs] at hheld
    exact absurd (hheld n hn) (Interval.not_holds_nil n)
  | some js =>
    rw [hjs] at hheld
    have hv := forall_toList.1 ht k js hjs
    exact ⟨js, rfl, fun i hi =>
      hv.normal.exists_covers (hu.normal.wellFormed i hi) fun n hn => hheld n ⟨i, hi, hn⟩⟩

/-! ## The order -/

theorem Compact.within_iff_subset {s t : GtidSet} (hs : s.Compact) (ht : t.Compact) :
    s.within t = true ↔ s.pairs ⊆ t.pairs :=
  ⟨pairs_subset_of_within, hs.within_of_pairs_subset ht⟩

/-- **Containment is inclusion.** One set is within another exactly when the other holds each pair
of the first. So each set is within itself, containment is transitive, and sets that are within each
other are the same set with the same text. The empty set is within each set, and the union of two
sets is their least upper bound. -/
theorem within_order {a b c : GtidSet} (ha : Grown a) (hb : Grown b) (hc : Grown c) :
    (a.within b = true ↔ a.pairs ⊆ b.pairs) ∧
    a.within a = true ∧
    (a.within b = true → b.within c = true → a.within c = true) ∧
    (a.within b = true → b.within a = true → a = b ∧ a.render = b.render) ∧
    empty.within a = true ∧
    a.within (a.union b) = true ∧ b.within (a.union b) = true ∧
    (a.within c = true → b.within c = true → (a.union b).within c = true) := by
  have hca := ha.compact
  have hcb := hb.compact
  have hcc := hc.compact
  have hunion := compact_union hca hcb
  have hpairs := hca.pairs_union hcb
  refine ⟨hca.within_iff_subset hcb, ?_, fun hab hbc => ?_, fun hab hba => ?_, rfl, ?_, ?_,
    fun hac hbc => ?_⟩
  · exact hca.within_of_pairs_subset hca subset_rfl
  · exact hca.within_of_pairs_subset hcc
      ((pairs_subset_of_within hab).trans (pairs_subset_of_within hbc))
  · obtain rfl := hca.eq_of_pairs_eq hcb
      ((pairs_subset_of_within hab).antisymm (pairs_subset_of_within hba))
    exact ⟨rfl, rfl⟩
  · exact hca.within_of_pairs_subset hunion (hpairs ▸ Set.subset_union_left)
  · exact hcb.within_of_pairs_subset hunion (hpairs ▸ Set.subset_union_right)
  · refine hunion.within_of_pairs_subset hcc (hpairs ▸ ?_)
    exact Set.union_subset (pairs_subset_of_within hac) (pairs_subset_of_within hbc)

/-- The ids up to the last but one and the last id are within the interval of them all, and so is
their union, whose two parts have become one interval. -/
theorem within_order_largest :
    let a := empty.addInterval " A:B," ⟨7, 18446744073709551614⟩
    let b := (empty.addGtid "a:b," 18446744073709551615).2
    let c := empty.addInterval "A:b,\t" ⟨7, 18446744073709551615⟩
    Grown a ∧ Grown b ∧ Grown c ∧ (a.union b).within c = true ∧ ¬c.pairs ⊆ a.pairs := by
  intro a b c
  have ha : Grown a := Grown.empty.interval _ (by decide)
  have hb : Grown b := Grown.empty.gtid _ _
  have hc : Grown c := Grown.empty.interval _ (by decide)
  have hac : a.within c = true := by decide +kernel
  have hbc : b.within c = true := by decide +kernel
  have hca : c.within a = false := by decide +kernel
  obtain ⟨-, -, -, -, -, -, -, hleast⟩ := within_order ha hb hc
  obtain ⟨hiff, -⟩ := within_order hc ha hb
  refine ⟨ha, hb, hc, hleast hac hbc, fun h => ?_⟩
  rw [hiff.2 h] at hca
  cases hca

end ChangeFeed.GtidSet
