import ChangeFeed.LogPosition
import ChangeFeed.Proofs.Gtid.Containment

/-!
# The order of log positions

**Places** (`Before`). A place is earlier when its file has the lower number, or the same number and
the offset is lower. The number of a file is the numeral after the last dot of its name.

**Verdicts.** A verdict is that of the places, or it is that the positions are equal because the
transactions of one contain those of the other (`compareTo_eq_or`).

**Kinds of positions** (`OrderedOn`). Where transactions never decide, positions are ordered by
their places: when all name one server, and when none carries transactions.

Main result: `compareTo_order`.
-/

namespace ChangeFeed.LogPosition

/-! ## Places -/

/-- The place of `p` is earlier in the log. -/
def Before (p q : LogPosition) : Prop :=
  p.fileNumber < q.fileNumber ∨ p.fileNumber = q.fileNumber ∧ p.position < q.position

instance (p q : LogPosition) : Decidable (p.Before q) := inferInstanceAs (Decidable (_ ∨ _))

/-- The number of a file is read from the last part of its name, whatever stands before the last dot
and however many zeros stand in front of it. -/
theorem fileNumberOf_padded (base : String) (k : Nat) (n : UInt64) :
    fileNumberOf (base ++ "." ++ String.ofList (List.replicate k '0') ++ Text.decimal n.toNat) =
      n := by
  have hdot : '.' ∉ List.replicate k '0' ++ Text.digits n.toNat := by
    rw [List.mem_append, not_or]
    exact ⟨fun h => absurd (List.eq_of_mem_replicate h) (by decide),
      Text.not_mem_digits (by decide) _⟩
  have hname : (base ++ "." ++ String.ofList (List.replicate k '0') ++
      Text.decimal n.toNat).toList =
      base.toList ++ '.' :: (List.replicate k '0' ++ Text.digits n.toNat) := by
    simp [Text.decimal]
  rw [fileNumberOf, hname, Text.cutLast?_append hdot]
  simp only [Text.readU64_padded]

theorem compareOffsets_swap (p q : LogPosition) :
    (p.compareOffsets q).swap = q.compareOffsets p := by
  rw [compareOffsets, Ordering.swap_then, ← Std.OrientedCmp.eq_swap, ← Std.OrientedCmp.eq_swap,
    compareOffsets]

theorem compareOffsets_eq_lt_iff_before {p q : LogPosition} :
    p.compareOffsets q = .lt ↔ p.Before q := by
  rw [compareOffsets, Ordering.then_eq_lt, Std.compare_eq_lt, Std.compare_eq_lt,
    Std.compare_eq_iff_eq, Before]

theorem before_iff {p q : LogPosition} : p.Before q ↔ p.rank < q.rank := by
  rw [← compareOffsets_eq_lt_iff_before, compareOffsets_eq_lt_iff]

theorem compareOffsets_eq_gt_iff_before {p q : LogPosition} :
    p.compareOffsets q = .gt ↔ q.Before p := by
  rw [← compareOffsets_eq_lt_iff_before, ← compareOffsets_swap q p, Ordering.swap_eq_gt]

theorem compareOffsets_eq_eq_iff {p q : LogPosition} :
    p.compareOffsets q = .eq ↔ p.fileNumber = q.fileNumber ∧ p.position = q.position := by
  rw [compareOffsets, Ordering.then_eq_eq, Std.compare_eq_iff_eq, Std.compare_eq_iff_eq]

theorem compareOffsets_ne_gt_iff {p q : LogPosition} :
    p.compareOffsets q ≠ .gt ↔ p.rank ≤ q.rank := by
  rw [ne_eq, ← compareOffsets_swap, Ordering.swap_eq_gt, compareOffsets_eq_lt_iff, Nat.not_lt]

/-! ## Verdicts -/

theorem sameServer_comm (p q : LogPosition) : p.sameServer q = q.sameServer p := by
  unfold sameServer
  cases p.server <;> cases q.server <;> simp [Bool.beq_comm]

theorem sameProgress_comm (p q : LogPosition) : p.sameProgress q = q.sameProgress p := by
  unfold sameProgress
  cases p.gtids <;> cases q.gtids <;> simp [Bool.or_comm]

theorem compareTo_swap (p q : LogPosition) : (p.compareTo q).swap = q.compareTo p := by
  unfold compareTo
  rw [sameServer_comm q p, sameProgress_comm q p]
  split
  · exact compareOffsets_swap p q
  · split
    · rfl
    · exact compareOffsets_swap p q

theorem compareTo_self (p : LogPosition) : p.compareTo p = .eq := by
  rcases compareTo_eq_or p p with h | h
  · exact h
  · rw [h, compareOffsets_eq_eq_iff]
    exact ⟨rfl, rfl⟩

theorem compareTo_of_no_gtids {p q : LogPosition} (hp : p.gtids = none) :
    p.compareTo q = p.compareOffsets q := by
  have hprogress : p.sameProgress q = false := by simp [sameProgress, hp]
  rw [compareTo, hprogress]
  split <;> rfl

theorem sameServer_eq_false {p q : LogPosition}
    (h : ∀ u, ¬(p.server = some u ∧ q.server = some u)) : p.sameServer q = false := by
  unfold sameServer
  split
  · rename_i u v hu hv
    refine beq_eq_false_iff_ne.2 ?_
    rintro rfl
    exact h u ⟨hu, hv⟩
  · rfl

theorem compareTo_of_within {p q : LogPosition}
    (hserver : ∀ u, ¬(p.server = some u ∧ q.server = some u)) {x y : GtidSet}
    (hp : p.gtids = some x) (hq : q.gtids = some y) (h : x.within y = true ∨ y.within x = true) :
    p.compareTo q = .eq := by
  have hprogress : p.sameProgress q = true := by
    simpa only [sameProgress, hp, hq, Bool.or_eq_true] using h
  rw [compareTo, sameServer_eq_false hserver, hprogress]
  rfl

/-! ## Kinds of positions -/

/-- On these positions the order is a total preorder, in which the positions of one place are equal.
-/
structure OrderedOn (K : Set LogPosition) : Prop where
  total : ∀ p ∈ K, ∀ q ∈ K, p.compareTo q ≠ .gt ∨ q.compareTo p ≠ .gt
  trans : ∀ p ∈ K, ∀ q ∈ K, ∀ r ∈ K,
    p.compareTo q ≠ .gt → q.compareTo r ≠ .gt → p.compareTo r ≠ .gt
  eq_iff : ∀ p ∈ K, ∀ q ∈ K,
    p.compareTo q = .eq ↔ p.fileNumber = q.fileNumber ∧ p.position = q.position

theorem orderedOn_of_places {K : Set LogPosition}
    (h : ∀ p ∈ K, ∀ q ∈ K, p.compareTo q = p.compareOffsets q) : OrderedOn K where
  total p hp q hq := by
    rw [h p hp q hq, h q hq p hp, compareOffsets_ne_gt_iff, compareOffsets_ne_gt_iff]
    exact Nat.le_total p.rank q.rank
  trans p hp q hq r hr := by
    rw [h p hp q hq, h q hq r hr, h p hp r hr, compareOffsets_ne_gt_iff, compareOffsets_ne_gt_iff,
      compareOffsets_ne_gt_iff]
    exact Nat.le_trans
  eq_iff p hp q hq := by rw [h p hp q hq, compareOffsets_eq_eq_iff]

/-- **Which position is further on.** The verdict on two positions in the other order is the
reverse, and a position equals itself. A verdict other than equal is that of the places, whatever
the files are called, with zeros in front of their numbers or without, and whatever servers and
transactions are there. Positions that all name one server are ordered by their places, and so are
positions without transactions. Two positions that do not name one server are equal when the
transactions of one contain those of the other. -/
theorem compareTo_order :
    (∀ p q : LogPosition, q.compareTo p = (p.compareTo q).swap ∧ p.compareTo p = .eq ∧
      (p.compareTo q = .lt → p.Before q) ∧ (p.compareTo q = .gt → q.Before p)) ∧
    (∀ base k n, fileNumberOf
      (base ++ "." ++ String.ofList (List.replicate k '0') ++ Text.decimal n.toNat) = n) ∧
    (∀ K : Set LogPosition, (∃ u, ∀ p ∈ K, p.server = some u) ∨ (∀ p ∈ K, p.gtids = none) →
      OrderedOn K) ∧
    ∀ p q : LogPosition, (∀ u, ¬(p.server = some u ∧ q.server = some u)) →
      ∀ x y, p.gtids = some x → q.gtids = some y →
        (x.within y = true ∨ y.within x = true → p.compareTo q = .eq) ∧
        (x.Grown → y.Grown → x.pairs ⊆ y.pairs ∨ y.pairs ⊆ x.pairs → p.compareTo q = .eq) := by
  refine ⟨fun p q => ⟨(compareTo_swap p q).symm, compareTo_self p, fun h => ?_, fun h => ?_⟩,
    fileNumberOf_padded, fun K hK => ?_,
    fun p q hserver x y hx hy => ⟨fun h => ?_, fun gx gy h => ?_⟩⟩
  · rcases compareTo_eq_or p q with he | he
    · cases he.symm.trans h
    · exact compareOffsets_eq_lt_iff_before.1 (he ▸ h)
  · rcases compareTo_eq_or p q with he | he
    · cases he.symm.trans h
    · exact compareOffsets_eq_gt_iff_before.1 (he ▸ h)
  · refine orderedOn_of_places fun p hp q hq => ?_
    rcases hK with ⟨u, hu⟩ | hnone
    · exact compareTo_of_server (hu p hp) (hu q hq)
    · exact compareTo_of_no_gtids (hnone p hp)
  · exact compareTo_of_within hserver hx hy h
  · refine compareTo_of_within hserver hx hy (h.imp ?_ ?_)
    · exact gx.compact.within_of_pairs_subset gy.compact
    · exact gy.compact.within_of_pairs_subset gx.compact

/-- Positions of two servers, one of which has more transactions, in files whose numbers have zeros
in front of them or not, and a position of one of the servers in a file with another name. -/
theorem compareTo_order_servers :
    let few := GtidSet.empty.addInterval "u" ⟨1, 100⟩
    let many := few.addInterval "v" ⟨7, 18446744073709551615⟩
    let p : LogPosition := ⟨"mysql-bin.9", 500, 600, some few, some "u"⟩
    let q : LogPosition := ⟨"mysql-bin.000010", 4, 100, some many, some "v"⟩
    let r : LogPosition := ⟨"relay.log.00010", 4, 100, none, some "u"⟩
    p.compareTo q = .eq ∧ q.compareTo p = .eq ∧ p.Before q ∧ p.compareTo r = .lt ∧
      r.compareTo p = .gt ∧ OrderedOn {p, r} ∧ OrderedOn {r} := by
  intro few many p q r
  obtain ⟨hlaws, hnumber, hkinds, hprogress⟩ := compareTo_order
  have hfew : few.Grown := .interval .empty "u" (by decide)
  have hmany : many.Grown := .interval hfew "v" (by decide)
  have hwithin : few.within many = true := by decide +kernel
  have hservers : ∀ u, ¬(p.server = some u ∧ q.server = some u) := by
    rintro u ⟨hu, hv⟩
    cases hu
    exact absurd hv (by decide)
  have hpq : p.compareTo q = .eq := (hprogress p q hservers few many rfl rfl).2 hfew hmany
    (Or.inl (GtidSet.pairs_subset_of_within hwithin))
  have hnine : p.fileNumber = 9 :=
    (congrArg fileNumberOf (by decide +kernel)).trans (hnumber "mysql-bin" 0 9)
  have hten : q.fileNumber = 10 :=
    (congrArg fileNumberOf (by decide +kernel)).trans (hnumber "mysql-bin" 4 10)
  have hpr : p.compareTo r = .lt := by decide +kernel
  have hserver : ∀ x ∈ ({p, r} : Set LogPosition), x.server = some "u" := by
    rintro x (rfl | rfl)
    · rfl
    · rfl
  refine ⟨hpq, ?_, ?_, hpr, ?_, hkinds _ (Or.inl ⟨"u", hserver⟩), hkinds _ (Or.inr ?_)⟩
  · rw [(hlaws p q).1, hpq]
    rfl
  · refine Or.inl ?_
    rw [hnine, hten]
    decide
  · rw [(hlaws p r).1, hpr]
    rfl
  · rintro x rfl
    rfl

end ChangeFeed.LogPosition
