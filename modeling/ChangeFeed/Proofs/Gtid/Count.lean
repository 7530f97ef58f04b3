import ChangeFeed.Proofs.Gtid.Containment
import Mathlib

/-!
# Counting transaction ids

**Sums that stop** (`toNat_foldl_addUpTo`). An addition that stops at the largest word gives the
exact sum up to the largest word, and so does a whole sum of terms that are stopped there
themselves. No step of it wraps around.

**Disjoint parts** (`ncard_of_disjoint`). Intervals in normal form hold no id twice, and no two
servers of a set have the same UUID. So the widths of the intervals add up to the number of pairs
that the set stands for.

Main result: `count_pairs`.
-/

namespace ChangeFeed

/-- Disjoint sets have as many members together as one by one. -/
theorem ncard_of_disjoint {α β : Type} {S : α → Set β} {as : List α} (hfin : ∀ a, (S a).Finite)
    (hd : as.Pairwise fun a b => Disjoint (S a) (S b)) :
    {x | ∃ a ∈ as, x ∈ S a}.ncard = (as.map fun a => (S a).ncard).sum := by
  induction as with
  | nil => simp
  | cons a as ih =>
    obtain ⟨ha, has⟩ := List.pairwise_cons.1 hd
    have hunion : {x | ∃ b ∈ a :: as, x ∈ S b} = S a ∪ {x | ∃ b ∈ as, x ∈ S b} := by
      ext x
      simp
    have hrest : {x | ∃ b ∈ as, x ∈ S b}.Finite := by
      refine (Set.Finite.biUnion (List.finite_toSet as) fun b _ => hfin b).subset ?_
      rintro x ⟨b, hb, hx⟩
      exact Set.mem_biUnion hb hx
    have hdisjoint : Disjoint (S a) {x | ∃ b ∈ as, x ∈ S b} := by
      refine Set.disjoint_left.2 fun x hx => ?_
      rintro ⟨b, hb, hxb⟩
      exact Set.disjoint_left.1 (ha b hb) hx hxb
    rw [hunion, Set.ncard_union_eq hdisjoint (hfin a) hrest, ih has, List.map_cons, List.sum_cons]

namespace Interval

/-! ## Sums that stop at the largest word -/

theorem toNat_addUpTo (a b : UInt64) :
    (addUpTo a b).toNat = min (a.toNat + b.toNat) (UInt64.size - 1) := by
  unfold addUpTo
  split
  · rename_i h
    rw [Nat.min_eq_right (by omega)]
    rfl
  · rename_i h
    rw [UInt64.toNat_add, Nat.mod_eq_of_lt (Nat.lt_of_not_le h), Nat.min_eq_left (by omega)]

theorem toNat_foldl_addUpTo {α : Type} {f : α → UInt64} {g : α → Nat} {as : List α}
    (h : ∀ a ∈ as, (f a).toNat = min (g a) (UInt64.size - 1)) (t : UInt64) :
    (as.foldl (fun t a => addUpTo t (f a)) t).toNat =
      min (t.toNat + (as.map g).sum) (UInt64.size - 1) := by
  induction as generalizing t with
  | nil =>
    have ht : t.toNat < UInt64.size := t.toNat_lt
    rw [List.foldl_nil, List.map_nil, List.sum_nil, Nat.min_eq_left (by omega), Nat.add_zero]
  | cons a as ih =>
    have ha := h a List.mem_cons_self
    rw [List.foldl_cons, ih (fun b hb => h b (List.mem_cons_of_mem _ hb)), toNat_addUpTo, ha,
      List.map_cons, List.sum_cons]
    omega

/-! ## Intervals -/

/-- How many ids the interval holds. -/
def width (i : Interval) : Nat := i.stop.toNat + 1 - i.start.toNat

theorem ncard_contains (i : Interval) : {n | i.contains n = true}.ncard = i.width := by
  have himage : UInt64.toNat '' {n | i.contains n = true} =
      (Finset.Icc i.start.toNat i.stop.toNat : Set Nat) := by
    ext k
    rw [Finset.mem_coe, Finset.mem_Icc]
    constructor
    · rintro ⟨n, hn, rfl⟩
      exact (contains_iff i n).1 hn
    · intro hk
      have hlt : i.stop.toNat < UInt64.size := i.stop.toNat_lt
      have hn : (UInt64.ofNat k).toNat = k := UInt64.toNat_ofNat_of_lt' (by omega)
      exact ⟨.ofNat k, (contains_iff i _).2 (by rwa [hn]), hn⟩
  have hinj : Function.Injective UInt64.toNat := fun _ _ => UInt64.toNat_inj.1
  rw [← Set.ncard_image_of_injective _ hinj, himage, Set.ncard_coe_finset, Nat.card_Icc, width]

/-- The end is not before the start, so nothing is borrowed in the subtraction. -/
theorem toNat_size {i : Interval} (h : i.start.toNat ≤ i.stop.toNat) :
    i.size.toNat = min i.width (UInt64.size - 1) := by
  have hone : (1 : UInt64).toNat = 1 := rfl
  rw [size, toNat_addUpTo, UInt64.toNat_sub_of_le _ _ (UInt64.le_iff_toNat_le.2 h), hone, width,
    Nat.sub_add_comm h]

theorem toNat_total {is : List Interval} (h : WellFormed is) :
    (total is).toNat = min (is.map width).sum (UInt64.size - 1) := by
  have hsum := toNat_foldl_addUpTo (fun i hi => toNat_size (h i hi)) 0
  rwa [show (0 : UInt64).toNat = 0 from rfl, Nat.zero_add] at hsum

theorem Normal.sublist {is js : List Interval} (h : Normal js) (hs : is.Sublist js) : Normal is :=
  ⟨fun i hi => h.wellFormed i (hs.mem hi), h.apart.sublist hs⟩

theorem Normal.ncard_holds {is : List Interval} (h : Normal is) :
    {n | Holds is n}.ncard = (is.map width).sum := by
  have hd : is.Pairwise fun i j =>
      Disjoint {n | i.contains n = true} {n | j.contains n = true} := by
    refine h.apart.imp fun {i j} hij => Set.disjoint_left.2 fun n hi hj => ?_
    have hi := (contains_iff i n).1 hi
    have hj := (contains_iff j n).1 hj
    omega
  have hsum := ncard_of_disjoint (fun _ => Set.toFinite _) hd
  simp only [ncard_contains] at hsum
  exact hsum

/-- What the intervals are counted to is how many ids they hold, up to the largest word. -/
theorem Normal.toNat_total {is : List Interval} (h : Normal is) :
    (total is).toNat = min {n | Holds is n}.ncard (UInt64.size - 1) := by
  rw [Interval.toNat_total h.wellFormed, h.ncard_holds]

end Interval

/-! ## Servers -/

namespace UuidSet

/-- The pairs that the servers stand for. -/
def pairsOf (us : List UuidSet) : Set (String × UInt64) :=
  {x | ∃ u ∈ us, u.uuid = x.1 ∧ Interval.Holds u.intervals x.2}

/-- How many ids the servers hold, up to the largest word. -/
def countOf (us : List UuidSet) : UInt64 :=
  us.foldl (fun n u => Interval.addUpTo n u.count) 0

theorem ncard_pairs (u : UuidSet) :
    {x : String × UInt64 | u.uuid = x.1 ∧ Interval.Holds u.intervals x.2}.ncard =
      {n | Interval.Holds u.intervals n}.ncard := by
  have himage : {x : String × UInt64 | u.uuid = x.1 ∧ Interval.Holds u.intervals x.2} =
      Prod.mk u.uuid '' {n | Interval.Holds u.intervals n} := by
    ext ⟨k, n⟩
    constructor
    · rintro ⟨rfl, hn⟩
      exact ⟨n, hn, rfl⟩
    · rintro ⟨m, hm, he⟩
      cases he
      exact ⟨rfl, hm⟩
  rw [himage, Set.ncard_image_of_injective _ (Prod.mk_right_injective u.uuid)]

theorem finite_pairs (u : UuidSet) :
    {x : String × UInt64 | u.uuid = x.1 ∧ Interval.Holds u.intervals x.2}.Finite := by
  refine (Set.toFinite ({u.uuid} ×ˢ Set.univ)).subset ?_
  rintro x ⟨hk, -⟩
  exact ⟨hk.symm, trivial⟩

/-- What servers of different names are counted to is how many pairs they stand for, up to the
largest word. -/
theorem toNat_countOf {us : List UuidSet} (hus : ∀ u ∈ us, u.Compact)
    (hne : us.Pairwise fun u v => u.uuid ≠ v.uuid) :
    (countOf us).toNat = min (pairsOf us).ncard (UInt64.size - 1) := by
  have hd : us.Pairwise fun u v =>
      Disjoint {x : String × UInt64 | u.uuid = x.1 ∧ Interval.Holds u.intervals x.2}
        {x : String × UInt64 | v.uuid = x.1 ∧ Interval.Holds v.intervals x.2} :=
    hne.imp fun huv => Set.disjoint_left.2 fun x hu hv => huv (hu.1.trans hv.1.symm)
  have hpairs := ncard_of_disjoint finite_pairs hd
  simp only [ncard_pairs] at hpairs
  have hsum := Interval.toNat_foldl_addUpTo (f := count)
    (fun u hu => (hus u hu).normal.toNat_total) 0
  rwa [← hpairs, show (0 : UInt64).toNat = 0 from rfl, Nat.zero_add] at hsum

end UuidSet

namespace GtidSet

theorem pairwise_uuid_ne (s : GtidSet) : s.toList.Pairwise fun u v => u.uuid ≠ v.uuid := by
  rw [toList, List.pairwise_map]
  refine s.servers.increasing.imp fun {e f} hlt he => ?_
  have he : e.1 = f.1 := he
  exact String.lt_irrefl f.1 (he ▸ hlt)

/-- **Counting is exact up to the largest word.** The count is the number of pairs that the set
stands for, or the largest word when there are more. On the way no interval ends before it starts,
so no subtraction goes below zero, and no addition wraps around: after each interval and after each
server the sum is the number of what has been counted, or the largest word. -/
theorem count_pairs {s : GtidSet} (h : Grown s) :
    s.count.toNat = min s.pairs.ncard (UInt64.size - 1) ∧
    (∀ u ∈ s.toList, ∀ i ∈ u.intervals, i.start ≤ i.stop ∧
      i.size.toNat = min (i.stop.toNat - i.start.toNat + 1) (UInt64.size - 1)) ∧
    (∀ u ∈ s.toList, ∀ is, is <+: u.intervals →
      (Interval.total is).toNat = min {n | Interval.Holds is n}.ncard (UInt64.size - 1)) ∧
    ∀ us, us <+: s.toList →
      (UuidSet.countOf us).toNat = min (UuidSet.pairsOf us).ncard (UInt64.size - 1) := by
  have hc := h.compact
  have hservers : ∀ us, us <+: s.toList →
      (UuidSet.countOf us).toNat = min (UuidSet.pairsOf us).ncard (UInt64.size - 1) :=
    fun us hus => UuidSet.toNat_countOf (fun u hu => hc u (hus.mem hu))
      (s.pairwise_uuid_ne.sublist hus.sublist)
  refine ⟨hservers _ List.prefix_rfl, fun u hu i hi => ?_, fun u hu is his => ?_, hservers⟩
  · have hle := (hc u hu).normal.wellFormed i hi
    refine ⟨UInt64.le_iff_toNat_le.2 hle, ?_⟩
    rw [Interval.toNat_size hle, Interval.width, Nat.sub_add_comm hle]
  · exact ((hc u hu).normal.sublist his.sublist).toNat_total

/-- Up to the largest id, with one id left out and with a second server, whose ids are too many. -/
theorem count_pairs_largest :
    let s := (empty.addGtid "a" 1).2.addInterval "A " ⟨3, 18446744073709551615⟩
    let t := s.addInterval "b" ⟨0, 18446744073709551615⟩
    Grown s ∧ Grown t ∧ s.count = 18446744073709551614 ∧ s.pairs.ncard = 18446744073709551614 ∧
      t.count = 18446744073709551615 ∧ 18446744073709551615 ≤ t.pairs.ncard := by
  intro s t
  have hs : Grown s := (Grown.empty.gtid "a" 1).interval _ (by decide)
  have ht : Grown t := hs.interval _ (by decide)
  have hcs : s.count = 18446744073709551614 := by cbv
  have hct : t.count = 18446744073709551615 := by cbv
  obtain ⟨hns, -⟩ := count_pairs hs
  obtain ⟨hnt, -⟩ := count_pairs ht
  rw [hcs] at hns
  rw [hct] at hnt
  have hns : 18446744073709551614 = min s.pairs.ncard 18446744073709551615 := hns
  have hnt : 18446744073709551615 = min t.pairs.ncard 18446744073709551615 := hnt
  exact ⟨hs, ht, hcs, by omega, hct, by omega⟩

end GtidSet

end ChangeFeed
