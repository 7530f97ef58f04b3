import ChangeFeed.Gtid.Interval
import Mathlib.Tactic.Common

/-!
# The normal form of intervals

A list of intervals stands for the ids that its intervals hold. Sorting and merging neighbours that
touch leads to a list in normal form for the same ids, and no other list in normal form stands for
them.

**Normal form** (`Normal`). Each interval is well formed, and at least one id lies between each two.

Main results: `holds_collapse`, `normal_collapse`, `normal_ext` and `Normal.exists_covers`.
-/

namespace ChangeFeed.Interval

/-! ## Words as numbers -/

theorem toNat_next (n : UInt64) : (next n).toNat = min (n.toNat + 1) (UInt64.size - 1) := by
  unfold next
  split
  · rename_i h
    rw [h]
    rfl
  · rename_i h
    have hne : n.toNat ≠ UInt64.size - 1 := fun he => h (UInt64.toNat_inj.1 he)
    have hlt : n.toNat < UInt64.size := n.toNat_lt
    have hone : (1 : UInt64).toNat = 1 := rfl
    rw [UInt64.toNat_add, hone, show (2 : Nat) ^ 64 = UInt64.size from rfl]
    rw [show UInt64.size = 18446744073709551616 from rfl] at *
    omega

theorem toNat_max (a b : UInt64) : (max a b).toNat = max a.toNat b.toNat := by
  rw [UInt64.max_def, Nat.max_def]
  simp only [UInt64.le_iff_toNat_le]
  split <;> rfl

/-- Two intervals touch when neither begins more than one id after the end of the other. That ends
are followed by nothing at the largest word does not matter. -/
theorem touches_iff (i j : Interval) : i.touches j = true ↔
    j.start.toNat ≤ i.stop.toNat + 1 ∧ i.start.toNat ≤ j.stop.toNat + 1 := by
  have hi : i.start.toNat < UInt64.size := i.start.toNat_lt
  have hj : j.start.toNat < UInt64.size := j.start.toNat_lt
  simp only [touches, Bool.and_eq_true, decide_eq_true_eq, UInt64.le_iff_toNat_le, toNat_next]
  rw [show UInt64.size = 18446744073709551616 from rfl] at *
  omega

theorem contains_iff (i : Interval) (n : UInt64) :
    i.contains n = true ↔ i.start.toNat ≤ n.toNat ∧ n.toNat ≤ i.stop.toNat := by
  simp [contains, UInt64.le_iff_toNat_le]

theorem covers_iff (i j : Interval) : i.covers j = true ↔
    i.start.toNat ≤ j.start.toNat ∧ j.stop.toNat ≤ i.stop.toNat := by
  simp [covers, UInt64.le_iff_toNat_le]

theorem le_iff (i j : Interval) : i.le j = true ↔
    i.start.toNat < j.start.toNat ∨ i.start = j.start ∧ i.stop.toNat ≤ j.stop.toNat := by
  rw [le, cmp, ← UInt64.toNat_inj]
  rcases Nat.lt_trichotomy i.start.toNat j.start.toNat with h | h | h
  · have hc : compare i.start j.start = .lt := Std.compare_eq_lt.2 h
    simp [hc, h]
  · have hc : compare i.start j.start = .eq := by
      rw [UInt64.toNat_inj.1 h]
      exact Std.ReflCmp.compare_self
    simp [hc, h, Std.isLE_compare, UInt64.le_iff_toNat_le]
  · have hc : compare i.start j.start = .gt := Std.compare_eq_gt.2 h
    simp [hc]
    omega

theorem le_trans {i j k : Interval} (hij : i.le j = true) (hjk : j.le k = true) :
    i.le k = true := by
  simp only [le_iff, ← UInt64.toNat_inj] at *
  omega

theorem le_total (i j : Interval) : (i.le j || j.le i) = true := by
  simp only [Bool.or_eq_true, le_iff, ← UInt64.toNat_inj]
  omega

/-! ## What intervals hold -/

/-- Does one of the intervals hold the id? -/
def Holds (is : List Interval) (n : UInt64) : Prop := ∃ i ∈ is, i.contains n = true

@[simp] theorem not_holds_nil (n : UInt64) : ¬Holds [] n := by simp [Holds]

@[simp] theorem holds_cons (i : Interval) (is : List Interval) (n : UInt64) :
    Holds (i :: is) n ↔ i.contains n = true ∨ Holds is n := by
  simp [Holds]

@[simp] theorem holds_append (is js : List Interval) (n : UInt64) :
    Holds (is ++ js) n ↔ Holds is n ∨ Holds js n := by
  simp [Holds, or_and_right, exists_or]

/-- Is every interval well formed? -/
def WellFormed (is : List Interval) : Prop := ∀ i ∈ is, i.start.toNat ≤ i.stop.toNat

theorem wellFormed_append {is js : List Interval} (hi : WellFormed is) (hj : WellFormed js) :
    WellFormed (is ++ js) :=
  fun k hk => (List.mem_append.1 hk).elim (hi k) (hj k)

theorem wellFormed_singleton {i : Interval} (h : i.start ≤ i.stop) : WellFormed [i] := by
  intro j hj
  obtain rfl := List.mem_singleton.1 hj
  exact UInt64.le_iff_toNat_le.1 h

/-- The intervals are well formed, and between each two of them lies an id that none holds. -/
structure Normal (is : List Interval) : Prop where
  wellFormed : WellFormed is
  apart : is.Pairwise fun i j => i.stop.toNat + 1 < j.start.toNat

theorem normal_nil : Normal [] := ⟨fun _ h => absurd h List.not_mem_nil, List.Pairwise.nil⟩

/-! ## Merging -/

/-- Does no interval begin before an earlier one of the list? -/
def Ordered (is : List Interval) : Prop := is.Pairwise fun i j => i.start.toNat ≤ j.start.toNat

/-- What comes of two intervals that touch, the first of which begins first. -/
def merged (i j : Interval) : Interval := ⟨i.start, max i.stop j.stop⟩

@[simp] theorem merged_start (i j : Interval) : (merged i j).start = i.start := rfl

@[simp] theorem merged_stop (i j : Interval) :
    (merged i j).stop.toNat = max i.stop.toNat j.stop.toNat :=
  toNat_max _ _

theorem mergeFrom_of_touches {i j : Interval} (h : i.touches j = true) (is : List Interval) :
    mergeFrom i (j :: is) = mergeFrom (merged i j) is :=
  if_pos h

theorem mergeFrom_of_not {i j : Interval} (h : ¬i.touches j = true) (is : List Interval) :
    mergeFrom i (j :: is) = i :: mergeFrom j is :=
  if_neg h

theorem contains_merged {i j : Interval} (hle : i.start.toNat ≤ j.start.toNat)
    (ht : i.touches j = true) (n : UInt64) :
    (merged i j).contains n = true ↔ i.contains n = true ∨ j.contains n = true := by
  rw [touches_iff] at ht
  simp only [contains_iff, merged_start, merged_stop]
  omega

theorem wellFormed_merged {i j : Interval} {is : List Interval} (h : WellFormed (i :: j :: is)) :
    WellFormed (merged i j :: is) := by
  intro k hk
  rcases List.mem_cons.1 hk with rfl | hk
  · have hi := h i List.mem_cons_self
    rw [merged_start, merged_stop]
    omega
  · exact h k (List.mem_cons_of_mem _ (List.mem_cons_of_mem _ hk))

theorem ordered_merged {i j : Interval} {is : List Interval} (h : Ordered (i :: j :: is)) :
    Ordered (merged i j :: is) := by
  obtain ⟨hi, hjs⟩ := List.pairwise_cons.1 h
  exact List.pairwise_cons.2
    ⟨fun k hk => hi k (List.mem_cons_of_mem _ hk), (List.pairwise_cons.1 hjs).2⟩

theorem holds_mergeFrom {last : Interval} {is : List Interval} (hwf : WellFormed (last :: is))
    (ho : Ordered (last :: is)) (n : UInt64) :
    Holds (mergeFrom last is) n ↔ Holds (last :: is) n := by
  induction is generalizing last with
  | nil => rfl
  | cons i is ih =>
    by_cases ht : last.touches i = true
    · have hle := (List.pairwise_cons.1 ho).1 i List.mem_cons_self
      rw [mergeFrom_of_touches ht, ih (wellFormed_merged hwf) (ordered_merged ho)]
      simp only [holds_cons, contains_merged hle ht, or_assoc]
    · have hwf' : WellFormed (i :: is) := fun k hk => hwf k (List.mem_cons_of_mem _ hk)
      rw [mergeFrom_of_not ht, holds_cons, ih hwf' (List.pairwise_cons.1 ho).2, ← holds_cons]

theorem contains_merged_of_contains {i j : Interval} (hle : i.start.toNat ≤ j.start.toNat)
    {n : UInt64} (h : i.contains n = true ∨ j.contains n = true) :
    (merged i j).contains n = true := by
  simp only [contains_iff, merged_start, merged_stop] at h ⊢
  omega

/-- Merging loses no id, also where intervals end before they start. -/
theorem holds_mergeFrom_of_holds {last : Interval} {is : List Interval}
    (ho : Ordered (last :: is)) {n : UInt64} (h : Holds (last :: is) n) :
    Holds (mergeFrom last is) n := by
  induction is generalizing last with
  | nil => exact h
  | cons i is ih =>
    obtain ⟨hlast, hi⟩ := List.pairwise_cons.1 ho
    rw [holds_cons, holds_cons] at h
    by_cases ht : last.touches i = true
    · have hle := hlast i List.mem_cons_self
      rw [mergeFrom_of_touches ht]
      refine ih (ordered_merged ho) ((holds_cons _ _ _).2 ?_)
      exact (or_assoc.2 h).imp_left (contains_merged_of_contains hle)
    · rw [mergeFrom_of_not ht, holds_cons]
      exact h.imp_right fun h => ih hi ((holds_cons _ _ _).2 h)

/-- No merged interval begins before the one that grows first. -/
theorem start_le_of_mem_mergeFrom {last : Interval} {is : List Interval}
    (ho : Ordered (last :: is)) {j : Interval} (hj : j ∈ mergeFrom last is) :
    last.start.toNat ≤ j.start.toNat := by
  induction is generalizing last with
  | nil =>
    obtain rfl := List.mem_singleton.1 hj
    exact Nat.le_refl _
  | cons i is ih =>
    by_cases ht : last.touches i = true
    · rw [mergeFrom_of_touches ht] at hj
      have hle := ih (ordered_merged ho) hj
      exact hle
    · rw [mergeFrom_of_not ht] at hj
      obtain ⟨hlast, hi⟩ := List.pairwise_cons.1 ho
      rcases List.mem_cons.1 hj with rfl | hj
      · exact Nat.le_refl _
      · exact Nat.le_trans (hlast i List.mem_cons_self) (ih hi hj)

theorem normal_mergeFrom {last : Interval} {is : List Interval} (hwf : WellFormed (last :: is))
    (ho : Ordered (last :: is)) : Normal (mergeFrom last is) := by
  induction is generalizing last with
  | nil => exact ⟨hwf, List.pairwise_singleton _ _⟩
  | cons i is ih =>
    by_cases ht : last.touches i = true
    · rw [mergeFrom_of_touches ht]
      exact ih (wellFormed_merged hwf) (ordered_merged ho)
    · obtain ⟨hlast, hi⟩ := List.pairwise_cons.1 ho
      have hn := ih (fun k hk => hwf k (List.mem_cons_of_mem _ hk)) hi
      rw [mergeFrom_of_not ht]
      refine ⟨fun k hk => ?_, List.pairwise_cons.2 ⟨fun k hk => ?_, hn.apart⟩⟩
      · rcases List.mem_cons.1 hk with rfl | hk
        · exact hwf _ List.mem_cons_self
        · exact hn.wellFormed k hk
      · -- `i` begins after a gap, and everything after it begins even later.
        have hik := start_le_of_mem_mergeFrom hi hk
        have hle := hlast i List.mem_cons_self
        have hwi := hwf i (List.mem_cons_of_mem _ List.mem_cons_self)
        rw [touches_iff] at ht
        omega

theorem mergeFrom_ne_nil (last : Interval) (is : List Interval) : mergeFrom last is ≠ [] := by
  induction is generalizing last with
  | nil => exact List.cons_ne_nil _ _
  | cons i is ih =>
    rw [mergeFrom]
    split
    · exact ih _
    · exact List.cons_ne_nil _ _

/-! ## The normal form -/

theorem sorted_mergeSort (is : List Interval) :
    (is.mergeSort le).Pairwise fun i j => i.le j = true := by
  apply List.pairwise_mergeSort
  · intro i j k
    exact le_trans
  · exact le_total

theorem start_le_of_le {i j : Interval} (h : i.le j = true) :
    i.start.toNat ≤ j.start.toNat := by
  rw [le_iff, ← UInt64.toNat_inj] at h
  omega

theorem ordered_mergeSort (is : List Interval) : Ordered (is.mergeSort le) :=
  (sorted_mergeSort is).imp start_le_of_le

theorem holds_mergeSort (is : List Interval) (n : UInt64) :
    Holds (is.mergeSort le) n ↔ Holds is n := by
  simp [Holds]

theorem wellFormed_mergeSort {is : List Interval} (h : WellFormed is) :
    WellFormed (is.mergeSort le) :=
  fun i hi => h i (List.mem_mergeSort.1 hi)

/-- The normal form holds the same ids. -/
theorem holds_collapse {is : List Interval} (h : WellFormed is) (n : UInt64) :
    Holds (collapse is) n ↔ Holds is n := by
  rw [← holds_mergeSort is, collapse]
  have hwf := wellFormed_mergeSort h
  have ho := ordered_mergeSort is
  cases hs : is.mergeSort le with
  | nil => rfl
  | cons i js => exact holds_mergeFrom (hs ▸ hwf) (hs ▸ ho) n

theorem holds_collapse_of_holds {is : List Interval} {n : UInt64} (h : Holds is n) :
    Holds (collapse is) n := by
  rw [← holds_mergeSort] at h
  have ho := ordered_mergeSort is
  rw [collapse]
  cases hs : is.mergeSort le with
  | nil => exact absurd (hs ▸ h) (not_holds_nil n)
  | cons i js => exact holds_mergeFrom_of_holds (hs ▸ ho) (hs ▸ h)

theorem normal_collapse {is : List Interval} (h : WellFormed is) : Normal (collapse is) := by
  have hwf := wellFormed_mergeSort h
  have ho := ordered_mergeSort is
  rw [collapse]
  cases hs : is.mergeSort le with
  | nil => exact normal_nil
  | cons i js => exact normal_mergeFrom (hs ▸ hwf) (hs ▸ ho)

theorem collapse_ne_nil {is : List Interval} (h : is ≠ []) : collapse is ≠ [] := by
  rw [collapse]
  cases hs : is.mergeSort le with
  | nil =>
    have hl : (is.mergeSort le).length = is.length := List.length_mergeSort is
    rw [hs] at hl
    exact absurd (List.length_eq_zero_iff.1 hl.symm) h
  | cons i js => exact mergeFrom_ne_nil i js

/-! ## One normal form for each set of ids -/

theorem Normal.tail {i : Interval} {is : List Interval} (h : Normal (i :: is)) : Normal is :=
  ⟨fun k hk => h.wellFormed k (List.mem_cons_of_mem _ hk), (List.pairwise_cons.1 h.apart).2⟩

theorem Normal.stop_lt_of_holds {i : Interval} {is : List Interval} (h : Normal (i :: is))
    {n : UInt64} (hn : Holds is n) : i.stop.toNat + 1 < n.toNat := by
  obtain ⟨k, hk, hkn⟩ := hn
  have hik := (List.pairwise_cons.1 h.apart).1 k hk
  rw [contains_iff] at hkn
  omega

theorem Normal.start_le_of_holds {i : Interval} {is : List Interval} (h : Normal (i :: is))
    {n : UInt64} (hn : Holds (i :: is) n) : i.start.toNat ≤ n.toNat := by
  have hi := h.wellFormed i List.mem_cons_self
  rcases (holds_cons _ _ _).1 hn with hn | hn
  · exact ((contains_iff _ _).1 hn).1
  · have := h.stop_lt_of_holds hn
    omega

theorem Normal.holds_start {i : Interval} {is : List Interval} (h : Normal (i :: is)) :
    Holds (i :: is) i.start :=
  (holds_cons _ _ _).2 (Or.inl ((contains_iff _ _).2
    ⟨Nat.le_refl _, h.wellFormed i List.mem_cons_self⟩))

theorem Normal.exists_holds {is : List Interval} (h : Normal is) (hne : is ≠ []) :
    ∃ n, Holds is n := by
  cases is with
  | nil => exact absurd rfl hne
  | cons i is => exact ⟨i.start, h.holds_start⟩

theorem Normal.holds_tail {i : Interval} {is : List Interval} (h : Normal (i :: is)) (n : UInt64) :
    Holds is n ↔ Holds (i :: is) n ∧ i.stop.toNat < n.toNat := by
  constructor
  · intro hn
    have := h.stop_lt_of_holds hn
    exact ⟨(holds_cons _ _ _).2 (Or.inr hn), by omega⟩
  · rintro ⟨hn, hlt⟩
    rcases (holds_cons _ _ _).1 hn with hn | hn
    · rw [contains_iff] at hn
      omega
    · exact hn

/-- The id after the end of the first interval is not held, so an interval that begins by then and
holds no more than the list ends no later. -/
theorem Normal.stop_le {i j : Interval} {is : List Interval} (h : Normal (i :: is))
    (hs : j.start.toNat ≤ i.stop.toNat) (hsub : ∀ n, j.contains n = true → Holds (i :: is) n) :
    j.stop.toNat ≤ i.stop.toNat := by
  refine Nat.le_of_not_lt fun hlt => ?_
  have hj : j.stop.toNat < UInt64.size := j.stop.toNat_lt
  have hn : (UInt64.ofNat (i.stop.toNat + 1)).toNat = i.stop.toNat + 1 :=
    UInt64.toNat_ofNat_of_lt' (by omega)
  have hheld := hsub (.ofNat (i.stop.toNat + 1)) ((contains_iff _ _).2 (by omega))
  have := h.stop_lt_of_holds ((h.holds_tail _).2 ⟨hheld, by omega⟩)
  omega

/-- Ids that follow each other and are all held lie in one interval. -/
theorem Normal.exists_covers {is : List Interval} (h : Normal is) {j : Interval}
    (hj : j.start.toNat ≤ j.stop.toNat) (hsub : ∀ n, j.contains n = true → Holds is n) :
    ∃ i ∈ is, i.covers j = true := by
  have hstart : Holds is j.start := hsub _ ((contains_iff _ _).2 ⟨Nat.le_refl _, hj⟩)
  induction is with
  | nil => exact absurd hstart (not_holds_nil _)
  | cons i is ih =>
    rcases Nat.lt_or_ge i.stop.toNat j.start.toNat with hlt | hle
    · -- All of `j` comes after the first interval.
      have htail : ∀ n, j.contains n = true → Holds is n := fun n hn => by
        have := ((contains_iff _ _).1 hn).1
        exact (h.holds_tail n).2 ⟨hsub n hn, by omega⟩
      obtain ⟨k, hk, hc⟩ := ih h.tail htail ((h.holds_tail _).2 ⟨hstart, hlt⟩)
      exact ⟨k, List.mem_cons_of_mem _ hk, hc⟩
    · refine ⟨i, List.mem_cons_self, (covers_iff i j).2 ⟨h.start_le_of_holds hstart, ?_⟩⟩
      exact h.stop_le hle hsub

/-- Lists in normal form that hold the same ids are the same list. -/
theorem normal_ext {is js : List Interval} (hi : Normal is) (hj : Normal js)
    (h : ∀ n, Holds is n ↔ Holds js n) : is = js := by
  induction is generalizing js with
  | nil =>
    cases js with
    | nil => rfl
    | cons j js => exact absurd ((h _).2 hj.holds_start) (not_holds_nil _)
  | cons i is ih =>
    cases js with
    | nil => exact absurd ((h _).1 hi.holds_start) (not_holds_nil _)
    | cons j js =>
      have hstart : i.start = j.start := by
        have h₁ := hi.start_le_of_holds ((h _).2 hj.holds_start)
        have h₂ := hj.start_le_of_holds ((h _).1 hi.holds_start)
        exact UInt64.toNat_inj.1 (Nat.le_antisymm h₁ h₂)
      have hstop : i.stop = j.stop := by
        have hwi := hi.wellFormed i List.mem_cons_self
        have hwj := hj.wellFormed j List.mem_cons_self
        have h₁ := hi.stop_le (hstart ▸ hwi) fun n hn => (h n).2 ((holds_cons _ _ _).2 (Or.inl hn))
        have h₂ := hj.stop_le (hstart ▸ hwj) fun n hn => (h n).1 ((holds_cons _ _ _).2 (Or.inl hn))
        exact UInt64.toNat_inj.1 (Nat.le_antisymm h₂ h₁)
      obtain rfl : i = j := by
        cases i
        cases j
        simp_all
      rw [ih hi.tail hj.tail fun n => by rw [hi.holds_tail, hj.holds_tail, h]]

end ChangeFeed.Interval
