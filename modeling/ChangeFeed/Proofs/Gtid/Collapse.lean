import ChangeFeed.Proofs.Gtid.NormalForm

/-!
# Collapsing any intervals

Nothing forces an interval to end where it starts or later. One that ends earlier holds no id, but
it is sorted among the others, it touches some of them, and it can keep its neighbours apart.

**Sorting** (`sorted_merged`). The interval that grows is not after the intervals that follow, by
start and then by end, and growing keeps it so.

**Growing** (`exists_mergeFrom_eq_cons`). What grows keeps its start. An interval that ends more
than one id before its start is touched by nothing that follows, so it does not grow at all.

**Collapsed lists** (`Collapsed`). From the two facts, what comes of any list is sorted and no two
neighbours in it touch; and such a list collapses to itself.

Main result: `collapse_of_any_list`.
-/

namespace ChangeFeed.Interval

variable {is js : List Interval}

/-! ## Sorting -/

theorem le_antisymm {i j : Interval} (hij : i.le j = true) (hji : j.le i = true) : i = j := by
  rw [le_iff, ← UInt64.toNat_inj] at hij hji
  have hstart : i.start = j.start := UInt64.toNat_inj.1 (by omega)
  have hstop : i.stop = j.stop := UInt64.toNat_inj.1 (by omega)
  cases i
  cases j
  simp_all

/-- Lists with the same intervals, each as often, are sorted alike. -/
theorem mergeSort_perm_eq (h : is.Perm js) : is.mergeSort le = js.mergeSort le := by
  have hperm : (is.mergeSort le).Perm (js.mergeSort le) :=
    (List.mergeSort_perm is le).trans (h.trans (List.mergeSort_perm js le).symm)
  refine hperm.eq_of_pairwise ?_ (sorted_mergeSort is) (sorted_mergeSort js)
  intro i j _ _
  exact le_antisymm

theorem le_merged (i j : Interval) : i.le (merged i j) = true := by
  rw [le_iff, ← UInt64.toNat_inj, merged_start, merged_stop]
  omega

theorem sorted_merged {i j : Interval}
    (h : (i :: j :: is).Pairwise fun i j => i.le j = true) :
    (merged i j :: is).Pairwise fun i j => i.le j = true := by
  obtain ⟨hi, hjs⟩ := List.pairwise_cons.1 h
  obtain ⟨hj, his⟩ := List.pairwise_cons.1 hjs
  refine List.pairwise_cons.2 ⟨?_, his⟩
  intro k hk
  -- Where `k` starts with `i`, `j` starts there too, and neither ends after `k`.
  have hij := hi j List.mem_cons_self
  have hik := hi k (List.mem_cons_of_mem _ hk)
  have hjk := hj k hk
  rw [le_iff, ← UInt64.toNat_inj] at hij hik hjk ⊢
  rw [merged_start, merged_stop]
  omega

/-! ## Growing -/

theorem le_of_mem_mergeFrom {last : Interval}
    (h : (last :: is).Pairwise fun i j => i.le j = true) {j : Interval}
    (hj : j ∈ mergeFrom last is) : last.le j = true := by
  induction is generalizing last with
  | nil =>
    obtain rfl := List.mem_singleton.1 hj
    simp [le_iff]
  | cons i is ih =>
    by_cases ht : last.touches i = true
    · rw [mergeFrom_of_touches ht] at hj
      exact le_trans (le_merged last i) (ih (sorted_merged h) hj)
    · rw [mergeFrom_of_not ht] at hj
      obtain ⟨hlast, hi⟩ := List.pairwise_cons.1 h
      rcases List.mem_cons.1 hj with rfl | hj
      · simp [le_iff]
      · exact le_trans (hlast i List.mem_cons_self) (ih hi hj)

theorem sorted_mergeFrom {last : Interval}
    (h : (last :: is).Pairwise fun i j => i.le j = true) :
    (mergeFrom last is).Pairwise fun i j => i.le j = true := by
  induction is generalizing last with
  | nil => exact List.pairwise_singleton _ _
  | cons i is ih =>
    by_cases ht : last.touches i = true
    · rw [mergeFrom_of_touches ht]
      exact ih (sorted_merged h)
    · rw [mergeFrom_of_not ht]
      obtain ⟨hlast, hi⟩ := List.pairwise_cons.1 h
      refine List.pairwise_cons.2 ⟨?_, ih hi⟩
      intro j hj
      exact le_trans (hlast i List.mem_cons_self) (le_of_mem_mergeFrom hi hj)

/-- What grows keeps its start, and what ends more than one id before its start does not grow. -/
theorem exists_mergeFrom_eq_cons {last : Interval} (h : Ordered (last :: is)) :
    ∃ j js, mergeFrom last is = j :: js ∧ j.start = last.start ∧
      (last.stop.toNat + 1 < last.start.toNat → j = last) := by
  induction is generalizing last with
  | nil => exact ⟨last, [], rfl, rfl, fun _ => rfl⟩
  | cons i is ih =>
    by_cases ht : last.touches i = true
    · obtain ⟨j, js, heq, hstart, -⟩ := ih (ordered_merged h)
      refine ⟨j, js, by rw [mergeFrom_of_touches ht, heq], hstart, ?_⟩
      intro hgap
      -- What touches it starts by its end, but it starts no earlier than it.
      have hle := (List.pairwise_cons.1 h).1 i List.mem_cons_self
      rw [touches_iff] at ht
      omega
    · exact ⟨last, mergeFrom i is, mergeFrom_of_not ht is, rfl, fun _ => rfl⟩

theorem apart_mergeFrom {last : Interval} (h : Ordered (last :: is)) :
    (mergeFrom last is).IsChain fun i j => i.touches j = false := by
  induction is generalizing last with
  | nil => exact List.IsChain.singleton _
  | cons i is ih =>
    by_cases ht : last.touches i = true
    · rw [mergeFrom_of_touches ht]
      exact ih (ordered_merged h)
    · obtain ⟨hlast, hi⟩ := List.pairwise_cons.1 h
      obtain ⟨j, js, heq, hstart, hgap⟩ := exists_mergeFrom_eq_cons hi
      have hjs := ih hi
      rw [mergeFrom_of_not ht]
      rw [heq] at hjs ⊢
      refine List.isChain_cons_cons.2 ⟨?_, hjs⟩
      -- `j` is what `i` has grown into.
      have hle := hlast i List.mem_cons_self
      rw [← Bool.not_eq_true]
      by_cases hill : i.stop.toNat + 1 < i.start.toNat
      · rwa [hgap hill]
      · rw [touches_iff] at ht ⊢
        rw [hstart]
        omega

/-! ## Collapsed lists -/

/-- The intervals are sorted by start and then by end, and no two neighbours overlap or follow each
other directly. -/
structure Collapsed (is : List Interval) : Prop where
  sorted : is.Pairwise fun i j => i.start < j.start ∨ i.start = j.start ∧ i.stop ≤ j.stop
  apart : is.IsChain fun i j => i.touches j = false

theorem le_iff_lex (i j : Interval) :
    i.le j = true ↔ i.start < j.start ∨ i.start = j.start ∧ i.stop ≤ j.stop := by
  rw [le_iff, UInt64.lt_iff_toNat_lt, UInt64.le_iff_toNat_le]

theorem collapsed_collapse (is : List Interval) : Collapsed (collapse is) := by
  have hs := sorted_mergeSort is
  have ho := ordered_mergeSort is
  rw [collapse]
  cases h : is.mergeSort le with
  | nil => exact ⟨List.Pairwise.nil, List.IsChain.nil⟩
  | cons i js =>
    rw [h] at hs ho
    exact ⟨(sorted_mergeFrom hs).imp (le_iff_lex _ _).1, apart_mergeFrom ho⟩

theorem mergeFrom_of_apart {last : Interval}
    (h : (last :: is).IsChain fun i j => i.touches j = false) :
    mergeFrom last is = last :: is := by
  induction is generalizing last with
  | nil => rfl
  | cons i is ih =>
    obtain ⟨hlast, hi⟩ := List.isChain_cons_cons.1 h
    rw [mergeFrom_of_not (Bool.eq_false_iff.1 hlast), ih hi]

theorem collapse_of_collapsed (h : Collapsed is) : collapse is = is := by
  have hsort : is.mergeSort le = is :=
    List.mergeSort_of_pairwise (h.sorted.imp (le_iff_lex _ _).2)
  rw [collapse, hsort]
  cases is with
  | nil => rfl
  | cons i is => exact mergeFrom_of_apart h.apart

theorem collapse_perm (h : is.Perm js) : collapse is = collapse js := by
  rw [collapse, collapse, mergeSort_perm_eq h]

/-- Part of a list of well formed intervals can be collapsed beforehand. -/
theorem collapse_collapse_append (hi : WellFormed is) (hj : WellFormed js) :
    collapse (collapse is ++ js) = collapse (is ++ js) := by
  have hpart : WellFormed (collapse is ++ js) :=
    wellFormed_append (normal_collapse hi).wellFormed hj
  have hwhole : WellFormed (is ++ js) := wellFormed_append hi hj
  apply normal_ext (normal_collapse hpart) (normal_collapse hwhole)
  intro n
  rw [holds_collapse hpart, holds_collapse hwhole, holds_append, holds_append, holds_collapse hi]

/-- Not so for intervals that end before they start. All lists here are sorted: such an interval is
merged into the one before it, unless another such interval stands between them. -/
example : merge (merge [⟨2, 6⟩, ⟨5, 1⟩] ++ [⟨3, 0⟩]) = [⟨2, 6⟩, ⟨3, 0⟩] ∧
    merge [⟨2, 6⟩, ⟨3, 0⟩, ⟨5, 1⟩] = [⟨2, 6⟩, ⟨3, 0⟩, ⟨5, 1⟩] := by
  decide

/-- **Any list of intervals collapses**, whether its intervals end before they start or not. What
comes of it depends on how often each interval is in the list, but not on their order. It is sorted,
no two neighbours in it touch, it collapses to itself, and it holds every id that the list holds. As
long as all intervals are well formed, it also holds no other id, and any part of the list can be
collapsed before the rest is put to it. -/
theorem collapse_of_any_list (is : List Interval) :
    (∀ js, js.Perm is → collapse js = collapse is) ∧
    collapse (collapse is) = collapse is ∧ Collapsed (collapse is) ∧
    (∀ n, Holds is n → Holds (collapse is) n) ∧
    ((∀ i ∈ is, i.start ≤ i.stop) →
      (∀ n, Holds (collapse is) n → Holds is n) ∧
      ∀ js ks, is.Perm (js ++ ks) → collapse (collapse js ++ ks) = collapse is) := by
  have hcollapsed := collapsed_collapse is
  refine ⟨fun js => collapse_perm, collapse_of_collapsed hcollapsed, hcollapsed,
    fun n => holds_collapse_of_holds, ?_⟩
  intro hle
  have hwf : WellFormed is := fun i hi => UInt64.le_iff_toNat_le.1 (hle i hi)
  refine ⟨fun n => (holds_collapse hwf n).1, ?_⟩
  intro js ks hperm
  have hjs : WellFormed js := fun i hi => hwf i (hperm.mem_iff.2 (List.mem_append_left _ hi))
  have hks : WellFormed ks := fun i hi => hwf i (hperm.mem_iff.2 (List.mem_append_right _ hi))
  rw [collapse_perm hperm, collapse_collapse_append hjs hks]

/-- The last interval holds the largest id, so it has no id after its end. -/
theorem collapse_of_any_list_largest :
    let is : List Interval := [⟨18446744073709551615, 18446744073709551615⟩, ⟨1, 3⟩, ⟨9, 9⟩,
      ⟨10, 18446744073709551614⟩, ⟨2, 5⟩]
    collapse is.reverse = collapse is ∧ Holds (collapse is) 4 ∧ ¬Holds (collapse is) 7 ∧
      collapse (collapse [⟨2, 5⟩, ⟨10, 18446744073709551614⟩, ⟨1, 3⟩] ++
        [⟨9, 9⟩, ⟨18446744073709551615, 18446744073709551615⟩]) = collapse is := by
  intro is
  obtain ⟨hperm, -, -, hkept, hwellFormed⟩ := collapse_of_any_list is
  obtain ⟨hnew, hparts⟩ := hwellFormed (by decide)
  refine ⟨hperm _ is.reverse_perm, hkept 4 ?_, fun h => absurd (hnew 7 h) ?_, hparts _ _ ?_⟩
  · exact ⟨⟨2, 5⟩, by decide, by decide⟩
  · simp [Holds, is, contains]
  · decide

end ChangeFeed.Interval
