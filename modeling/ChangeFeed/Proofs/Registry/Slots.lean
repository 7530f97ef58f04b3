import ChangeFeed.Pipe.Registry
import Mathlib.Algebra.BigOperators.Group.List.Basic
import Mathlib.Data.List.Nodup
import Mathlib.Tactic.Common

/-!
# Slots of a registry

What a registry shows of its slots. A slot that is empty is not shown, so claiming and releasing
slots changes nothing that can be seen.

**Keys** are in a linear order, by name and then by partition.

Main results: `Registry.get_put` and the lemmas beside it, which say what operations on slots do to
the pipes of a key; `Registry.keys_sorted`, `Registry.mem_keys` and `Registry.count_eq`, which say
what is shown in terms of the pipes of each key.
-/

namespace ChangeFeed

/-! ## Keys -/

namespace PipeKey

instance : Std.TransCmp PipeKey.compare :=
  inferInstanceAs (Std.TransCmp (compareLex (compareOn name) (compareOn partition)))

theorem eq_of_compare {a b : PipeKey} (h : compare a b = .eq) : a = b := by
  obtain ⟨hname, hpartition⟩ := Ordering.then_eq_eq.1 h
  cases a
  cases b
  congr
  · exact Std.LawfulEqOrd.eq_of_compare hname
  · exact Std.LawfulEqOrd.eq_of_compare hpartition

theorem le_iff {a b : PipeKey} : a.le b = true ↔ (compare a b).isLE = true := by
  unfold le
  cases compare a b <;> decide

theorem le_trans {a b c : PipeKey} (hab : a.le b = true) (hbc : b.le c = true) :
    a.le c = true := by
  rw [le_iff] at *
  exact Std.TransCmp.isLE_trans hab hbc

theorem le_total (a b : PipeKey) : (a.le b || b.le a) = true := by
  have hswap : compare b a = (compare a b).swap := Std.OrientedCmp.eq_swap
  rw [Bool.or_eq_true, le_iff, le_iff, hswap]
  cases compare a b <;> decide

/-- A key that is not after another key is before it, or is the same. -/
theorem lt_of_le_of_ne {a b : PipeKey} (h : a.le b = true) (hne : a ≠ b) : compare a b = .lt := by
  unfold le at h
  cases hc : compare a b with
  | lt => rfl
  | eq => exact absurd (eq_of_compare hc) hne
  | gt => simp [hc] at h

end PipeKey

namespace Registry

variable {π : Type} {k : PipeKey} {ps : List π}

/-! ## Slots -/

theorem mem_slots_iff (r : Registry π) : (k, ps) ∈ r.slots ↔ r.slot? k = some ps := by
  obtain ⟨slots, nodup⟩ := r
  unfold slot?
  induction slots with
  | nil => simp
  | cons s slots ih =>
    obtain ⟨k', qs⟩ := s
    obtain ⟨hnew, hrest⟩ := List.nodup_cons.1 nodup
    rw [List.mem_cons, List.lookup_cons]
    by_cases hk : k = k'
    · subst hk
      have hother : (k, ps) ∉ slots := fun hs => hnew (List.mem_map.2 ⟨_, hs, rfl⟩)
      simp [hother, eq_comm]
    · simp only [Prod.mk.injEq, hk, false_and, false_or, beq_eq_false_iff_ne.2 hk]
      exact ih hrest

theorem slot?_erase (k k' : PipeKey) (r : Registry π) :
    (r.erase k).slot? k' = if k' = k then none else r.slot? k' := by
  apply Option.ext
  intro ps
  rw [← mem_slots_iff]
  by_cases h : k' = k
  · simp [erase, h]
  · simp [erase, h, mem_slots_iff]

theorem slot?_put (k k' : PipeKey) (ps : List π) (r : Registry π) :
    (r.put k ps).slot? k' = if k' = k then some ps else r.slot? k' := by
  show ((k, ps) :: (r.erase k).slots).lookup k' = _
  rw [List.lookup_cons]
  by_cases h : k' = k
  · simp [h]
  · have hother := slot?_erase k k' r
    rw [if_neg h] at hother
    rw [if_neg h, beq_eq_false_iff_ne.2 h]
    exact hother

/-! ## The pipes of a key -/

@[simp] theorem get_empty (k : PipeKey) : (empty : Registry π).get k = [] := rfl

theorem get_erase (k k' : PipeKey) (r : Registry π) :
    (r.erase k).get k' = if k' = k then [] else r.get k' := by
  unfold get
  rw [slot?_erase]
  split <;> simp

theorem get_put (k k' : PipeKey) (ps : List π) (r : Registry π) :
    (r.put k ps).get k' = if k' = k then ps else r.get k' := by
  unfold get
  rw [slot?_put]
  split <;> simp

/-- A slot that was claimed has no pipes. -/
@[simp] theorem get_claim (k k' : PipeKey) (r : Registry π) : (r.claim k).get k' = r.get k' := by
  unfold claim
  cases h : r.slot? k with
  | some ps => rfl
  | none =>
    rw [get_put]
    by_cases hk : k' = k
    · simp [hk, get, h]
    · simp [hk]

/-- A slot that is given up has no pipes. -/
@[simp] theorem get_release (k k' : PipeKey) (r : Registry π) :
    (r.release k).get k' = r.get k' := by
  unfold release
  split
  · rename_i h
    rw [get_erase]
    by_cases hk : k' = k
    · simp [hk, get, h]
    · simp [hk]
  · rfl

/-! ## What is shown -/

/-- Keys are shown in order, and none of them twice. -/
theorem keys_sorted (r : Registry π) : r.keys.Pairwise fun a b => PipeKey.compare a b = .lt := by
  have hsorted : r.keys.Pairwise fun a b => a.le b = true := by
    apply List.pairwise_mergeSort
    · intro a b c
      exact PipeKey.le_trans
    · exact PipeKey.le_total
  have hnodup : r.keys.Nodup := by
    refine (List.mergeSort_perm _ _).nodup_iff.2 ?_
    exact r.nodup.sublist (List.filter_sublist.map _)
  exact (hsorted.and hnodup).imp fun h => PipeKey.lt_of_le_of_ne h.1 h.2

theorem keys_nodup (r : Registry π) : r.keys.Nodup := by
  refine r.keys_sorted.imp ?_
  rintro a _ h rfl
  have hself : PipeKey.compare a a = .eq := Std.ReflCmp.compare_self
  rw [hself] at h
  cases h

theorem mem_keys (r : Registry π) : k ∈ r.keys ↔ r.get k ≠ [] := by
  unfold keys get
  rw [List.mem_mergeSort, List.mem_map]
  constructor
  · rintro ⟨s, hs, rfl⟩
    obtain ⟨hmem, hne⟩ := List.mem_filter.1 hs
    rw [(r.mem_slots_iff).1 hmem]
    simpa using hne
  · intro hne
    cases hs : r.slot? k with
    | none => simp [hs] at hne
    | some ps =>
      have hmem := r.mem_slots_iff.2 hs
      exact ⟨(k, ps), List.mem_filter.2 ⟨hmem, by simpa [hs] using hne⟩, rfl⟩

/-- The pipes of all keys are counted, and no others. -/
theorem count_eq (r : Registry π) : r.count = (r.keys.flatMap r.get).length := by
  have hget : ∀ s ∈ r.slots, r.get s.1 = s.2 := by
    intro s hs
    unfold get
    rw [r.mem_slots_iff.1 hs]
    rfl
  have hkeys : (r.keys.flatMap r.get).length =
      (((r.slots.filter fun s => !s.2.isEmpty).map (·.1)).flatMap r.get).length :=
    ((List.mergeSort_perm _ _).flatMap_right _).length_eq
  have hshown : ((r.slots.filter fun s => !s.2.isEmpty).map (·.1)).flatMap r.get =
      (r.slots.filter fun s => !s.2.isEmpty).flatMap (·.2) := by
    rw [List.flatMap_map]
    apply List.flatMap_congr
    intro s hs
    exact hget s (List.mem_of_mem_filter hs)
  rw [hkeys, hshown, count]
  congr 1
  -- Slots that are not shown have no pipes.
  induction r.slots with
  | nil => rfl
  | cons s slots ih =>
    rw [List.filter_cons]
    by_cases hs : s.2 = []
    · simp [hs, ih]
    · simp [hs, ih]

theorem isEmpty_iff (r : Registry π) : r.isEmpty = true ↔ r.count = 0 := beq_iff_eq

end Registry

end ChangeFeed
