import ChangeFeed.Data.Lru
import Mathlib.Data.List.Dedup
import Mathlib.Data.List.Induction

/-!
# What a bounded cache forgets

**The invariant** (`Lru.Sound`). No key is there twice, and there are never more entries than the
capacity allows. Every operation keeps this.

**Forgetting** (`Lru.peek?_put_of_ne`). A new key takes the place of the key that was used least
recently if the cache is full, and of no other.
-/

namespace ChangeFeed

namespace Lru

variable {κ ν : Type} {n : Nat}

/-- The key that was used least recently. -/
def oldest? (c : Lru κ ν) : Option κ := c.entries.getLast?.map (·.1)

/-- The cache has the capacity, and is as a cache of that capacity should be. -/
structure Sound (n : Nat) (c : Lru κ ν) : Prop where
  capacity : c.capacity = n
  pos : 0 < n
  size_le : c.size ≤ n
  distinct : (c.entries.map (·.1)).Nodup

theorem sound_empty (h : 0 < n) : Sound n (empty n : Lru κ ν) :=
  ⟨rfl, h, Nat.zero_le n, List.nodup_nil⟩

variable [DecidableEq κ] {c : Lru κ ν} {k k' : κ} {v : ν}

theorem mem_keys_iff : k ∈ c.entries.map (·.1) ↔ c.peek? k ≠ none := by
  simp only [peek?, ne_eq, List.lookup_eq_none_iff, not_forall, List.mem_map, bne_iff_ne]
  grind

/-- The entry of a key makes way for another one. -/
theorem length_others_lt (h : c.peek? k ≠ none) : (c.others k).length < c.size := by
  obtain ⟨e, he, hk⟩ := List.mem_map.1 (mem_keys_iff.2 h)
  exact List.length_filter_lt_length_iff_exists.2 ⟨e, he, by simpa using hk⟩

theorem nodup_cons_others (hc : c.Sound n) : (((k, v) :: c.others k).map (·.1)).Nodup := by
  refine List.nodup_cons.2 ⟨by simp [others], hc.distinct.sublist ?_⟩
  exact List.filter_sublist.map _

theorem Sound.erase (hc : c.Sound n) (k : κ) : (c.erase k).Sound n :=
  ⟨hc.capacity, hc.pos, Nat.le_trans (List.length_filter_le _ _) hc.size_le,
    hc.distinct.sublist (List.filter_sublist.map _)⟩

omit [DecidableEq κ] in
theorem Sound.clear (hc : c.Sound n) : c.clear.Sound n :=
  ⟨hc.capacity, hc.pos, Nat.zero_le n, List.nodup_nil⟩

theorem Sound.get (hc : c.Sound n) (k : κ) : (c.get k).2.Sound n := by
  unfold Lru.get
  cases h : c.peek? k with
  | none => exact hc
  | some v =>
    have hlt := length_others_lt (c := c) (k := k) (by simp [h])
    exact ⟨hc.capacity, hc.pos, Nat.le_trans hlt hc.size_le, nodup_cons_others hc⟩

theorem Sound.put (hc : c.Sound n) (k : κ) (v : ν) : (c.put k v).2.Sound n := by
  unfold Lru.put
  cases h : c.peek? k with
  | some old =>
    have hlt := length_others_lt (c := c) (k := k) (by simp [h])
    exact ⟨hc.capacity, hc.pos, Nat.le_trans hlt hc.size_le, nodup_cons_others hc⟩
  | none =>
    have hnew : k ∉ c.entries.map (·.1) := fun hk => mem_keys_iff.1 hk h
    have hroom := hc.pos
    refine ⟨hc.capacity, hc.pos, ?_, List.nodup_cons.2 ⟨fun hk => hnew ?_, ?_⟩⟩
    · simp only [size, List.length_cons, List.length_take, hc.capacity]
      omega
    · exact ((List.take_sublist _ _).map _).subset hk
    · exact hc.distinct.sublist ((List.take_sublist _ _).map _)

/-- Without its last entry an association list lacks the key of that entry, and no other. -/
theorem lookup_dropLast {es : List (κ × ν)} (h : (es.map (·.1)).Nodup) (k : κ) :
    es.dropLast.lookup k = if es.getLast?.map (·.1) = some k then none else es.lookup k := by
  induction es using List.reverseRecOn with
  | nil => simp
  | append_singleton es e _ =>
    simp only [List.dropLast_concat, List.getLast?_concat, Option.map_some, Option.some.injEq]
    split
    · rename_i hk
      rw [List.map_append, List.nodup_append] at h
      refine List.lookup_eq_none_iff.2 fun p hp => bne_iff_ne.2 fun hkp => ?_
      exact h.2.2 p.1 (List.mem_map_of_mem hp) e.1 (by simp) (hkp.symm.trans hk.symm)
    · rename_i hk
      have hlast : [e].lookup k = none := by
        simpa [List.lookup_eq_none_iff] using Ne.symm hk
      rw [List.lookup_append, hlast, Option.or_none]

/-- A new key takes the place of the oldest one of a full cache, and of no other. -/
theorem peek?_put_of_ne (hc : c.Sound n) (hne : k' ≠ k) (v : ν) :
    (c.put k v).2.peek? k' =
      if c.peek? k = none ∧ c.size = n ∧ c.oldest? = some k' then none else c.peek? k' := by
  have hbeq : (k' == k) = false := beq_eq_false_iff_ne.2 hne
  unfold Lru.put
  cases h : c.peek? k with
  | some old =>
    simp only [peek?, List.lookup_cons, hbeq, others, lookup_filter_ne hne]
    rfl
  | none =>
    simp only [peek?, List.lookup_cons, hbeq, hc.capacity, true_and]
    by_cases hfull : c.size = n
    · simp only [hfull, true_and, oldest?]
      rw [← hfull, size, ← List.dropLast_eq_take, lookup_dropLast hc.distinct]
    · have hlt : c.entries.length ≤ n - 1 := by
        have := hc.size_le
        unfold size at this hfull
        omega
      rw [List.take_of_length_le hlt, if_neg (fun h => hfull h.1)]

/-- Nothing is forgotten with a key if the cache is full still. -/
theorem Sound.erase_eq_self (hc : c.Sound n) (h : (c.erase k).size = n) : c.erase k = c := by
  have hle := hc.size_le
  have hlen : (c.others k).length = c.entries.length :=
    Nat.le_antisymm (List.length_filter_le _ _) (by rw [← h] at hle; exact hle)
  have hall : c.others k = c.entries :=
    List.filter_eq_self.2 (List.length_filter_eq_length_iff.1 hlen)
  rw [Lru.erase, hall]

end Lru

end ChangeFeed
