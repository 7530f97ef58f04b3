import ChangeFeed.Proofs.Gtid.Containment
import ChangeFeed.Proofs.Gtid.Reading

/-!
# Looking up what was put in

**Two spellings.** A server is put in under its UUID trimmed and in lower case (`serverKey`), and
looked up under its UUID in lower case (`lookupKey`). The two agree exactly for UUIDs without white
space at their ends (`lookupKey_eq_serverKey_iff`).

**Look-ups** (`Sees`). All look-ups under a UUID see an id.

**Putting in** (`Receives`). An id is put in alone or with an interval. The set may be any set, also
one with intervals that end before they start.

Main result: `finds_added_iff`. Under a UUID without white space at its ends everything that was put
in is found, whatever the spelling. Under the others nothing is found.
-/

namespace ChangeFeed.GtidSet

/-! ## Two spellings -/

theorem lookupKey_eq_serverKey_iff {uuid : String} :
    lookupKey uuid = serverKey uuid ↔ Text.Trimmed uuid.toList := by
  constructor
  · intro h
    have hchars : Text.lowerChars uuid.toList = normalUuid uuid.toList := String.ofList_injective h
    exact Text.trimmed_lowerChars_iff.1 (hchars ▸ trimmed_normalUuid uuid.toList)
  · intro h
    rw [lookupKey, serverKey, normalUuid, h.trimChars_eq]

/-- The listed servers have names without white space at their ends. -/
theorem Grown.trimmed {s : GtidSet} (h : Grown s) : ∀ u ∈ s.toList, Text.Trimmed u.uuid.toList := by
  let N (k : String) : Prop := Text.Trimmed k.toList
  have hentry : ∀ (s : GtidSet) uuid, N (s.entry uuid).uuid := fun s uuid => by
    simpa [N, entry] using trimmed_normalUuid uuid.toList
  induction h with
  | empty => exact fun _ hu => absurd hu List.not_mem_nil
  | parsed h => exact fun u hu => ((legible_parse h).spelled u hu).trimmed
  | gtid _ uuid n ih => exact forall_uuid_addGtid N ih (hentry _ uuid) n
  | interval _ uuid _ ih => exact forall_uuid_addInterval N ih (hentry _ uuid) _
  | union _ _ ihs iht =>
    exact List.foldlRecOn (motive := fun t => ∀ v ∈ t.toList, N v.uuid) _ merge ihs
      fun _ ht u hu => forall_uuid_merge N ht (iht u hu)

/-! ## Look-ups -/

/-- All look-ups under the UUID see the id: it is contained, its server is listed, and the
transactions of the server hold it. -/
structure Sees (s : GtidSet) (uuid : String) (n : UInt64) : Prop where
  contained : s.contains uuid n = true
  listed : s.containsKey uuid = true
  held : ∃ u, s.get? uuid = some u ∧ u.contains n = true

theorem sees_iff {s : GtidSet} {uuid : String} {n : UInt64} :
    s.Sees uuid n ↔ (lookupKey uuid, n) ∈ s.pairs := by
  refine ⟨fun h => contains_iff.1 h.contained, fun h => ⟨contains_iff.2 h, ?_, ?_⟩⟩
  · obtain ⟨is, his, -⟩ := mem_pairs.1 h
    rw [containsKey, NameMap.contains, his]
    rfl
  · obtain ⟨is, his, hn⟩ := mem_pairs.1 h
    exact ⟨⟨lookupKey uuid, is⟩, by rw [get?, his]; rfl, List.any_eq_true.2 hn⟩

/-- Under a UUID with white space at its ends nothing is found. -/
theorem Grown.misses {s : GtidSet} (h : Grown s) {uuid : String}
    (hu : ¬Text.Trimmed uuid.toList) (n : UInt64) :
    s.contains uuid n = false ∧ s.containsKey uuid = false ∧ s.get? uuid = none := by
  have hnone : s.servers.get? (lookupKey uuid) = none := by
    cases hk : s.servers.get? (lookupKey uuid) with
    | none => rfl
    | some is =>
      have htrimmed : Text.Trimmed (lookupKey uuid).toList :=
        forall_toList.1 h.trimmed (lookupKey uuid) is hk
      rw [lookupKey, String.toList_ofList, Text.trimmed_lowerChars_iff] at htrimmed
      exact absurd htrimmed hu
  have hget : s.get? uuid = none := by rw [get?, hnone]; rfl
  refine ⟨by rw [contains, hget], ?_, hget⟩
  rw [containsKey, NameMap.contains, hnone]
  rfl

/-! ## Putting in -/

/-- The set `t` comes of putting the id into `s` under the UUID, alone or with an interval. -/
inductive Receives (s : GtidSet) (uuid : String) (n : UInt64) : GtidSet → Prop where
  | gtid : Receives s uuid n (s.addGtid uuid n).2
  | interval {i : Interval} (hi : i.contains n = true) : Receives s uuid n (s.addInterval uuid i)

namespace Receives

variable {s t : GtidSet} {uuid : String} {n : UInt64}

/-- An id alone is put in with an interval of its own, unless it is there. -/
theorem eq_or_addInterval (h : Receives s uuid n t) :
    ((serverKey uuid, n) ∈ s.pairs ∧ t = s) ∨
      ∃ i : Interval, i.contains n = true ∧ t = s.addInterval uuid i := by
  cases h with
  | gtid =>
    by_cases hn : (serverKey uuid, n) ∈ s.pairs
    · exact Or.inl ⟨hn, by rw [addGtid_of_mem hn]⟩
    · exact Or.inr ⟨.single n, by simp [Interval.single, Interval.contains],
        by rw [addGtid_of_not_mem hn]⟩
  | interval hi => exact Or.inr ⟨_, hi, rfl⟩

/-- What was put in is in the meaning. -/
theorem mem_pairs_self (h : Receives s uuid n t) : (serverKey uuid, n) ∈ t.pairs := by
  obtain ⟨hn, rfl⟩ | ⟨i, hi, rfl⟩ := h.eq_or_addInterval
  · exact hn
  · rw [addInterval, mem_pairs_insert]
    refine (if_pos rfl).mpr (Interval.holds_collapse_of_holds ?_)
    exact (Interval.holds_append _ _ _).2 (Or.inr ((Interval.holds_cons _ _ _).2 (Or.inl hi)))

/-- The other servers keep their ids. -/
theorem mem_pairs_of_ne (h : Receives s uuid n t) {k : String} (hk : k ≠ serverKey uuid)
    (m : UInt64) : (k, m) ∈ t.pairs ↔ (k, m) ∈ s.pairs := by
  obtain ⟨-, rfl⟩ | ⟨i, -, rfl⟩ := h.eq_or_addInterval
  · rfl
  · rw [addInterval, mem_pairs_insert]
    exact iff_of_eq (if_neg hk)

theorem grown (h : Receives s uuid n t) (hs : Grown s) : Grown t := by
  obtain ⟨-, rfl⟩ | ⟨i, hi, rfl⟩ := h.eq_or_addInterval
  · exact hs
  · rw [Interval.contains_iff] at hi
    exact hs.interval uuid (UInt64.le_iff_toNat_le.2 (by omega))

end Receives

/-- **What was put in is found under a UUID without white space at its ends.** After an id was put
into any set, alone or with an interval, all look-ups see it under every spelling of the UUID
without white space around it, and putting the id in again changes nothing. Under the UUID as it was
put in they see it exactly if no white space is around it, or if they saw it before; and in no set
that the operations build does any look-up find anything under a UUID with white space around it. -/
theorem finds_added_iff {s t : GtidSet} {uuid : String} {n : UInt64} (h : Receives s uuid n t) :
    (∀ v, serverKey v = serverKey uuid → Text.Trimmed v.toList → t.Sees v n) ∧
    t.addGtid uuid n = (false, t) ∧
    (t.Sees uuid n ↔ Text.Trimmed uuid.toList ∨ s.Sees uuid n) ∧
    (Grown s → ∀ v m, ¬Text.Trimmed v.toList →
      t.contains v m = false ∧ t.containsKey v = false ∧ t.get? v = none) := by
  have hfound : ∀ v, serverKey v = serverKey uuid → Text.Trimmed v.toList → t.Sees v n := by
    intro v hv hvt
    rw [sees_iff, lookupKey_eq_serverKey_iff.2 hvt, hv]
    exact h.mem_pairs_self
  refine ⟨hfound, addGtid_of_mem h.mem_pairs_self, ?_, fun hs v m hv => (h.grown hs).misses hv m⟩
  by_cases hu : Text.Trimmed uuid.toList
  · exact iff_of_true (hfound uuid rfl hu) (Or.inl hu)
  · have hne : lookupKey uuid ≠ serverKey uuid := fun he => hu (lookupKey_eq_serverKey_iff.1 he)
    rw [or_iff_right hu, sees_iff, sees_iff, h.mem_pairs_of_ne hne]

/-- An id is put in with the largest interval under a UUID in capital letters with a tab behind it,
into a set that lists the server already. -/
theorem finds_added_iff_capital :
    let s := (empty.addGtid "a b" 7).2
    let t := s.addInterval "A B\t" ⟨0, 18446744073709551615⟩
    t.Sees "A b" 18446744073709551615 ∧ t.addGtid "A B\t" 18446744073709551615 = (false, t) ∧
      ¬t.Sees "A B\t" 18446744073709551615 := by
  intro s t
  have hs : Grown s := Grown.empty.gtid "a b" 7
  have ht : Receives s "A B\t" 18446744073709551615 t := .interval (by decide)
  have hblank : ¬Text.Trimmed "A B\t".toList := fun h => absurd (h.last '\t' rfl) (by decide)
  have htrimmed : Text.Trimmed "A b".toList :=
    ⟨by rintro c ⟨⟩; decide, by rintro c ⟨⟩; decide⟩
  obtain ⟨hfound, hagain, -, hmiss⟩ := finds_added_iff ht
  refine ⟨hfound "A b" (by decide +kernel) htrimmed, hagain, fun hsees => ?_⟩
  have hcontained := hsees.contained
  rw [(hmiss hs _ _ hblank).1] at hcontained
  cases hcontained

/-- An id is put in under a UUID with a blank before it. Under the same UUID it is not found, nor is
its server. -/
theorem misses_added :
    let s := (empty.addGtid " ab" 1).2
    s.contains " ab" 1 = false ∧ s.containsKey " ab" = false ∧ s.get? " ab" = none ∧
      s.contains "ab" 1 = true := by
  decide +kernel

end ChangeFeed.GtidSet
