import ChangeFeed.Progress.ResumePoint
import ChangeFeed.Proofs.Destination.Dispatches
import ChangeFeed.Proofs.Source.Duty

/-!
# What a mutation is backed by

The last safe mutation of a destination becomes the point to resume from, so all that lies before
that point must have been published.

**Under way** (`Depot.Carries`). A change is published or pending.

**The invariant** (`Backed`). All that lies before the point after a pending mutation is published
or pending under no higher number, and all that lies before the point after the last safe mutation
is published.

Main results: `backed_step`, if this holds of a mutation that is about to be tracked, and
`carries_step`, nothing under way is lost while mutations are placed.
-/

namespace ChangeFeed.Depot

variable {ι : Type} {d : Duty} {s s' : Depot ι} {c : RowMutation}

/-- The change is published, or pending under a number of at most `n`. -/
def CarriesTo (s : Depot ι) (n : Nat) (c : RowMutation) : Prop :=
  Published s.published c ∨ ∃ p ∈ s.dest.tracker.pending, p.seq ≤ n ∧ p.item.Tells c

/-- The change is published or pending. -/
def Carries (s : Depot ι) (c : RowMutation) : Prop := ∃ n, s.CarriesTo n c

/-- What a destination has taken on is complete up to the point after each mutation. -/
structure Backed (d : Duty) (s : Depot ι) : Prop where
  pending : ∀ p ∈ s.dest.tracker.pending, ∀ m, p.item = .row m →
    d.Done (s.CarriesTo p.seq) (ResumePoint.after m).position
  last : ∀ m, s.dest.tracker.last = some (.row m) →
    d.Done (Published s.published) (ResumePoint.after m).position
  newest : ∀ i x ms, s.caller = .placing i x ms → ∀ p ∈ s.dest.tracker.pending, p.seq ≤ x.seq

theorem published_step (h : Step s s') : s.published ⊆ s'.published := by
  cases h with
  | accepted hw hp => exact List.subset_append_left _ _
  | _ => exact List.Subset.refl _

theorem CarriesTo.mono {n : Nat} (h : s.CarriesTo n c) (hpub : s.published ⊆ s'.published)
    (ht : s.dest.tracker.pending ⊆ s'.dest.tracker.pending) : s'.CarriesTo n c := by
  rcases h with h | ⟨p, hp, hn, hc⟩
  · exact Or.inl (h.mono hpub)
  · exact Or.inr ⟨p, ht hp, hn, hc⟩

theorem Carries.mono (h : s.Carries c) (hpub : s.published ⊆ s'.published)
    (ht : s.dest.tracker.pending ⊆ s'.dest.tracker.pending) : s'.Carries c := by
  obtain ⟨n, h⟩ := h
  exact ⟨n, h.mono hpub ht⟩

/-- What is taken away in front is published, so a change that was under way still is. -/
theorem CarriesTo.settle {n : Nat} (h : s.CarriesTo n c) (hpub : s.published ⊆ s'.published)
    {ps : List (PendingAck Mutation)}
    (ht : AckTracker.Settled ps s.dest.tracker.last s'.dest.tracker)
    (hacked : ∀ p ∈ ps, p.acked = true → p.item ∈ s'.published)
    (hkeep : ∀ q ∈ s.dest.tracker.pending, q.seq ≤ n →
      ∃ p ∈ ps, p.seq = q.seq ∧ p.item = q.item) : s'.CarriesTo n c := by
  rcases h with h | ⟨q, hq, hn, hc⟩
  · exact Or.inl (h.mono hpub)
  · obtain ⟨p, hp, hseq, hitem⟩ := hkeep q hq hn
    rw [← hitem] at hc
    by_cases ha : p.acked = true
    · exact Or.inl ⟨p.item, hacked p hp ha, hc⟩
    · exact Or.inr ⟨p, ht.mem_of_not_acked hp (Bool.eq_false_iff.2 ha), hseq ▸ hn, hc⟩

/-- The tracker stays as it is. -/
theorem Backed.same (h : Backed d s) (hpub : s.published ⊆ s'.published)
    (ht : s'.dest.tracker = s.dest.tracker)
    (hc : s'.caller = s.caller ∨ ∀ i x ms, s'.caller ≠ .placing i x ms) : Backed d s' where
  pending := by
    intro p hp m hm
    rw [ht] at hp
    exact (h.pending p hp m hm).mono fun c hc => hc.mono hpub (ht ▸ List.Subset.refl _)
  last := by
    intro m hm
    rw [ht] at hm
    exact (h.last m hm).mono fun c hc => hc.mono hpub
  newest := by
    intro i x ms hcall
    rw [ht]
    rcases hc with hc | hc
    · exact h.newest i x ms (hc ▸ hcall)
    · exact absurd hcall (hc i x ms)

/-- Pending dispatches are marked, or some at the end are fewer, and then settled. -/
theorem Backed.settle (h : Backed d s) (hpub : s.published ⊆ s'.published)
    {ps : List (PendingAck Mutation)} (hsorted : ps.Pairwise fun p q => p.seq < q.seq)
    (ht : AckTracker.Settled ps s.dest.tracker.last s'.dest.tracker)
    (hacked : ∀ p ∈ ps, p.acked = true → p.item ∈ s'.published)
    (hps : ∀ p ∈ ps, ∃ q ∈ s.dest.tracker.pending, p.seq = q.seq ∧ p.item = q.item)
    (hkeep : ∀ p ∈ ps, ∀ q ∈ s.dest.tracker.pending, q.seq ≤ p.seq →
      ∃ p' ∈ ps, p'.seq = q.seq ∧ p'.item = q.item)
    (hc : s'.caller = s.caller ∨ ∀ i x ms, s'.caller ≠ .placing i x ms) : Backed d s' := by
  have hdone : ∀ p ∈ ps, ∀ m, p.item = .row m →
      d.Done (s'.CarriesTo p.seq) (ResumePoint.after m).position := by
    intro p hp m hm
    obtain ⟨q, hq, hseq, hitem⟩ := hps p hp
    rw [hitem] at hm
    refine (h.pending q hq m hm).mono fun c hcarries => ?_
    rw [← hseq] at hcarries
    exact hcarries.settle hpub ht hacked (hkeep p hp)
  refine ⟨fun p hp => hdone p (ht.mem hp), fun m hm => ?_, fun i x ms hcall p hp => ?_⟩
  · rcases ht.last hsorted with hl | ⟨p, hp, -, hl, hlt⟩
    · exact (h.last m (hl ▸ hm)).mono fun c hc => hc.mono hpub
    · refine (hdone p hp m (Option.some.inj (hl.symm.trans hm))).mono fun c hcarries => ?_
      -- Nothing is pending any more that came before the last safe mutation.
      rcases hcarries with hc | ⟨q, hq, hle, -⟩
      · exact hc
      · exact absurd (hlt q hq) (Nat.not_lt_of_le hle)
  · obtain ⟨q, hq, hseq, -⟩ := hps p (ht.mem hp)
    rcases hc with hc | hc
    · exact hseq ▸ h.newest i x ms (hc ▸ hcall) q hq
    · exact absurd hcall (hc i x ms)

theorem mem_map_mark {t : AckTracker Mutation} {seq : Nat} {p : PendingAck Mutation}
    (hp : p ∈ t.pending) :
    ∃ q ∈ t.pending.map (AckTracker.mark seq), q.seq = p.seq ∧ q.item = p.item :=
  ⟨_, List.mem_map_of_mem hp, AckTracker.mark_seq seq p, AckTracker.mark_item seq p⟩

theorem seq_lt_next (ht : Tracked s) {p : PendingAck Mutation}
    (hp : p ∈ s.dest.tracker.pending) : p.seq < s.dest.tracker.nextSeq := by
  rw [ht.next]
  exact (List.getElem?_eq_some_iff.1 (ht.item p hp)).1

theorem backed_step (hs : Sound s) (h : Backed d s)
    (hready : ∀ i m ms, s.caller = .assigned i (.row m) ms →
      d.Done s.Carries (ResumePoint.after m).position) (hst : Step s s') : Backed d s' := by
  cases hst with
  | same => exact h
  | called hc hc' =>
    refine h.same (List.Subset.refl _) rfl (Or.inr fun i x ms hcall => ?_)
    obtain rfl := hcall
    cases hc'
  | asked hc =>
    refine h.same (List.Subset.refl _) rfl (Or.inr fun i x ms hcall => ?_)
    cases hcall
  | assigned hc hf hr =>
    refine h.same (List.Subset.refl _) rfl (Or.inr fun i x ms hcall => ?_)
    cases hcall
  | @enrolled i m ms hc =>
    have hnext : ∀ p ∈ s.dest.tracker.pending, p.seq ≤ s.dest.tracker.nextSeq := fun p hp =>
      Nat.le_of_lt (seq_lt_next hs.tracked hp)
    refine ⟨fun p hp r hr => ?_, h.last, fun j x ns hcall p hp => ?_⟩
    · rcases List.mem_append.1 hp with hp | hp
      · exact (h.pending p hp r hr).mono fun c hcarries =>
          hcarries.mono (List.Subset.refl _) (List.subset_append_left _ _)
      · obtain rfl := List.mem_singleton.1 hp
        obtain rfl : m = .row r := hr
        refine (hready i r ms hc).mono fun c hcarries => ?_
        -- It was published, or is pending under a number that is no larger than the new one.
        obtain ⟨n, hpub | ⟨q, hq, -, hc⟩⟩ := hcarries
        · exact Or.inl hpub
        · exact Or.inr ⟨q, List.mem_append_left _ hq, hnext q hq, hc⟩
    · cases hcall
      rcases List.mem_append.1 hp with hp | hp
      · exact hnext p hp
      · obtain rfl := List.mem_singleton.1 hp
        exact Nat.le_refl _
  | placed hc hw hq =>
    refine h.same (List.Subset.refl _) rfl (Or.inr fun i x ms hcall => ?_)
    cases hcall
  | @turnedAway i x ms w e hc hw hq =>
    refine h.settle (List.Subset.refl _) (hs.tracked.sorted.filter _)
      (AckTracker.settled_cancel _ x.seq) (fun p hp ha => ?_) (fun p hp => ?_)
      (fun p hp q hq hle => ?_) (Or.inr fun i x ms hcall => ?_)
    · exact hs.honest.acked p (List.mem_filter.1 hp).1 ha
    · exact ⟨p, (List.mem_filter.1 hp).1, rfl, rfl⟩
    · -- The one that is turned away is the newest, so nothing pending relies on it.
      obtain ⟨hp, hne⟩ := List.mem_filter.1 hp
      have hnew := h.newest i x ms hc p hp
      have hne : p.seq ≠ x.seq := by simpa using hne
      refine ⟨q, List.mem_filter.2 ⟨hq, ?_⟩, rfl, rfl⟩
      have hlt : q.seq ≠ x.seq := by omega
      simpa using hlt
    · cases hcall
  | @confirmed i w seq left hw hp =>
    refine h.settle (List.Subset.refl _)
      (by simpa [List.pairwise_map] using hs.tracked.sorted) (AckTracker.settled_ack _ seq)
      (acked_mark hs.numbered hs.tracked hs.honest hw hp) (fun p hp => ?_)
      (fun p hp q hq hle => mem_map_mark hq) (Or.inl rfl)
    obtain ⟨q, hq, rfl⟩ := List.mem_map.1 hp
    exact ⟨q, hq, AckTracker.mark_seq seq q, AckTracker.mark_item seq q⟩
  | toldToStop hc =>
    refine h.same (List.Subset.refl _) rfl (Or.inr fun i x ms hcall => ?_)
    cases hcall
  | closed hc hq ht =>
    refine ⟨fun p hp => absurd hp List.not_mem_nil, h.last, fun i x ms hcall => ?_⟩
    cases hcall
  | closedIdle hc ht =>
    refine h.same (List.Subset.refl _) rfl (Or.inr fun i x ms hcall => ?_)
    cases hcall
  | accepted hw hp => exact h.same (List.subset_append_left _ _) rfl (Or.inl rfl)
  | _ => exact h.same (List.Subset.refl _) rfl (Or.inl rfl)

/-- As long as nobody closes the destination, only a mutation that is turned away is lost. -/
theorem carries_step (hs : Sound s) (hst : Step s s') (hopen : s.caller.isClosing = false)
    (hplaced : ∀ i x ms e, s.caller = .placing i x ms → s'.caller ≠ .done (.error e))
    (h : s.Carries c) : s'.Carries c := by
  cases hst with
  | accepted hw hp => exact h.mono (List.subset_append_left _ _) (List.Subset.refl _)
  | enrolled hc => exact h.mono (List.Subset.refl _) (List.subset_append_left _ _)
  | turnedAway hc hw hq => exact absurd rfl (hplaced _ _ _ _ hc)
  | @confirmed i w seq left hw hp =>
    obtain ⟨n, h⟩ := h
    exact ⟨n, h.settle (List.Subset.refl _) (AckTracker.settled_ack _ seq)
      (acked_mark hs.numbered hs.tracked hs.honest hw hp) fun q hq hle => mem_map_mark hq⟩
  | closed hc hq ht =>
    rw [hc] at hopen
    cases hopen
  | _ => exact h

theorem backed_start (d : Duty) {p : DestinationPlan} {e : Destination ι} (h : p.build = .ok e) :
    Backed d (start e) := by
  unfold DestinationPlan.build at h
  split at h
  · cases h
  · cases h
    refine ⟨fun p hp => absurd hp List.not_mem_nil, fun m hm => ?_, fun i x ms hcall => ?_⟩
    · cases hm
    · cases hcall

end ChangeFeed.Depot
