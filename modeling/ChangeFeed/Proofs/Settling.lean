import ChangeFeed.Destination.AckTracker
import Mathlib.Tactic.Common

/-!
# What settles in a tracker

How an acknowledgement and a cancellation change a tracker: the pending dispatches are marked or
filtered first, and then the acknowledged ones in front are taken away.

**What was taken away** (`Settled`). The front is acknowledged, and the last of it is the last safe
item from then on.

Main results: `settled_ack` and `settled_cancel`.
-/

namespace ChangeFeed.AckTracker

variable {α : Type}

/-! ## The front -/

theorem settle_cons_of_acked {p : PendingAck α} (hp : p.acked = true) (ps : List (PendingAck α))
    (last : Option α) : settle (p :: ps) last = settle ps (some p.item) := by
  rw [settle, if_pos hp]

theorem settle_cons_of_not {p : PendingAck α} (hp : ¬p.acked = true) (ps : List (PendingAck α))
    (last : Option α) : settle (p :: ps) last = (p :: ps, last) := by
  rw [settle, if_neg hp]

/-- The first dispatch that is left is not acknowledged. -/
theorem acked_of_head?_settle {ps : List (PendingAck α)} {last : Option α} {p : PendingAck α}
    (h : (settle ps last).1.head? = some p) : p.acked = false := by
  induction ps generalizing last with
  | nil => simp [settle] at h
  | cons q qs ih =>
    by_cases hq : q.acked = true
    · rw [settle_cons_of_acked hq] at h
      exact ih h
    · rw [settle_cons_of_not hq] at h
      obtain rfl : q = p := by simpa using h
      simpa using hq

/-- The last safe item stays, or is one of the pending ones. -/
theorem settle_last (ps : List (PendingAck α)) (last : Option α) :
    (settle ps last).2 = last ∨ ∃ p ∈ ps, (settle ps last).2 = some p.item := by
  induction ps generalizing last with
  | nil => exact Or.inl rfl
  | cons p ps ih =>
    by_cases hp : p.acked = true
    · rw [settle_cons_of_acked hp]
      rcases ih (some p.item) with h | ⟨q, hq, h⟩
      · exact Or.inr ⟨p, List.mem_cons_self, h⟩
      · exact Or.inr ⟨q, List.mem_cons_of_mem _ hq, h⟩
    · rw [settle_cons_of_not hp]
      exact Or.inl rfl

/-! ## Marks and filters -/

/-- The pending dispatch once `seq` is acknowledged. -/
def mark (seq : Nat) (p : PendingAck α) : PendingAck α :=
  if p.seq = seq then { p with acked := true } else p

@[simp] theorem mark_seq (seq : Nat) (p : PendingAck α) : (mark seq p).seq = p.seq := by
  unfold mark; split <;> rfl

@[simp] theorem mark_item (seq : Nat) (p : PendingAck α) : (mark seq p).item = p.item := by
  unfold mark; split <;> rfl

theorem mark_acked (seq : Nat) (p : PendingAck α) :
    (mark seq p).acked = true ↔ p.acked = true ∨ p.seq = seq := by
  unfold mark; split <;> simp_all

theorem mem_of_isPending {t : AckTracker α} {seq : Nat} (h : t.isPending seq = true) :
    ∃ p ∈ t.pending, p.seq = seq := by
  simpa [isPending] using h

theorem ack_of_isPending {t : AckTracker α} {seq : Nat} (h : t.isPending seq = true) :
    t.ack seq = advance { t with pending := t.pending.map (mark seq) } := by
  rw [ack, if_pos h]; rfl

theorem cancel_of_isPending {t : AckTracker α} {seq : Nat} (h : t.isPending seq = true) :
    t.cancel seq = advance { t with pending := t.pending.filter (·.seq != seq) } := by
  rw [cancel, if_pos h]

theorem ack_of_not {t : AckTracker α} {seq : Nat} (h : ¬t.isPending seq = true) :
    t.ack seq = t := if_neg h

theorem cancel_of_not {t : AckTracker α} {seq : Nat} (h : ¬t.isPending seq = true) :
    t.cancel seq = t := if_neg h

theorem map_mark_of_not_isPending {t : AckTracker α} {seq : Nat} (h : ¬t.isPending seq = true) :
    t.pending.map (mark seq) = t.pending := by
  refine (List.map_congr_left fun p hp => ?_).trans (List.map_id _)
  have hne : p.seq ≠ seq := fun he => h (by simpa [isPending] using ⟨p, hp, he⟩)
  exact if_neg hne

theorem filter_of_not_isPending {t : AckTracker α} {seq : Nat} (h : ¬t.isPending seq = true) :
    t.pending.filter (·.seq != seq) = t.pending := by
  refine List.filter_eq_self.2 fun p hp => ?_
  have hne : p.seq ≠ seq := fun he => h (by simpa [isPending] using ⟨p, hp, he⟩)
  simpa using hne

/-! ## What is left -/

/-- What is left of pending dispatches once the acknowledged ones in front are taken away. -/
def Settled (ps : List (PendingAck α)) (last : Option α) (t : AckTracker α) : Prop :=
  ∃ front, ps = front ++ t.pending ∧ (∀ p ∈ front, p.acked = true) ∧
    t.last = (front.getLast?.map (·.item)).or last

theorem settled_advance (t : AckTracker α) : Settled t.pending t.last t.advance := by
  obtain ⟨n, ps, last⟩ := t
  induction ps generalizing last with
  | nil => exact ⟨[], rfl, by simp, rfl⟩
  | cons p ps ih =>
    unfold advance
    simp only
    by_cases hp : p.acked = true
    · obtain ⟨front, hps, hacked, hlast⟩ := ih (some p.item)
      rw [settle_cons_of_acked hp]
      refine ⟨p :: front, congrArg (p :: ·) hps, List.forall_mem_cons.2 ⟨hp, hacked⟩, ?_⟩
      refine hlast.trans ?_
      cases front with
      | nil => rfl
      | cons q qs => simp [List.getLast?_cons]
    · rw [settle_cons_of_not hp]
      exact ⟨[], rfl, by simp, rfl⟩

theorem settled_ack (t : AckTracker α) (seq : Nat) :
    Settled (t.pending.map (mark seq)) t.last (t.ack seq) := by
  by_cases h : t.isPending seq = true
  · rw [ack_of_isPending h]
    exact settled_advance { t with pending := t.pending.map (mark seq) }
  · rw [ack_of_not h, map_mark_of_not_isPending h]
    exact ⟨[], rfl, by simp, rfl⟩

theorem settled_cancel (t : AckTracker α) (seq : Nat) :
    Settled (t.pending.filter (·.seq != seq)) t.last (t.cancel seq) := by
  by_cases h : t.isPending seq = true
  · rw [cancel_of_isPending h]
    exact settled_advance { t with pending := t.pending.filter (·.seq != seq) }
  · rw [cancel_of_not h, filter_of_not_isPending h]
    exact ⟨[], rfl, by simp, rfl⟩

theorem Settled.mem {ps : List (PendingAck α)} {last : Option α} {t : AckTracker α}
    (h : Settled ps last t) {p : PendingAck α} (hp : p ∈ t.pending) : p ∈ ps := by
  obtain ⟨front, rfl, -⟩ := h
  exact List.mem_append_right _ hp

/-- What is not acknowledged is not taken away. -/
theorem Settled.mem_of_not_acked {ps : List (PendingAck α)} {last : Option α} {t : AckTracker α}
    (h : Settled ps last t) {p : PendingAck α} (hp : p ∈ ps) (hn : p.acked = false) :
    p ∈ t.pending := by
  obtain ⟨front, rfl, hacked, -⟩ := h
  rcases List.mem_append.1 hp with hp | hp
  · rw [hacked p hp] at hn
    cases hn
  · exact hp

/-- What was pending is still pending, or stood before all that is left. -/
theorem Settled.mem_or_before {R : PendingAck α → PendingAck α → Prop} {ps : List (PendingAck α)}
    {last : Option α} {t : AckTracker α} (h : Settled ps last t) (hps : ps.Pairwise R)
    {p : PendingAck α} (hp : p ∈ ps) : p ∈ t.pending ∨ ∀ q ∈ t.pending, R p q := by
  obtain ⟨front, rfl, -⟩ := h
  rcases List.mem_append.1 hp with hp | hp
  · exact Or.inr fun q hq => (List.pairwise_append.1 hps).2.2 p hp q hq
  · exact Or.inl hp

theorem Settled.pairwise {R : PendingAck α → PendingAck α → Prop} {ps : List (PendingAck α)}
    {last : Option α} {t : AckTracker α} (h : Settled ps last t) (hps : ps.Pairwise R) :
    t.pending.Pairwise R := by
  obtain ⟨front, rfl, -⟩ := h
  exact (List.pairwise_append.1 hps).2.1

/-- The last safe item stays, or it is an acknowledged one that stood before all that is left. -/
theorem Settled.last {R : PendingAck α → PendingAck α → Prop} {ps : List (PendingAck α)}
    {last : Option α} {t : AckTracker α} (h : Settled ps last t) (hps : ps.Pairwise R) :
    t.last = last ∨
      ∃ p ∈ ps, p.acked = true ∧ t.last = some p.item ∧ ∀ q ∈ t.pending, R p q := by
  obtain ⟨front, rfl, hacked, hlast⟩ := h
  cases hf : front.getLast? with
  | none => exact Or.inl (by rw [hlast, hf]; rfl)
  | some p =>
    have hp := List.mem_of_getLast? hf
    exact Or.inr ⟨p, List.mem_append_left _ hp, hacked p hp, by rw [hlast, hf]; rfl,
      fun q hq => (List.pairwise_append.1 hps).2.2 p hp q hq⟩

/-- A tracker whose first pending dispatch is not acknowledged stays so. -/
theorem front_ack {t : AckTracker α} (h : ∀ p, t.pending.head? = some p → p.acked = false)
    (seq : Nat) : ∀ p, (t.ack seq).pending.head? = some p → p.acked = false := by
  by_cases hp : t.isPending seq = true
  · rw [ack_of_isPending hp]
    exact fun p => acked_of_head?_settle
  · rwa [ack_of_not hp]

/-- What is pending after an acknowledgement was so before, perhaps without the mark. -/
theorem exists_mark_of_mem_ack {t : AckTracker α} {seq : Nat} {p : PendingAck α}
    (h : p ∈ (t.ack seq).pending) : ∃ q ∈ t.pending, mark seq q = p :=
  List.mem_map.1 ((settled_ack t seq).mem h)

/-- What was pending before an acknowledgement still is, or goes together with all before it. -/
theorem mem_or_before_ack {t : AckTracker α}
    (ht : t.pending.Pairwise fun p q => p.seq < q.seq) (seq : Nat) {p : PendingAck α}
    (hp : p ∈ t.pending) :
    (∃ q ∈ (t.ack seq).pending, q.seq = p.seq) ∨ ∀ q ∈ (t.ack seq).pending, p.seq < q.seq := by
  have hsorted : (t.pending.map (mark seq)).Pairwise fun p q => p.seq < q.seq := by
    simpa [List.pairwise_map] using ht
  rcases (settled_ack t seq).mem_or_before hsorted (List.mem_map_of_mem hp) with hm | hlt
  · exact Or.inl ⟨_, hm, mark_seq seq p⟩
  · exact Or.inr fun q hq => mark_seq seq p ▸ hlt q hq

/-- Nothing is pending under a number that was cancelled. -/
theorem seq_ne_of_mem_cancel {t : AckTracker α} {seq : Nat} {p : PendingAck α}
    (h : p ∈ (t.cancel seq).pending) : p.seq ≠ seq := by
  have hp := (List.mem_filter.1 ((settled_cancel t seq).mem h)).2
  simpa using hp

@[simp] theorem nextSeq_ack (t : AckTracker α) (seq : Nat) : (t.ack seq).nextSeq = t.nextSeq := by
  unfold ack
  split <;> rfl

@[simp] theorem nextSeq_cancel (t : AckTracker α) (seq : Nat) :
    (t.cancel seq).nextSeq = t.nextSeq := by
  unfold cancel
  split <;> rfl

end ChangeFeed.AckTracker
