import ChangeFeed.Proofs.Settling
import Mathlib.Data.List.Induction
import Mathlib.Data.List.Sort
import Mathlib.Tactic.Common

/-!
# The safe prefix of acknowledged dispatches

What a tracker says is safe, compared with what was called on it.

**The ledger** (`Ledger`). It is written from the calls alone: what was registered, which numbers
were acknowledged while they were waited for, and which were cancelled or discarded.

**The number of the last safe item** (`lastSeq`). The tracker keeps the item only. The same calls
on a tracker whose items carry their numbers say which one it is.

**The invariant** (`Fits`). The pending dispatches stand in the order of their numbers, the first
of them is not acknowledged, and what is not pending was dealt with.

Main result: `last_follows_prefix`.
-/

namespace ChangeFeed.AckTracker

variable {α β : Type}

/-! ## Calls and what is written down about them -/

/-- A call on a tracker. -/
inductive Call (α : Type) where
  | register (a : α)
  | ack (seq : Nat)
  | cancel (seq : Nat)
  | discard

/-- The tracker after a call. -/
def after (t : AckTracker α) : Call α → AckTracker α
  | .register a => (t.register a).2
  | .ack seq => t.ack seq
  | .cancel seq => t.cancel seq
  | .discard => t.discard

/-- The tracker after calls. -/
def run (cs : List (Call α)) : AckTracker α := cs.foldl after empty

/-- What was called on a tracker. -/
structure Ledger (α : Type) where
  /-- What was registered, in the order of the numbers. -/
  items : List α
  /-- The numbers that were acknowledged, after they were given and before they were given up. -/
  acked : List Nat
  /-- The numbers that were cancelled or discarded. -/
  gone : List Nat

/-- The ledger after a call. A number that was not given yet means nothing. -/
def Ledger.after (l : Ledger α) : Call α → Ledger α
  | .register a => { l with items := l.items ++ [a] }
  | .ack seq =>
    if seq < l.items.length ∧ seq ∉ l.gone then { l with acked := seq :: l.acked } else l
  | .cancel seq => if seq < l.items.length then { l with gone := seq :: l.gone } else l
  | .discard => { l with gone := List.range l.items.length ++ l.gone }

/-- The ledger of calls. -/
def ledger (cs : List (Call α)) : Ledger α := cs.foldl Ledger.after ⟨[], [], []⟩

/-- A tracker whose items carry their numbers, after a call. -/
def afterNumbered (t : AckTracker (Nat × α)) : Call α → AckTracker (Nat × α)
  | .register a => (t.register (t.nextSeq, a)).2
  | .ack seq => t.ack seq
  | .cancel seq => t.cancel seq
  | .discard => t.discard

/-- The tracker after calls, its items with their numbers. -/
def runNumbered (cs : List (Call α)) : AckTracker (Nat × α) := cs.foldl afterNumbered empty

/-- The number of the last safe item. -/
def lastSeq (cs : List (Call α)) : Option Nat := (runNumbered cs).last.map (·.1)

/-- Does the call leave all dispatches to be waited for? -/
def Call.keepsWaiting : Call α → Bool
  | .register _ | .ack _ => true
  | .cancel _ | .discard => false

theorem ledger_concat (cs : List (Call α)) (c : Call α) :
    ledger (cs ++ [c]) = (ledger cs).after c := by
  simp [ledger]

theorem run_concat (cs : List (Call α)) (c : Call α) : run (cs ++ [c]) = (run cs).after c := by
  simp [run]

theorem runNumbered_concat (cs : List (Call α)) (c : Call α) :
    runNumbered (cs ++ [c]) = (runNumbered cs).afterNumbered c := by
  simp [runNumbered]

/-! ## Forgetting the numbers -/

/-- The pending dispatch with another item. -/
def mapPending (f : α → β) (p : PendingAck α) : PendingAck β := ⟨p.seq, f p.item, p.acked⟩

/-- The tracker with other items. -/
def map (f : α → β) (t : AckTracker α) : AckTracker β :=
  ⟨t.nextSeq, t.pending.map (mapPending f), t.last.map f⟩

theorem settle_map (f : α → β) (ps : List (PendingAck α)) (last : Option α) :
    settle (ps.map (mapPending f)) (last.map f) =
      ((settle ps last).1.map (mapPending f), (settle ps last).2.map f) := by
  induction ps generalizing last with
  | nil => rfl
  | cons p ps ih =>
    by_cases hp : p.acked = true
    · have hp' : (mapPending f p).acked = true := hp
      rw [List.map_cons, settle_cons_of_acked hp, settle_cons_of_acked hp', ← ih]
      rfl
    · have hp' : ¬(mapPending f p).acked = true := hp
      rw [List.map_cons, settle_cons_of_not hp, settle_cons_of_not hp', List.map_cons]

theorem advance_map (f : α → β) (t : AckTracker α) : (t.map f).advance = t.advance.map f := by
  simp only [advance, map, settle_map]

theorem isPending_map (f : α → β) (t : AckTracker α) (seq : Nat) :
    (t.map f).isPending seq = t.isPending seq := by
  simp [isPending, map, mapPending, Function.comp_def]

theorem ack_map (f : α → β) (t : AckTracker α) (seq : Nat) :
    (t.map f).ack seq = (t.ack seq).map f := by
  by_cases h : t.isPending seq = true
  · rw [ack_of_isPending h, ack_of_isPending (by rwa [isPending_map]), ← advance_map]
    congr 1
    simp only [map, List.map_map, mk.injEq, true_and, and_true]
    refine List.map_congr_left fun p _ => ?_
    by_cases hp : p.seq = seq <;> simp [mark, mapPending, hp]
  · rw [ack_of_not h, ack_of_not (by rwa [isPending_map])]

theorem cancel_map (f : α → β) (t : AckTracker α) (seq : Nat) :
    (t.map f).cancel seq = (t.cancel seq).map f := by
  by_cases h : t.isPending seq = true
  · rw [cancel_of_isPending h, cancel_of_isPending (by rwa [isPending_map]), ← advance_map]
    simp [map, List.filter_map, Function.comp_def, mapPending]
  · rw [cancel_of_not h, cancel_of_not (by rwa [isPending_map])]

theorem after_map (t : AckTracker (Nat × α)) (c : Call α) :
    (t.afterNumbered c).map (·.2) = (t.map (·.2)).after c := by
  cases c with
  | register a => simp [afterNumbered, after, register, map, mapPending]
  | ack seq => exact (ack_map _ t seq).symm
  | cancel seq => exact (cancel_map _ t seq).symm
  | discard => rfl

theorem run_eq_map (cs : List (Call α)) : run cs = (runNumbered cs).map (·.2) := by
  induction cs using List.reverseRecOn with
  | nil => rfl
  | append_singleton cs c ih => rw [run_concat, runNumbered_concat, after_map, ih]

/-! ## The invariant -/

/-- How a tracker with numbered items fits the calls that were made on it, up to the dispatches in
front that have not been settled yet. -/
structure Tracks (l : Ledger α) (t : AckTracker (Nat × α)) : Prop where
  next : t.nextSeq = l.items.length
  sorted : t.pending.Pairwise (·.seq < ·.seq)
  item : ∀ p ∈ t.pending, p.item.1 = p.seq ∧ l.items[p.seq]? = some p.item.2
  acked : ∀ p ∈ t.pending, p.acked = true ↔ p.seq ∈ l.acked
  waited : ∀ p ∈ t.pending, p.seq ∉ l.gone
  given : ∀ k, k ∈ l.acked ∨ k ∈ l.gone → k < l.items.length
  /-- What is not pending was given up, or was acknowledged and is safe. -/
  dealt : ∀ k < l.items.length, (∃ p ∈ t.pending, p.seq = k) ∨ k ∈ l.gone ∨
    k ∈ l.acked ∧ ∃ x, t.last = some x ∧ k ≤ x.1
  last : ∀ x, t.last = some x → l.items[x.1]? = some x.2 ∧ x.1 ∈ l.acked ∧
    ∀ p ∈ t.pending, x.1 < p.seq

/-- How a tracker with numbered items fits the calls: the first pending dispatch is never an
acknowledged one. -/
structure Fits (l : Ledger α) (t : AckTracker (Nat × α)) : Prop extends Tracks l t where
  front : ∀ p, t.pending.head? = some p → p.acked = false

theorem seq_lt {l : Ledger α} {t : AckTracker (Nat × α)} (h : Tracks l t) {p : PendingAck (Nat × α)}
    (hp : p ∈ t.pending) : p.seq < l.items.length :=
  (List.getElem?_eq_some_iff.1 (h.item p hp).2).1

/-- One acknowledged dispatch in front is settled. -/
theorem tracks_settle_one {l : Ledger α} {n : Nat} {p : PendingAck (Nat × α)}
    {ps : List (PendingAck (Nat × α))} {last : Option (Nat × α)}
    (h : Tracks l ⟨n, p :: ps, last⟩) (hp : p.acked = true) :
    Tracks l ⟨n, ps, some p.item⟩ := by
  obtain ⟨hnum, hitem⟩ := h.item p List.mem_cons_self
  have hlt := (List.pairwise_cons.1 h.sorted).1
  have hacked : p.seq ∈ l.acked := (h.acked p List.mem_cons_self).1 hp
  exact {
    next := h.next
    sorted := (List.pairwise_cons.1 h.sorted).2
    item := fun q hq => h.item q (List.mem_cons_of_mem _ hq)
    acked := fun q hq => h.acked q (List.mem_cons_of_mem _ hq)
    waited := fun q hq => h.waited q (List.mem_cons_of_mem _ hq)
    given := h.given
    dealt := fun k hk => by
      rcases h.dealt k hk with ⟨q, hq, rfl⟩ | hk | ⟨hk, x, hx, hle⟩
      · rcases List.mem_cons.1 hq with rfl | hq
        · exact Or.inr (Or.inr ⟨hacked, _, rfl, hnum.ge⟩)
        · exact Or.inl ⟨q, hq, rfl⟩
      · exact Or.inr (Or.inl hk)
      · have hx := (h.last x hx).2.2 p List.mem_cons_self
        exact Or.inr (Or.inr ⟨hk, _, rfl, by omega⟩)
    last := fun x hx => by
      obtain rfl : p.item = x := by simpa using hx
      rw [hnum]
      exact ⟨hitem, hacked, hlt⟩ }

theorem tracks_settle {l : Ledger α} {n : Nat} {ps : List (PendingAck (Nat × α))}
    {last : Option (Nat × α)} (h : Tracks l ⟨n, ps, last⟩) :
    Tracks l ⟨n, (settle ps last).1, (settle ps last).2⟩ := by
  induction ps generalizing last with
  | nil => exact h
  | cons p ps ih =>
    by_cases hp : p.acked = true
    · rw [settle_cons_of_acked hp]
      exact ih (tracks_settle_one h hp)
    · rw [settle_cons_of_not hp]
      exact h

theorem fits_advance {l : Ledger α} {t : AckTracker (Nat × α)} (h : Tracks l t) :
    Fits l t.advance :=
  ⟨tracks_settle h, fun _ hp => acked_of_head?_settle hp⟩

/-! ## One call -/

theorem fits_register {l : Ledger α} {t : AckTracker (Nat × α)} (h : Fits l t) (a : α) :
    Fits (l.after (.register a)) (t.afterNumbered (.register a)) := by
  have hlt : ∀ p ∈ t.pending, p.seq < l.items.length := fun p hp => seq_lt h.toTracks hp
  have hmem : ∀ p, p ∈ (t.afterNumbered (.register a)).pending ↔
      p ∈ t.pending ∨ p = ⟨t.nextSeq, (t.nextSeq, a), false⟩ := by
    intro p
    simp [afterNumbered, register]
  -- The new number was neither acknowledged nor given up.
  have hnew : l.items.length ∉ l.acked ∧ l.items.length ∉ l.gone :=
    ⟨fun hk => lt_irrefl _ (h.given _ (Or.inl hk)), fun hk => lt_irrefl _ (h.given _ (Or.inr hk))⟩
  exact {
    next := by simp [afterNumbered, register, Ledger.after, h.next]
    sorted := by
      rw [afterNumbered, register, List.pairwise_append]
      refine ⟨h.sorted, List.pairwise_singleton _ _, fun p hp q hq => ?_⟩
      obtain rfl := List.mem_singleton.1 hq
      exact h.next ▸ hlt p hp
    item := fun p hp => by
      rcases (hmem p).1 hp with hp | rfl
      · have hi := h.item p hp
        refine ⟨hi.1, ?_⟩
        rw [Ledger.after, List.getElem?_append_left (hlt p hp)]
        exact hi.2
      · simp [Ledger.after, h.next]
    acked := fun p hp => by
      rcases (hmem p).1 hp with hp | rfl
      · exact h.acked p hp
      · simpa [Ledger.after, h.next] using hnew.1
    waited := fun p hp => by
      rcases (hmem p).1 hp with hp | rfl
      · exact h.waited p hp
      · simpa [Ledger.after, h.next] using hnew.2
    given := fun k hk => by
      have := h.given k hk
      simp only [Ledger.after, List.length_append]
      omega
    dealt := fun k hk => by
      rw [Ledger.after, List.length_append, List.length_singleton] at hk
      rcases Nat.lt_succ_iff_lt_or_eq.1 hk with hk | rfl
      · rcases h.dealt k hk with ⟨p, hp, hk⟩ | hk | hk
        · exact Or.inl ⟨p, (hmem p).2 (Or.inl hp), hk⟩
        · exact Or.inr (Or.inl hk)
        · exact Or.inr (Or.inr hk)
      · exact Or.inl ⟨_, (hmem _).2 (Or.inr rfl), h.next⟩
    last := fun x hx => by
      obtain ⟨hi, hk, hlast⟩ := h.last x hx
      have hx' := (List.getElem?_eq_some_iff.1 hi).1
      refine ⟨?_, hk, fun p hp => ?_⟩
      · rw [Ledger.after, List.getElem?_append_left hx']
        exact hi
      · rcases (hmem p).1 hp with hp | rfl
        · exact hlast p hp
        · exact h.next ▸ hx'
    front := fun p hp => by
      rw [afterNumbered, register, List.head?_append] at hp
      cases hq : t.pending.head? with
      | none =>
        rw [hq] at hp
        obtain rfl : _ = p := by simpa using hp
        rfl
      | some q =>
        rw [hq] at hp
        obtain rfl : q = p := by simpa using hp
        exact h.front q hq }

/-- The dispatches that are marked as acknowledged fit the ledger in which they are. -/
theorem tracks_mark {l : Ledger α} {t : AckTracker (Nat × α)} (h : Tracks l t) {seq : Nat}
    (hlt : seq < l.items.length) :
    Tracks { l with acked := seq :: l.acked } { t with pending := t.pending.map (mark seq) } where
  next := h.next
  sorted := by simpa [List.pairwise_map] using h.sorted
  item := by simpa using h.item
  acked := by
    intro p hp
    obtain ⟨q, hq, rfl⟩ := List.mem_map.1 hp
    rw [mark_acked, h.acked q hq, mark_seq, List.mem_cons, or_comm]
  waited := by simpa using h.waited
  given := by
    rintro k (hk | hk)
    · rcases List.mem_cons.1 hk with rfl | hk
      · exact hlt
      · exact h.given k (Or.inl hk)
    · exact h.given k (Or.inr hk)
  dealt := by
    intro k hk
    rcases h.dealt k hk with ⟨p, hp, hk⟩ | hk | ⟨hk, hx⟩
    · exact Or.inl ⟨mark seq p, List.mem_map_of_mem hp, (mark_seq seq p).trans hk⟩
    · exact Or.inr (Or.inl hk)
    · exact Or.inr (Or.inr ⟨List.mem_cons_of_mem _ hk, hx⟩)
  last := by
    intro x hx
    obtain ⟨hi, hk, hlast⟩ := h.last x hx
    exact ⟨hi, List.mem_cons_of_mem _ hk, by simpa using hlast⟩

theorem fits_ack {l : Ledger α} {t : AckTracker (Nat × α)} (h : Fits l t) (seq : Nat) :
    Fits (l.after (.ack seq)) (t.afterNumbered (.ack seq)) := by
  simp only [afterNumbered, Ledger.after]
  by_cases hp : t.isPending seq = true
  · obtain ⟨p, hp', rfl⟩ := mem_of_isPending hp
    have hlt := seq_lt h.toTracks hp'
    rw [ack_of_isPending hp, if_pos ⟨hlt, h.waited p hp'⟩]
    exact fits_advance (tracks_mark h.toTracks hlt)
  · -- The number is not pending, so only the ledger takes note of it.
    rw [ack_of_not hp]
    split
    · rename_i hk
      have ht := tracks_mark h.toTracks hk.1
      rw [map_mark_of_not_isPending hp] at ht
      exact ⟨ht, h.front⟩
    · exact h

/-- Without the pending dispatch of a number, the rest fits the ledger in which the number is gone.
-/
theorem tracks_without {l : Ledger α} {t : AckTracker (Nat × α)} (h : Tracks l t) {seq : Nat}
    (hlt : seq < l.items.length) :
    Tracks { l with gone := seq :: l.gone }
      { t with pending := t.pending.filter (·.seq != seq) } where
  next := h.next
  sorted := h.sorted.filter _
  item p hp := h.item p (List.mem_of_mem_filter hp)
  acked p hp := h.acked p (List.mem_of_mem_filter hp)
  waited p hp hg := by
    have hne := (List.mem_filter.1 hp).2
    rcases List.mem_cons.1 hg with hg | hg
    · simp [hg] at hne
    · exact h.waited p (List.mem_of_mem_filter hp) hg
  given := by
    rintro k (hk | hk)
    · exact h.given k (Or.inl hk)
    · rcases List.mem_cons.1 hk with rfl | hk
      · exact hlt
      · exact h.given k (Or.inr hk)
  dealt := by
    intro k hk
    by_cases hks : k = seq
    · exact Or.inr (Or.inl (hks ▸ List.mem_cons_self))
    · rcases h.dealt k hk with ⟨p, hp, hpk⟩ | hk | hk
      · exact Or.inl ⟨p, List.mem_filter.2 ⟨hp, by simpa [hpk] using hks⟩, hpk⟩
      · exact Or.inr (Or.inl (List.mem_cons_of_mem _ hk))
      · exact Or.inr (Or.inr hk)
  last x hx := by
    obtain ⟨hi, hk, hlast⟩ := h.last x hx
    exact ⟨hi, hk, fun p hp => hlast p (List.mem_of_mem_filter hp)⟩

theorem fits_cancel {l : Ledger α} {t : AckTracker (Nat × α)} (h : Fits l t) (seq : Nat) :
    Fits (l.after (.cancel seq)) (t.afterNumbered (.cancel seq)) := by
  simp only [afterNumbered, Ledger.after]
  by_cases hp : t.isPending seq = true
  · obtain ⟨p, hp', rfl⟩ := mem_of_isPending hp
    have hlt := seq_lt h.toTracks hp'
    rw [cancel_of_isPending hp, if_pos hlt]
    exact fits_advance (tracks_without h.toTracks hlt)
  · rw [cancel_of_not hp]
    split
    · rename_i hk
      have ht := tracks_without h.toTracks hk
      rw [filter_of_not_isPending hp] at ht
      exact ⟨ht, h.front⟩
    · exact h

theorem fits_discard {l : Ledger α} {t : AckTracker (Nat × α)} (h : Fits l t) :
    Fits (l.after .discard) (t.afterNumbered .discard) where
  next := h.next
  sorted := List.Pairwise.nil
  item _ hp := absurd hp List.not_mem_nil
  acked _ hp := absurd hp List.not_mem_nil
  waited _ hp := absurd hp List.not_mem_nil
  given := by
    rintro k (hk | hk)
    · exact h.given k (Or.inl hk)
    · rcases List.mem_append.1 hk with hk | hk
      · exact List.mem_range.1 hk
      · exact h.given k (Or.inr hk)
  dealt k hk := Or.inr (Or.inl (List.mem_append_left _ (List.mem_range.2 hk)))
  last x hx := ⟨(h.last x hx).1, (h.last x hx).2.1, fun _ hp => absurd hp List.not_mem_nil⟩
  front _ hp := by simp [afterNumbered, discard] at hp

theorem fits_after {l : Ledger α} {t : AckTracker (Nat × α)} (h : Fits l t) (c : Call α) :
    Fits (l.after c) (t.afterNumbered c) := by
  cases c with
  | register a => exact fits_register h a
  | ack seq => exact fits_ack h seq
  | cancel seq => exact fits_cancel h seq
  | discard => exact fits_discard h

theorem fits_run (cs : List (Call α)) : Fits (ledger cs) (runNumbered cs) := by
  induction cs using List.reverseRecOn with
  | nil =>
    exact {
      next := rfl
      sorted := List.Pairwise.nil
      item := fun _ hp => absurd hp List.not_mem_nil
      acked := fun _ hp => absurd hp List.not_mem_nil
      waited := fun _ hp => absurd hp List.not_mem_nil
      given := fun _ hk => by simp [ledger] at hk
      dealt := fun _ hk => by simp [ledger] at hk
      last := fun _ hx => by cases hx
      front := fun _ hp => by cases hp }
  | append_singleton cs c ih =>
    rw [ledger_concat, runNumbered_concat]
    exact fits_after ih c

/-! ## The last safe item -/

theorem advance_last {l : Ledger α} {t : AckTracker (Nat × α)} (h : Tracks l t) :
    t.advance.last = t.last ∨
      ∃ x, t.advance.last = some x ∧ ∀ y, t.last = some y → y.1 < x.1 := by
  rcases settle_last t.pending t.last with hs | ⟨p, hp, hs⟩
  · exact Or.inl hs
  · refine Or.inr ⟨p.item, hs, fun y hy => ?_⟩
    rw [(h.item p hp).1]
    exact (h.last y hy).2.2 p hp

/-- One call leaves the last safe item as it is or puts a later one in its place. -/
theorem last_afterNumbered {l : Ledger α} {t : AckTracker (Nat × α)} (h : Fits l t) (c : Call α) :
    (t.afterNumbered c).last = t.last ∨
      ∃ x, (t.afterNumbered c).last = some x ∧ ∀ y, t.last = some y → y.1 < x.1 := by
  cases c with
  | register a => exact Or.inl rfl
  | ack seq =>
    by_cases hp : t.isPending seq = true
    · obtain ⟨p, hp', rfl⟩ := mem_of_isPending hp
      have ht := advance_last (tracks_mark h.toTracks (seq_lt h.toTracks hp'))
      rwa [afterNumbered, ack_of_isPending hp]
    · exact Or.inl (congrArg AckTracker.last (ack_of_not hp))
  | cancel seq =>
    by_cases hp : t.isPending seq = true
    · obtain ⟨p, hp', rfl⟩ := mem_of_isPending hp
      have ht := advance_last (tracks_without h.toTracks (seq_lt h.toTracks hp'))
      rwa [afterNumbered, cancel_of_isPending hp]
    · exact Or.inl (congrArg AckTracker.last (cancel_of_not hp))
  | discard => exact Or.inl rfl

theorem gone_eq_nil {cs : List (Call α)} (h : ∀ c ∈ cs, c.keepsWaiting = true) :
    (ledger cs).gone = [] := by
  induction cs using List.reverseRecOn with
  | nil => rfl
  | append_singleton cs c ih =>
    have ih := ih fun c hc => h c (List.mem_append_left _ hc)
    have hc := h c (List.mem_append_right _ List.mem_cons_self)
    rw [ledger_concat]
    cases c with
    | register a => exact ih
    | ack seq =>
      rw [Ledger.after]
      split <;> exact ih
    | cancel seq => cases hc
    | discard => cases hc

/-- How many dispatches in front are safe. -/
def safeCount (t : AckTracker (Nat × α)) : Nat :=
  match t.last with
  | some x => x.1 + 1
  | none => 0

/-- While nothing is given up, the pending dispatches are exactly those after the safe ones. -/
theorem pending_seqs {l : Ledger α} {t : AckTracker (Nat × α)} (h : Fits l t) (hg : l.gone = []) :
    t.pending.map (·.seq) = List.range' t.safeCount (l.items.length - t.safeCount) := by
  have hsorted : (t.pending.map (·.seq)).Pairwise (· < ·) := List.pairwise_map.2 h.sorted
  refine hsorted.eq_of_mem_iff List.pairwise_lt_range' fun k => ?_
  rw [List.mem_map, List.mem_range'_1]
  constructor
  · rintro ⟨p, hp, rfl⟩
    have hlt := seq_lt h.toTracks hp
    have hle : t.safeCount ≤ p.seq := by
      unfold safeCount
      split
      · rename_i x hx
        exact (h.last x hx).2.2 p hp
      · exact Nat.zero_le _
    omega
  · intro hk
    rcases h.dealt k (by omega) with hp | hk' | ⟨-, x, hx, hle⟩
    · exact hp
    · rw [hg] at hk'
      cases hk'
    · rw [safeCount, hx] at hk
      simp only at hk
      omega

/-- While nothing is given up, the safe dispatches are the longest front of acknowledged ones. -/
theorem safeCount_eq {l : Ledger α} {t : AckTracker (Nat × α)} (h : Fits l t) (hg : l.gone = []) :
    t.safeCount ≤ l.items.length ∧ (∀ k < t.safeCount, k ∈ l.acked) ∧ t.safeCount ∉ l.acked := by
  have hseqs := pending_seqs h hg
  have hle : t.safeCount ≤ l.items.length := by
    unfold safeCount
    split
    · rename_i x hx
      exact (List.getElem?_eq_some_iff.1 (h.last x hx).1).1
    · exact Nat.zero_le _
  refine ⟨hle, fun k hk => ?_, fun hn => ?_⟩
  · rcases h.dealt k (by omega) with ⟨p, hp, rfl⟩ | hk' | hk'
    · have hmem := List.mem_map_of_mem (f := (·.seq)) hp
      rw [hseqs, List.mem_range'_1] at hmem
      omega
    · rw [hg] at hk'
      cases hk'
    · exact hk'.1
  · have hlt := h.given _ (Or.inl hn)
    cases hps : t.pending with
    | nil =>
      rw [hps] at hseqs
      have := congrArg List.length hseqs
      simp only [List.map_nil, List.length_nil, List.length_range'] at this
      omega
    | cons p ps =>
      -- The first pending dispatch has the number after the safe ones.
      have hfirst : p.seq = t.safeCount := by
        have := congrArg List.head? hseqs
        rw [hps, List.head?_range', if_neg (by omega)] at this
        simpa using this
      have hp := (h.acked p (hps ▸ List.mem_cons_self)).2 (hfirst ▸ hn)
      rw [h.front p (by rw [hps]; rfl)] at hp
      cases hp

/-- **The last safe item follows the acknowledged prefix.** It is only ever replaced by an item
with a higher number. When it is the item with number `k`, this one was acknowledged, and each
number below was acknowledged or given up. While nothing is given up, it is the last item of the
longest front of acknowledged ones, and the items after that one are pending. -/
theorem last_follows_prefix (cs : List (Call α)) :
    (∀ a, (run cs).last = some a ↔ ∃ k, lastSeq cs = some k ∧ (ledger cs).items[k]? = some a) ∧
    (∀ c, lastSeq (cs ++ [c]) = lastSeq cs ∧ (run (cs ++ [c])).last = (run cs).last ∨
      ∃ k, lastSeq (cs ++ [c]) = some k ∧ ∀ j, lastSeq cs = some j → j < k) ∧
    (∀ k, lastSeq cs = some k → k < (ledger cs).items.length ∧ k ∈ (ledger cs).acked ∧
      ∀ j < k, j ∈ (ledger cs).acked ∨ j ∈ (ledger cs).gone) ∧
    ((∀ c ∈ cs, c.keepsWaiting = true) → ∃ n ≤ (ledger cs).items.length,
      (∀ k < n, k ∈ (ledger cs).acked) ∧ n ∉ (ledger cs).acked ∧
      (run cs).last = (if n = 0 then none else (ledger cs).items[n - 1]?) ∧
      (run cs).pendingCount = (ledger cs).items.length - n) := by
  have h := fits_run cs
  have hlast : (run cs).last = (runNumbered cs).last.map (·.2) := by rw [run_eq_map]; rfl
  refine ⟨fun a => ?_, fun c => ?_, fun k hk => ?_, fun hw => ?_⟩
  · rw [hlast, lastSeq]
    cases hx : (runNumbered cs).last with
    | none => simp
    | some x =>
      have hi := (h.last x hx).1
      simp [hi]
  · rcases last_afterNumbered h c with hc | ⟨x, hx, hlt⟩
    · refine Or.inl ⟨?_, ?_⟩
      · rw [lastSeq, runNumbered_concat, hc, lastSeq]
      · rw [hlast, run_eq_map, runNumbered_concat, map, hc]
    · refine Or.inr ⟨x.1, by rw [lastSeq, runNumbered_concat, hx]; rfl, fun j hj => ?_⟩
      obtain ⟨y, hy, rfl⟩ := Option.map_eq_some_iff.1 hj
      exact hlt y hy
  · obtain ⟨x, hx, rfl⟩ := Option.map_eq_some_iff.1 hk
    obtain ⟨hi, hacked, hlt⟩ := h.last x hx
    have hx' := (List.getElem?_eq_some_iff.1 hi).1
    refine ⟨hx', hacked, fun j hj => ?_⟩
    rcases h.dealt j (hj.trans hx') with ⟨p, hp, rfl⟩ | hg | ⟨ha, -⟩
    · exact absurd (hlt p hp) (by omega)
    · exact Or.inr hg
    · exact Or.inl ha
  · have hg := gone_eq_nil hw
    obtain ⟨hle, hall, hnot⟩ := safeCount_eq h hg
    refine ⟨_, hle, hall, hnot, ?_, ?_⟩
    · rw [hlast]
      cases hx : (runNumbered cs).last with
      | none => simp [safeCount, hx]
      | some x => simp [safeCount, hx, (h.last x hx).1]
    · have hlen := congrArg List.length (pending_seqs h hg)
      rw [List.length_map, List.length_range'] at hlen
      rw [pendingCount, run_eq_map, map, List.length_map, hlen]

end ChangeFeed.AckTracker
