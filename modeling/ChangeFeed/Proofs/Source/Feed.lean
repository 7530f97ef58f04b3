import ChangeFeed.Proofs.Source.Attempt
import Mathlib.Data.List.Induction

/-!
# What a client yields

A client that was told to connect at a position yields events of a log, each under its place.

**The promise** (`Feed.MayYield`). Events come in the order of the log. Of those at or after the
position none is left out, and the last table map of a number comes before the rows that refer to
it.

Main result: `lastTable_events`, what comes tells the tables as the log has them.
-/

namespace ChangeFeed

/-- What came from a client since it was told to connect. -/
structure Feed where
  /-- Where it was told to connect. -/
  start : LogPosition
  /-- The places of the events that came. -/
  yielded : List Nat

namespace Feed

/-- The events that came. -/
def events (log : List LogEvent) (f : Feed) : List LogEvent := f.yielded.filterMap (log[·]?)

/-- The last table map before a place of the log that tells what the rows of an event there are
rows of. -/
def rowMap (log : List LogEvent) (n : Nat) (e : LogEvent) : Option (Nat × Table) :=
  if e.isRowEvent then e.tableId?.bind (lastMap log · n) else none

/-- May the event at a place come next? -/
def MayYield (log : List LogEvent) (f : Feed) (n : Nat) : Prop :=
  (∀ i ∈ f.yielded, i < n) ∧
    (∀ i < n, ∀ e ∈ log[i]?, f.start.rank ≤ e.position.rank → i ∈ f.yielded) ∧
      ∀ e ∈ log[n]?, ∀ k ∈ rowMap log n e, k.1 ∈ f.yielded

instance (log : List LogEvent) (f : Feed) (n : Nat) : Decidable (f.MayYield log n) :=
  inferInstanceAs (Decidable (_ ∧ _ ∧ _))

/-- One more event came. -/
def add (n : Nat) (f : Feed) : Feed := { f with yielded := f.yielded ++ [n] }

/-- Nothing is left out between the position and the last event that came. -/
structure Complete (log : List LogEvent) (f : Feed) : Prop where
  sorted : f.yielded.Pairwise (· < ·)
  whole : ∀ n ∈ f.yielded, ∀ i < n, ∀ e, log[i]? = some e → f.start.rank ≤ e.position.rank →
    i ∈ f.yielded

variable {log : List LogEvent} {f : Feed} {n : Nat} {e : LogEvent}

theorem complete_start (log : List LogEvent) (p : LogPosition) : Complete log ⟨p, []⟩ :=
  ⟨List.Pairwise.nil, by simp⟩

theorem complete_add (h : f.Complete log) (hn : f.MayYield log n) : (f.add n).Complete log where
  sorted := by
    refine List.pairwise_append.2 ⟨h.sorted, List.pairwise_singleton _ _, fun i hi j hj => ?_⟩
    obtain rfl := List.mem_singleton.1 hj
    exact hn.1 i hi
  whole := by
    intro j hj i hi e he hp
    refine List.mem_append_left _ ?_
    rcases List.mem_append.1 hj with hj | hj
    · exact h.whole j hj i hi e he hp
    · obtain rfl := List.mem_singleton.1 hj
      exact hn.2.1 i hi e he hp

theorem events_add (he : log[n]? = some e) : (f.add n).events log = f.events log ++ [e] := by
  simp [events, add, he]

theorem getLast?_add (f : Feed) (n : Nat) : (f.add n).yielded.getLast? = some n := by
  simp [add]

/-- What comes tells the table of a number as the log has it, if the last table map is among it. -/
theorem lastTable_filterMap {id : Int64} {k : Nat} {t : Table}
    (hl : lastMap log id n = some (k, t)) {is : List Nat} (hs : is.Pairwise (· < ·))
    (hlt : ∀ i ∈ is, i < n) (hk : k ∈ is) : lastTable id (is.filterMap (log[·]?)) = some t := by
  obtain ⟨-, ⟨e, he, het⟩, hlast⟩ := lastMap_spec hl
  induction is using List.reverseRecOn with
  | nil => cases hk
  | append_singleton is i ih =>
    obtain ⟨hs, -, hlti⟩ := List.pairwise_append.1 hs
    by_cases hik : i = k
    · subst hik
      rw [List.filterMap_append, List.filterMap_cons_some he]
      exact lastTable_of_maps het _
    · have hk : k ∈ is := (List.mem_append.1 hk).resolve_right fun h =>
        hik (List.mem_singleton.1 h).symm
      have hrest := ih hs (fun j hj => hlt j (List.mem_append_left _ hj)) hk
      rw [List.filterMap_append]
      cases hi : log[i]? with
      | none => rw [List.filterMap_cons_none hi, List.filterMap_nil, List.append_nil, hrest]
      | some e' =>
        have hn := hlast i (hlti k hk i List.mem_cons_self)
          (hlt i (List.mem_append_right _ List.mem_cons_self)) e' hi
        rw [List.filterMap_cons_some hi, List.filterMap_nil, lastTable_of_not_maps hn, hrest]

theorem lastTable_events (h : f.Complete log) (hn : f.MayYield log n) (he : log[n]? = some e)
    (hrow : e.isRowEvent = true) {id : Int64} (hid : e.tableId? = some id) {k : Nat} {t : Table}
    (hl : lastMap log id n = some (k, t)) : lastTable id (f.events log) = some t := by
  have hmap : rowMap log n e = some (k, t) := by
    unfold rowMap
    rw [if_pos hrow, hid]
    exact hl
  exact lastTable_filterMap hl h.sorted hn.1 (hn.2.2 e he (k, t) hmap)

end Feed

end ChangeFeed
