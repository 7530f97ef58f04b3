import ChangeFeed.Proofs.Position.Servers
import ChangeFeed.Proofs.Source.Transactions

/-!
# Transactions are replayed whole

A source that resumes after a mutation holds back the rows before the point of the mutation. The
point is the beginning of the mutation's transaction where that is known, so rows of the transaction
are handed over again that were handed over before.

**The log** (`Forward`). Places never go back. Events may share a place, and may be of any servers
and carry any transactions.

**The point** (`Mapper.point_of_upTo`). The point of a mutation is the position of an event that the
mapper was given before the rows, or of the rows themselves. Whatever the mapper is given from there
on is not before it.

Main result: `replays_transactions_whole`.
-/

namespace ChangeFeed

/-- The places of the events never go back. -/
def Forward (log : List LogEvent) : Prop :=
  log.Pairwise fun e e' => ¬e'.position.Before e.position

instance (log : List LogEvent) : Decidable (Forward log) :=
  inferInstanceAs (Decidable (List.Pairwise _ _))

namespace Forward

variable {log earlier es : List LogEvent} {i j : Nat} {b e : LogEvent}

theorem of_append (h : Forward (earlier ++ es)) : Forward es := (List.pairwise_append.1 h).2.1

theorem rank_le (h : Forward es) (hb : es[i]? = some b) (he : es[j]? = some e) (hij : i ≤ j) :
    b.position.rank ≤ e.position.rank := by
  rcases Nat.lt_or_eq_of_le hij with hlt | rfl
  · obtain ⟨hi, rfl⟩ := List.getElem?_eq_some_iff.1 hb
    obtain ⟨hj, rfl⟩ := List.getElem?_eq_some_iff.1 he
    have hnot := List.pairwise_iff_getElem.1 h i j hi hj hlt
    rw [LogPosition.before_iff] at hnot
    exact Nat.le_of_not_lt hnot
  · obtain rfl := Option.some.inj (hb.symm.trans he)
    exact Nat.le_refl _

/-- A filter that resumes from the position of an event lets everything through from there on,
whatever the servers and the transactions of the events are. -/
theorem passes_from (h : Forward es) (hb : es[i]? = some b) (he : es[j]? = some e) (hij : i ≤ j) :
    (DuplicateFilter.mk b.position).passes e = true :=
  DuplicateFilter.passes_of_not_lt fun _ => h.rank_le hb he hij

end Forward

/-- Among events of one server, exactly the rows before the position are held back. -/
theorem DuplicateFilter.passes_eq_false_iff_before {p : LogPosition} {e : LogEvent} {u : String}
    (hp : p.server = some u) (he : e.position.server = some u) :
    (DuplicateFilter.mk p).passes e = false ↔ e.isRowEvent = true ∧ e.position.Before p := by
  rw [passes_eq_false_iff]
  refine and_congr_right fun _ => ?_
  rw [and_iff_right (he.trans hp.symm), LogPosition.compareTo_of_server he hp,
    LogPosition.compareOffsets_eq_lt_iff_before]

namespace Mapper

variable {es : List LogEvent} {n : Nat} {e : LogEvent} {ms : List Mutation} {x : RowMutation}

/-- The point of a mutation is where its transaction begins, or else where its rows are. -/
theorem point_of_upTo (m : Mapper) (he : es[n]? = some e)
    (hok : ((m.reset.upTo es n).map e).1 = .ok ms) (hx : .row x ∈ ms) :
    ∃ i b, i ≤ n ∧ es[i]? = some b ∧ (ResumePoint.after x).position = b.position ∧
      ∀ t, x.context.transaction = some t → Running es n i b ∧ t.BeganAt es i b := by
  obtain ⟨hrunning, hidle⟩ := context_of_upTo m he hok hx
  rw [ResumePoint.position_after]
  by_cases hsome : ∃ i b, Running es n i b
  · obtain ⟨i, b, hr⟩ := hsome
    obtain ⟨t, ht, hbegan⟩ := hrunning i b hr
    refine ⟨i, b, Nat.le_of_lt hr.last.before, hr.last.here, ?_, fun t' ht' => ?_⟩
    · rw [ht]
      exact hbegan.position
    · obtain rfl := Option.some.inj (ht.symm.trans ht')
      exact ⟨hr, hbegan⟩
  · have hnone := hidle fun i b hr => hsome ⟨i, b, hr⟩
    obtain ⟨-, -, hposition⟩ := context_of_mem_map hok hx
    refine ⟨n, e, Nat.le_refl n, he, ?_, fun t ht => nomatch hnone.symm.trans ht⟩
    rw [hnone]
    exact hposition

/-- **Transactions are replayed whole.** An attempt begins anywhere in a log whose places never go
back, and a mutation comes of the event at the place `n`. The filter that resumes from the point of
the mutation lets the event through, and everything after it; and if the mutation is in a
transaction, everything after the event that begins the transaction. If all events of the log are of
one server, it holds back exactly the rows before the point. -/
theorem replays_transactions_whole (m : Mapper) {earlier es : List LogEvent}
    (hforward : Forward (earlier ++ es)) {n : Nat} {e : LogEvent} {ms : List Mutation}
    (he : es[n]? = some e) (hok : ((m.reset.upTo es n).map e).1 = .ok ms) {y : Mutation}
    (hy : y ∈ ms) :
    ∃ x, y = .row x ∧
      let f : DuplicateFilter := ⟨(ResumePoint.after x).position⟩
      f.passes e = true ∧
      (∀ t, x.context.transaction = some t → ∃ i b, Running es n i b ∧ t.BeganAt es i b ∧
        ∀ j, i < j → ∀ e' ∈ es[j]?, f.passes e' = true) ∧
      (∀ j, n < j → ∀ e' ∈ es[j]?, f.passes e' = true) ∧
      ∀ u, (∀ e' ∈ earlier ++ es, e'.position.server = some u) → ∀ e' ∈ earlier ++ es,
        (f.passes e' = false ↔ e'.isRowEvent = true ∧ e'.position.Before f.resumedFrom) := by
  obtain ⟨x, rfl⟩ := exists_row_of_mem_map hok hy
  obtain ⟨i, b, hin, hb, hpoint, htransaction⟩ := point_of_upTo m he hok hy
  have hfrom : ∀ j, i ≤ j → ∀ e', es[j]? = some e' →
      (DuplicateFilter.mk b.position).passes e' = true :=
    fun j hij e' he' => hforward.of_append.passes_from hb he' hij
  refine ⟨x, rfl, ?_⟩
  rw [hpoint]
  refine ⟨hfrom n hin e he, fun t ht => ?_, fun j hj e' he' => ?_, fun u hu e' he' => ?_⟩
  · obtain ⟨hr, hbegan⟩ := htransaction t ht
    exact ⟨i, b, hr, hbegan, fun j hj => hfrom j (Nat.le_of_lt hj)⟩
  · exact hfrom j (Nat.le_trans hin (Nat.le_of_lt hj)) e' he'
  · have hmem : b ∈ earlier ++ es := List.mem_append_right _ (List.mem_of_getElem? hb)
    exact DuplicateFilter.passes_eq_false_iff_before (hu b hmem) (hu e' he')

/-- A transaction changes rows twice, and a source resumes after the second change. The first one is
seen again, and rows from before the transaction are not. -/
theorem replays_transactions_whole_second :
    let t : Table := ⟨7, "a", "shop", [⟨"x", .long, true, 0⟩], ["x"]⟩
    let h (n : Int64) : EventHeader :=
      ⟨n, n * 10, 1, .tagged (.plain "bin.1" n.toUInt64 0)
        (some (GtidSet.empty.addInterval "u" ⟨1, n.toUInt64⟩)) (some "u")⟩
    let es : List LogEvent := [.tableMap (h 200) t, .query (h 300) "shop" "BEGIN",
      .writeRows (h 400) 7 [[.long 1]], .deleteRows (h 500) 7 [[.long 1]], .xid (h 600) 1]
    let old : LogEvent := .writeRows (h 100) 7 [[.long 1]]
    let m := new default (.ofCapacity 4)
    Forward (old :: es) ∧ ∃ x t, ((m.upTo es 3).map (.deleteRows (h 500) 7 [[.long 1]])).1 =
        .ok [.row x] ∧ x.context.transaction = some t ∧
      let f : DuplicateFilter := ⟨(ResumePoint.after x).position⟩
      f.passes (.writeRows (h 400) 7 [[.long 1]]) = true ∧
        f.passes (.deleteRows (h 500) 7 [[.long 1]]) = true ∧ f.passes old = false := by
  intro t h es old m
  have hforward : Forward ([old] ++ es) := by decide +kernel
  have hread : ∃ x t, ((m.upTo es 3).map (.deleteRows (h 500) 7 [[.long 1]])).1 =
      .ok [.row x] ∧ x.context.transaction = some t ∧
        (ResumePoint.after x).position = (h 300).position := ⟨_, _, rfl, rfl, rfl⟩
  obtain ⟨x, t, hok, ht, hpoint⟩ := hread
  obtain ⟨x', hx', hhere, hbegun, -, hserver⟩ :=
    replays_transactions_whole m hforward (n := 3) rfl hok List.mem_cons_self
  obtain rfl := Mutation.row.inj hx'
  obtain ⟨i, b, hrunning, -, hafter⟩ := hbegun t ht
  have hplaces : ∀ i < 3, ∀ b ∈ es[i]?, b.begins = true → i = 1 := by decide +kernel
  obtain rfl := hplaces i hrunning.last.before b hrunning.last.here hrunning.begins
  have hu : ∀ e' ∈ [old] ++ es, e'.position.server = some "u" := by decide +kernel
  refine ⟨hforward, x, t, hok, ht, hafter 2 (by decide) _ rfl, hhere, ?_⟩
  refine (hserver "u" hu old List.mem_cons_self).2 ⟨rfl, ?_⟩
  rw [hpoint]
  decide +kernel

end Mapper

end ChangeFeed
