import ChangeFeed.Proofs.Source.Resuming

/-!
# The transaction of a mutation

A mapper says of each mutation which transaction it belongs to, and of the transaction which id it
has.

**Places.** An event is known by its place in the sequence. What counts at a place is the last event
before it of a certain kind (`LastBefore`).

**Transactions** (`Running`). Of the events that begin or end transactions, the last one begins the
transaction that is running.

**Ids** (`Takes`). A transaction takes the id that was announced last, unless another transaction
began in between. So no announcement serves two transactions (`Takes.unique`).

**The invariant** (`Mapper.Follows`). The mapper remembers the id that the next transaction takes
and the transaction that is running. Rows that are refused change neither.

Main results: `carries_running_transaction`, and `announced_directly_iff` with `takes_id_of_other`
for an id that is announced for something else than the transaction that takes it.
-/

namespace ChangeFeed

/-! ## Kinds of events -/

namespace LogEvent

/-- The transaction id that the event announces. -/
def announced? : LogEvent → Option String
  | .gtid _ g => some g
  | _ => none

/-- Does the event begin or end a transaction? -/
def bounds (e : LogEvent) : Bool := e.begins || e.ends

/-- Does the event decide which id the next transaction takes? -/
def decidesId (e : LogEvent) : Bool := e.announced?.isSome || e.begins

/-- Is the event a statement, its rows or its commit? Announcements and table maps do nothing by
themselves. -/
def acts : LogEvent → Bool
  | .query .. | .xid .. | .writeRows .. | .updateRows .. | .deleteRows .. => true
  | _ => false

theorem announced?_of_begins {e : LogEvent} (h : e.begins = true) : e.announced? = none := by
  cases e with
  | gtid header g => cases h
  | _ => rfl

theorem decidesId_of_begins {e : LogEvent} (h : e.begins = true) : e.decidesId = true := by
  rw [decidesId, h, Bool.or_true]

end LogEvent

/-! ## The last event of a kind -/

section

variable {kind : LogEvent → Bool} {es : List LogEvent} {n i j : Nat} {e x : LogEvent}

/-- The last event before a place that is of a kind, and its place. -/
structure LastBefore (kind : LogEvent → Bool) (es : List LogEvent) (n i : Nat) (e : LogEvent) :
    Prop where
  before : i < n
  here : es[i]? = some e
  isKind : kind e = true
  last : ∀ k, i < k → k < n → ∀ x, es[k]? = some x → kind x = false

theorem lastBefore_succ_of_kind (hx : es[n]? = some x) (hkind : kind x = true) :
    LastBefore kind es (n + 1) i e ↔ i = n ∧ e = x := by
  constructor
  · intro h
    rcases Nat.lt_succ_iff_lt_or_eq.1 h.before with hlt | rfl
    · have hnot := h.last n hlt (Nat.lt_succ_self n) x hx
      rw [hkind] at hnot
      cases hnot
    · exact ⟨rfl, Option.some.inj (h.here.symm.trans hx)⟩
  · rintro ⟨rfl, rfl⟩
    exact ⟨Nat.lt_succ_self _, hx, hkind, fun k hlt hle => absurd hlt (by omega)⟩

theorem lastBefore_succ_of_not (hx : es[n]? = some x) (hkind : kind x = false) :
    LastBefore kind es (n + 1) i e ↔ LastBefore kind es n i e := by
  constructor
  · intro h
    have hne : i ≠ n := by
      rintro rfl
      have hkind' := h.isKind
      rw [Option.some.inj (h.here.symm.trans hx), hkind] at hkind'
      cases hkind'
    exact ⟨by have := h.before; omega, h.here, h.isKind, fun k hi hn =>
      h.last k hi (Nat.lt_succ_of_lt hn)⟩
  · intro h
    refine ⟨Nat.lt_succ_of_lt h.before, h.here, h.isKind, fun k hi hn y hy => ?_⟩
    rcases Nat.lt_succ_iff_lt_or_eq.1 hn with hlt | rfl
    · exact h.last k hi hlt y hy
    · rwa [Option.some.inj (hy.symm.trans hx)]

/-! ## Transactions and their ids -/

/-- At the place `n` the transaction is running that the event at `i` begins. -/
structure Running (es : List LogEvent) (n i : Nat) (e : LogEvent) : Prop where
  last : LastBefore LogEvent.bounds es n i e
  begins : e.begins = true

/-- The transaction that begins at `i` takes the id that is announced at `j`. -/
structure Takes (es : List LogEvent) (i j : Nat) (id : String) : Prop where
  begins : ∃ e, es[i]? = some e ∧ e.begins = true
  announced : ∃ a, LastBefore LogEvent.decidesId es i j a ∧ a.announced? = some id

/-- What is announced at one place is taken by one transaction at most. -/
theorem Takes.unique {i' : Nat} {id id' : String} (h : Takes es i j id) (h' : Takes es i' j id') :
    i = i' := by
  have hlt : ∀ {i i' : Nat} {id id' : String}, Takes es i j id → Takes es i' j id' → ¬i < i' := by
    intro i i' id id' h h' hlt
    obtain ⟨b, hb, hbegins⟩ := h.begins
    obtain ⟨a, ha, -⟩ := h.announced
    obtain ⟨a', ha', -⟩ := h'.announced
    have hnot := ha'.last i ha.before hlt b hb
    rw [LogEvent.decidesId_of_begins hbegins] at hnot
    cases hnot
  exact Nat.le_antisymm (Nat.le_of_not_lt (hlt h' h)) (Nat.le_of_not_lt (hlt h h'))

/-- The transaction is the one that the event at the place begins, with the id that it takes. -/
structure Transaction.BeganAt (t : Transaction) (es : List LogEvent) (i : Nat) (e : LogEvent) :
    Prop where
  timestamp : t.timestamp = e.header.timestamp
  offset : t.offset = e.header.offset
  position : t.position = e.position
  gtid_iff : ∀ id, t.gtid = some id ↔ ∃ j, Takes es i j id

end

/-! ## The mapper -/

namespace Mapper

variable {m : Mapper} {es : List LogEvent} {n : Nat} {e : LogEvent}

/-- The mapper after the first events. -/
def upTo (m : Mapper) (es : List LogEvent) (n : Nat) : Mapper :=
  (es.take n).foldl (fun m e => (m.map e).2) m

theorem upTo_succ (m : Mapper) (he : es[n]? = some e) :
    m.upTo es (n + 1) = ((m.upTo es n).map e).2 := by
  rw [upTo, List.take_add_one, he, List.foldl_append, Option.toList_some, List.foldl_cons,
    List.foldl_nil, upTo]

/-- A new mapper is as after a reset. -/
theorem reset_new (source : DataSource) (cache : TableCache) :
    (new source cache).reset = new source cache := rfl

/-- A transaction takes the id that was announced, and nothing else forgets it. -/
theorem announced_map (m : Mapper) (e : LogEvent) :
    (m.map e).2.announced = if e.begins then none else e.announced?.or m.announced := by
  cases e with
  | query header db sql =>
    by_cases hb : isStatement "BEGIN" sql = true
    · simp [map, query, LogEvent.begins, hb]
    · by_cases hc : isStatement "COMMIT" sql = true
      · simp [map, query, LogEvent.begins, LogEvent.announced?, hb, hc]
      · simp [map, query, LogEvent.begins, LogEvent.announced?, hb, hc]
  | writeRows header i rs | updateRows header i rs | deleteRows header i rs =>
    simp only [map, rows_snd]
    rfl
  | _ => rfl

/-- The mapper remembers the id that is to be taken and the transaction that is running. -/
structure Follows (m : Mapper) (es : List LogEvent) (n : Nat) : Prop where
  announced : ∀ id, m.announced = some id ↔
    ∃ j a, LastBefore LogEvent.decidesId es n j a ∧ a.announced? = some id
  running : ∀ i b, Running es n i b → ∃ t, m.transaction = some t ∧ t.BeganAt es i b
  idle : (∀ i b, ¬Running es n i b) → m.transaction = none

theorem follows_reset (m : Mapper) (es : List LogEvent) : m.reset.Follows es 0 where
  announced id := by
    constructor
    · intro h
      cases h
    · rintro ⟨j, a, ha, -⟩
      exact absurd ha.before (Nat.not_lt_zero j)
  running i b h := absurd h.last.before (Nat.not_lt_zero i)
  idle _ := rfl

theorem follows_map (h : m.Follows es n) (he : es[n]? = some e) :
    (m.map e).2.Follows es (n + 1) where
  announced id := by
    rw [announced_map]
    cases hd : e.decidesId with
    | true =>
      simp only [lastBefore_succ_of_kind he hd, and_assoc, exists_and_left, exists_eq_left]
      cases hb : e.begins with
      | true => simp [LogEvent.announced?_of_begins hb]
      | false =>
        rw [LogEvent.decidesId, hb, Bool.or_false] at hd
        obtain ⟨g, hg⟩ := Option.isSome_iff_exists.1 hd
        simp [hg]
    | false =>
      simp only [lastBefore_succ_of_not he hd]
      rw [LogEvent.decidesId, Bool.or_eq_false_iff, Option.isSome_eq_false_iff,
        Option.isNone_iff_eq_none] at hd
      rw [hd.1, hd.2, ← h.announced]
      rfl
  running i b hr := by
    rw [transaction_map]
    obtain ⟨hlast, hbegins⟩ := hr
    cases hd : e.bounds with
    | true =>
      -- The event itself is the last one that bounds a transaction, and it begins one.
      obtain ⟨rfl, rfl⟩ := (lastBefore_succ_of_kind he hd).1 hlast
      refine ⟨_, if_pos hbegins, rfl, rfl, rfl, fun id => ?_⟩
      rw [h.announced]
      constructor
      · rintro ⟨j, a, ha, hid⟩
        exact ⟨j, ⟨_, he, hbegins⟩, a, ha, hid⟩
      · rintro ⟨j, -, a, ha, hid⟩
        exact ⟨j, a, ha, hid⟩
    | false =>
      rw [lastBefore_succ_of_not he hd] at hlast
      rw [LogEvent.bounds, Bool.or_eq_false_iff] at hd
      rw [hd.1, hd.2]
      exact h.running i b ⟨hlast, hbegins⟩
  idle hnone := by
    rw [transaction_map]
    cases hb : e.begins with
    | true =>
      have hd : e.bounds = true := by rw [LogEvent.bounds, hb, Bool.true_or]
      exact absurd ⟨(lastBefore_succ_of_kind he hd).2 ⟨rfl, rfl⟩, hb⟩ (hnone n e)
    | false =>
      cases hends : e.ends with
      | true => rfl
      | false =>
        have hd : e.bounds = false := by rw [LogEvent.bounds, hb, hends, Bool.or_false]
        refine h.idle fun i b hr => hnone i b ⟨?_, hr.begins⟩
        exact (lastBefore_succ_of_not he hd).2 hr.last

theorem follows_upTo (m : Mapper) (hn : n ≤ es.length) : (m.reset.upTo es n).Follows es n := by
  induction n with
  | zero => exact follows_reset m es
  | succ n ih =>
    have he : es[n]? = some es[n] := List.getElem?_eq_getElem hn
    rw [upTo_succ _ he]
    exact follows_map (ih (Nat.le_of_succ_le hn)) he

/-! ## The transaction of a mutation -/

/-- All mutations of events are changes of rows. -/
theorem exists_row_of_mem_map {ms : List Mutation} (hok : (m.map e).1 = .ok ms) {y : Mutation}
    (hy : y ∈ ms) : ∃ x, y = .row x := by
  cases hrow : e.isRowEvent with
  | false =>
    rw [map_of_not_row hrow] at hok
    cases hok
    cases hy
  | true =>
    obtain ⟨id, t, rs, -, -, rfl, -, -⟩ := map_of_row hrow hok
    obtain ⟨x, -, rfl⟩ := List.mem_map.1 hy
    exact ⟨x, rfl⟩

/-- What the mapper makes of an event is in the transaction that is running at the place of the
event. -/
theorem context_of_upTo (m : Mapper) (he : es[n]? = some e) {ms : List Mutation}
    (hok : ((m.reset.upTo es n).map e).1 = .ok ms) {x : RowMutation} (hx : .row x ∈ ms) :
    (∀ i b, Running es n i b → ∃ t, x.context.transaction = some t ∧ t.BeganAt es i b) ∧
      ((∀ i b, ¬Running es n i b) → x.context.transaction = none) := by
  obtain ⟨hn, -⟩ := List.getElem?_eq_some_iff.1 he
  have hfollows := follows_upTo m (Nat.le_of_lt hn)
  obtain ⟨-, htransaction, -⟩ := context_of_mem_map hok hx
  rw [htransaction]
  exact ⟨hfollows.running, hfollows.idle⟩

/-- **Mutations carry the transaction that is running.** After a reset, and so from a new mapper on
(`reset_new`), whatever events are mapped, with those whose rows are refused: every mutation carries
the transaction that the last event to begin or to end one begins, with the time, the offset and the
position of that event, and no transaction if that event ends one or if there is none. The
transaction has an id exactly if it takes one that was announced, and what was announced once is
taken by one transaction at most. -/
theorem carries_running_transaction (m : Mapper) (es : List LogEvent) :
    (∀ n e ms, es[n]? = some e → ((m.reset.upTo es n).map e).1 = .ok ms →
      ∀ y ∈ ms, ∃ x, y = .row x ∧
        (∀ i b, Running es n i b → ∃ t, x.context.transaction = some t ∧ t.BeganAt es i b) ∧
        ((∀ i b, ¬Running es n i b) → x.context.transaction = none)) ∧
    ∀ i i' j id id', Takes es i j id → Takes es i' j id' → i = i' := by
  refine ⟨fun n e ms he hok y hy => ?_, fun i i' j id id' h h' => h.unique h'⟩
  obtain ⟨x, rfl⟩ := exists_row_of_mem_map hok hy
  exact ⟨x, rfl, context_of_upTo m he hok hy⟩

/-- A row that is refused stands before a transaction that takes an id, and a second transaction
begins over the first one. It takes no id, since that was taken. -/
theorem carries_running_transaction_again :
    let t : Table := ⟨7, "a", "shop", [⟨"x", .long, true, 0⟩], ["x"]⟩
    let h (n : Int64) : EventHeader := ⟨n, n * 10, 1, .plain "bin.1" n.toUInt64 0⟩
    let es : List LogEvent := [.writeRows (h 0) 7 [[.null]], .tableMap (h 1) t, .gtid (h 2) "u:5",
      .query (h 3) "shop" "begin", .query (h 4) "shop" " BEGIN\n", .deleteRows (h 5) 7 [[.long 1]]]
    let m := new default (.ofCapacity 4)
    ∃ ms, ((m.upTo es 5).map (.deleteRows (h 5) 7 [[.long 1]])).1 = .ok ms ∧
      ms.length = 1 ∧ ∀ y ∈ ms, ∃ x x', y = .row x ∧ x.context.transaction = some x' ∧
        x'.BeganAt es 4 (.query (h 4) "shop" " BEGIN\n") ∧ x'.gtid = none := by
  intro t h es m
  obtain ⟨hcarries, hunique⟩ := carries_running_transaction m es
  rw [reset_new] at hcarries
  have hone : ((m.upTo es 5).map (.deleteRows (h 5) 7 [[.long 1]])).1.map List.length =
      .ok 1 := by
    decide +kernel
  cases hms : ((m.upTo es 5).map (.deleteRows (h 5) 7 [[.long 1]])).1 with
  | error f =>
    rw [hms] at hone
    cases hone
  | ok ms =>
    rw [hms] at hone
    refine ⟨ms, rfl, Except.ok.inj hone, fun y hy => ?_⟩
    obtain ⟨x, rfl, hrunning, -⟩ := hcarries 5 _ ms rfl hms y hy
    have hbegins : LogEvent.begins (.query (h 4) "shop" " BEGIN\n") = true := by decide +kernel
    have hbounds : LogEvent.bounds (.query (h 4) "shop" " BEGIN\n") = true := by decide +kernel
    obtain ⟨x', hx', hbegan⟩ := hrunning 4 _
      ⟨⟨by decide, rfl, hbounds, fun k hlt hle => absurd hlt (by omega)⟩, hbegins⟩
    have hfirst : Takes es 3 2 "u:5" :=
      ⟨⟨_, rfl, by decide +kernel⟩, _, ⟨by decide, rfl, rfl, fun k hlt hle =>
        absurd hlt (by omega)⟩, rfl⟩
    refine ⟨x, x', rfl, hx', hbegan, Option.eq_none_iff_forall_ne_some.2 fun id hid => ?_⟩
    obtain ⟨j, htakes⟩ := (hbegan.gtid_iff id).1 hid
    obtain ⟨a, hlast, hid⟩ := htakes.announced
    have hplaces : ∀ j < 4, ∀ a ∈ es[j]?, a.announced?.isSome = true → j = 2 := by decide
    have hj : j = 2 := hplaces j hlast.before a hlast.here (by rw [hid]; rfl)
    exact absurd (hunique 3 4 2 _ _ hfirst (hj ▸ htakes)) (by decide)

/-! ## Ids that are announced directly -/

/-- The id of the transaction that begins at `i` is announced at `j`, and nothing is done in
between. -/
structure AnnouncedDirectly (es : List LogEvent) (i j : Nat) (id : String) : Prop where
  begins : ∃ b, es[i]? = some b ∧ b.begins = true
  before : j < i
  announced : ∃ a, es[j]? = some a ∧ a.announced? = some id
  idle : ∀ k, j < k → k < i → ∀ e, es[k]? = some e → e.acts = false

/-- What is done first after each announcement, if anything is, begins a transaction. -/
def AnnouncedForNext (es : List LogEvent) : Prop :=
  ∀ (j : Nat) (a : LogEvent), es[j]? = some a → a.announced?.isSome = true →
    ∀ (k : Nat) (e : LogEvent), j < k → es[k]? = some e → e.acts = true →
      (∀ l, j < l → l < k → ∀ x, es[l]? = some x → x.acts = false) → e.begins = true

/-- A transaction takes the id that is announced directly before it just if nothing is done between
the announcement and the transaction. -/
theorem exists_announcedDirectly_iff {i j : Nat} {id : String} (h : Takes es i j id) :
    (∃ j', AnnouncedDirectly es i j' id) ↔
      ∀ k, j < k → k < i → ∀ e, es[k]? = some e → e.acts = false := by
  obtain ⟨a, hlast, hid⟩ := h.announced
  constructor
  · rintro ⟨j', hdirect⟩ k hj
    refine hdirect.idle k ?_
    by_contra hle
    obtain ⟨a', ha', hid'⟩ := hdirect.announced
    have hnot := hlast.last j' (by omega) hdirect.before a' ha'
    simp [LogEvent.decidesId, hid'] at hnot
  · exact fun hidle => ⟨j, h.begins, hlast.before, ⟨a, hlast.here, hid⟩, hidle⟩

theorem announcedDirectly_of_takes (hnext : AnnouncedForNext es) {i j : Nat} {id : String}
    (h : Takes es i j id) : AnnouncedDirectly es i j id := by
  obtain ⟨a, hlast, hid⟩ := h.announced
  refine ⟨h.begins, hlast.before, ⟨a, hlast.here, hid⟩, fun k => ?_⟩
  -- The first event that does something would begin a transaction between the two.
  induction k using Nat.strongRecOn with
  | _ k ih =>
    intro hj hi e he
    refine Bool.eq_false_iff.2 fun hacts => ?_
    have hbegins := hnext j a hlast.here (by rw [hid]; rfl) k e hj he hacts
      fun l hjl hlk => ih l hlk hjl (Nat.lt_trans hlk hi)
    have hnot := hlast.last k hj hi e he
    rw [LogEvent.decidesId_of_begins hbegins] at hnot
    cases hnot

/-- **Whose id a transaction takes.** The id of a mutation's transaction is the one that was
announced last, with no other transaction begun in between. It is announced directly before the
transaction exactly if no statement, no rows and no commit are in between; that is so for all
transactions where the first thing that is done after each announcement begins a transaction. -/
theorem announced_directly_iff (m : Mapper) (es : List LogEvent) :
    (∀ n e ms x t id, es[n]? = some e → ((m.reset.upTo es n).map e).1 = .ok ms → .row x ∈ ms →
      x.context.transaction = some t → t.gtid = some id →
      ∃ i b j, Running es n i b ∧ t.BeganAt es i b ∧ Takes es i j id ∧
        ((∃ j', AnnouncedDirectly es i j' id) ↔
          ∀ k, j < k → k < i → ∀ e, es[k]? = some e → e.acts = false)) ∧
    (AnnouncedForNext es → ∀ i j id, Takes es i j id → AnnouncedDirectly es i j id) := by
  refine ⟨fun n e ms x t id he hok hx ht hid => ?_,
    fun hnext i j id => announcedDirectly_of_takes hnext⟩
  obtain ⟨hrunning, hidle⟩ := context_of_upTo m he hok hx
  have hsome : ∃ i b, Running es n i b := by
    by_contra hnone
    cases (hidle fun i b hr => hnone ⟨i, b, hr⟩).symm.trans ht
  obtain ⟨i, b, hr⟩ := hsome
  obtain ⟨t', ht', hbegan⟩ := hrunning i b hr
  obtain rfl := Option.some.inj (ht'.symm.trans ht)
  obtain ⟨j, htakes⟩ := (hbegan.gtid_iff id).1 hid
  exact ⟨i, b, j, hr, hbegan, htakes, exists_announcedDirectly_iff htakes⟩

/-- A table map stands between an announcement and its transaction. -/
theorem announced_directly_iff_mapped :
    let t : Table := ⟨7, "a", "shop", [⟨"x", .long, true, 0⟩], ["x"]⟩
    let h (n : Int64) : EventHeader := ⟨n, n * 10, 1, .plain "bin.1" n.toUInt64 0⟩
    let es : List LogEvent := [.gtid (h 1) "u:5", .tableMap (h 2) t, .query (h 3) "shop" "BEGIN",
      .writeRows (h 4) 7 [[.long 1]]]
    let m := new default (.ofCapacity 4)
    ∃ x x' j, ((m.upTo es 3).map (.writeRows (h 4) 7 [[.long 1]])).1 = .ok [.row x] ∧
      x.context.transaction = some x' ∧ x'.gtid = some "u:5" ∧
      x'.BeganAt es 2 (.query (h 3) "shop" "BEGIN") ∧ AnnouncedDirectly es 2 j "u:5" := by
  intro t h es m
  obtain ⟨htaken, hdirect⟩ := announced_directly_iff m es
  rw [reset_new] at htaken
  have hplaces : ∀ j < 4, ∀ a ∈ es[j]?, a.announced?.isSome = true → j = 0 := by decide
  have hacting : ∀ k < 4, ∀ e ∈ es[k]?, e.acts = true → k = 2 ∨ k = 3 := by decide
  have hbegin : ∀ i < 4, ∀ b ∈ es[i]?, b.begins = true → i = 2 := by decide +kernel
  have hnext : AnnouncedForNext es := by
    intro j a ha hid k e hjk he hacts hidle
    obtain rfl := hplaces j (List.getElem?_eq_some_iff.1 ha).1 a ha hid
    rcases hacting k (List.getElem?_eq_some_iff.1 he).1 e he hacts with rfl | rfl
    · cases he
      decide +kernel
    · cases hidle 2 (by decide) (by decide) _ rfl
  have hread : ∃ x x', ((m.upTo es 3).map (.writeRows (h 4) 7 [[.long 1]])).1 =
      .ok [.row x] ∧ x.context.transaction = some x' ∧ x'.gtid = some "u:5" :=
    ⟨_, _, rfl, rfl, rfl⟩
  obtain ⟨x, x', hok, hx', hid⟩ := hread
  obtain ⟨i, b, j, hrunning, hbegan, htakes, -⟩ :=
    htaken 3 _ _ x x' "u:5" rfl hok List.mem_cons_self hx' hid
  have hb := hrunning.last.here
  obtain rfl := hbegin i (List.getElem?_eq_some_iff.1 hb).1 b hb hrunning.begins
  cases hb
  exact ⟨x, x', j, hok, hx', hid, hbegan, hdirect hnext 2 j "u:5" htakes⟩

/-- An id is announced for a table that is created, and a transaction without an announcement of its
own follows. -/
theorem takes_id_of_other :
    let t : Table := ⟨7, "a", "shop", [⟨"x", .long, true, 0⟩], ["x"]⟩
    let h (n : Int64) : EventHeader := ⟨n, n * 10, 1, .plain "bin.1" n.toUInt64 0⟩
    let es : List LogEvent := [.gtid (h 1) "u:5", .query (h 2) "shop" "CREATE TABLE b (x INT)",
      .query (h 3) "shop" "BEGIN", .tableMap (h 4) t, .writeRows (h 5) 7 [[.long 1]]]
    let m := new default (.ofCapacity 4)
    (∃ x x', ((m.upTo es 4).map (.writeRows (h 5) 7 [[.long 1]])).1 = .ok [.row x] ∧
      x.context.transaction = some x' ∧ x'.gtid = some "u:5") ∧
      ∀ i j id, ¬AnnouncedDirectly es i j id := by
  intro t h es m
  refine ⟨⟨_, _, rfl, rfl, rfl⟩, fun i j id hdirect => ?_⟩
  obtain ⟨b, hb, hbegins⟩ := hdirect.begins
  obtain ⟨a, ha, hid⟩ := hdirect.announced
  have hlt : i < 5 := (List.getElem?_eq_some_iff.1 hb).1
  have hi : ∀ i < 5, ∀ b ∈ es[i]?, b.begins = true → i = 2 := by decide +kernel
  have hj : ∀ j < 5, ∀ a ∈ es[j]?, a.announced?.isSome = true → j = 0 := by decide
  obtain rfl := hi i hlt b hb hbegins
  obtain rfl := hj j (Nat.lt_trans hdirect.before hlt) a ha (by rw [hid]; rfl)
  cases hdirect.idle 1 (by decide) (by decide) _ rfl

end Mapper

end ChangeFeed
