import ChangeFeed.Proofs.Source.Attempt
import ChangeFeed.Proofs.Source.Playing

/-!
# A source is blind to tables that it does not follow

Two attempts side by side: one reads a stream, the other reads what is left of the stream when
everything about tables that are not listed is deleted (`thin`).

**Deleted events** (`LogEvent.isUnlisted`). Table maps of tables that are not listed, and events
with rows whose number such a table had last, or no table at all. Which table had a number last
depends on the events before, deleted ones included, so numbers may move from table to table.

**The relation** (`Blind`). The filter of the first attempt knows exactly the numbers that listed
tables had last. That of the second one knows them too. It may know more numbers, but an event that
names one of those was deleted. Nothing else differs.

Main result: `blind_to_unlisted_tables`.
-/

namespace ChangeFeed

/-! ## Deleting -/

/-- Is the table among the listed ones? -/
def isListed (tables : List String) (t : Table) : Bool :=
  (tables.map Text.trim).contains t.canonicalName

/-- Is the event about a table that is not listed, given the events before it? -/
def LogEvent.isUnlisted (tables : List String) (before : List LogEvent) : LogEvent → Bool
  | .tableMap _ t => !isListed tables t
  | .writeRows _ id _ | .updateRows _ id _ | .deleteRows _ id _ =>
    !(lastTable id before).any (isListed tables)
  | _ => false

namespace NextEvent

/-- Is the answer an event about a table that is not listed? -/
def isUnlisted (tables : List String) (before : List LogEvent) (a : NextEvent) : Bool :=
  a.event?.any (·.isUnlisted tables before)

end NextEvent

/-- What is left of answers when the events about tables that are not listed are deleted. -/
def thin (tables : List String) : List LogEvent → List NextEvent → List NextEvent
  | _, [] => []
  | before, a :: as =>
    let rest := thin tables (before ++ a.event?.toList) as
    if a.isUnlisted tables before then rest else a :: rest

section Thin

variable {tables : List String} {before : List LogEvent} {a : NextEvent}

theorem thin_cons_of_unlisted (h : a.isUnlisted tables before = true) (as : List NextEvent) :
    thin tables before (a :: as) = thin tables (before ++ a.event?.toList) as :=
  if_pos h

theorem thin_cons_of_not (h : a.isUnlisted tables before = false) (as : List NextEvent) :
    thin tables before (a :: as) = a :: thin tables (before ++ a.event?.toList) as :=
  if_neg (Bool.eq_false_iff.1 h)

end Thin

/-! ## The relation of the filters -/

theorem lastTable_tableMap (id : Int64) (es : List LogEvent) (header : EventHeader) (t : Table) :
    lastTable id (es ++ [.tableMap header t]) = if id = t.id then some t else lastTable id es := by
  split
  · rename_i hid
    exact lastTable_of_maps (hid ▸ LogEvent.maps?_tableMap header t) es
  · rename_i hid
    exact lastTable_of_not_maps (LogEvent.maps?_of_ne hid) es

/-- The first filter knows the numbers of listed tables after some events; the second one knows
them after the same events without those about other tables. -/
structure Blind (tables : List String) (before : List LogEvent) (f g : TableFilter) : Prop where
  names : f.tables = tables.map Text.trim
  same : g.tables = f.tables
  ids : ∀ id, id ∈ f.ids ↔ (lastTable id before).any (isListed tables) = true
  more : ∀ id ∈ f.ids, id ∈ g.ids

namespace Blind

variable {tables : List String} {before : List LogEvent} {f g : TableFilter} {e : LogEvent}

theorem start (tables : List String) :
    Blind tables [] (.ofNames tables) (.ofNames tables) where
  names := rfl
  same := rfl
  ids := fun _ => ⟨nofun, nofun⟩
  more := fun _ h => h

theorem isEmpty_eq (h : Blind tables before f g) (hne : tables ≠ []) :
    f.tables.isEmpty = false := by
  rw [h.names]
  cases tables with
  | nil => exact absurd rfl hne
  | cons t ts => rfl

theorem follows_eq (h : Blind tables before f g) (hne : tables ≠ []) (t : Table) :
    f.follows t = isListed tables t := by
  rw [TableFilter.follows, h.isEmpty_eq hne, Bool.false_or, h.names]
  rfl

/-- The first filter lets through exactly what is not deleted. -/
theorem passes_eq (h : Blind tables before f g) (hne : tables ≠ []) :
    f.passes e = !e.isUnlisted tables before := by
  have hids : ∀ id, f.ids.contains id = (lastTable id before).any (isListed tables) := by
    intro id
    rw [Bool.eq_iff_iff, List.contains_iff_mem, h.ids id]
  unfold TableFilter.passes
  rw [h.isEmpty_eq hne, Bool.false_or]
  cases e with
  | tableMap header t => rw [LogEvent.isUnlisted, Bool.not_not, isListed, ← h.names]
  | writeRows header id rows =>
    rw [LogEvent.isUnlisted, Bool.not_not]
    exact hids id
  | updateRows header id rows =>
    rw [LogEvent.isUnlisted, Bool.not_not]
    exact hids id
  | deleteRows header id rows =>
    rw [LogEvent.isUnlisted, Bool.not_not]
    exact hids id
  | _ => rfl

/-- The second filter lets through what is not deleted. -/
theorem passes_of_listed (h : Blind tables before f g) (hne : tables ≠ [])
    (he : e.isUnlisted tables before = false) : g.passes e = f.passes e := by
  have hpasses := h.passes_eq hne (e := e)
  rw [he, Bool.not_false] at hpasses
  have hempty := h.isEmpty_eq hne
  have hids : ∀ id, f.ids.contains id = true → g.ids.contains id = true :=
    fun id hid => List.contains_iff_mem.2 (h.more id (List.contains_iff_mem.1 hid))
  rw [hpasses]
  unfold TableFilter.passes at hpasses ⊢
  rw [hempty, Bool.false_or] at hpasses
  rw [h.same, hempty, Bool.false_or]
  cases e with
  | tableMap header t => exact hpasses
  | writeRows header id rows => exact hids id hpasses
  | updateRows header id rows => exact hids id hpasses
  | deleteRows header id rows => exact hids id hpasses
  | _ => rfl

theorem ids_after (h : Blind tables before f g) (hne : tables ≠ []) (id : Int64) :
    id ∈ (f.after e).ids ↔ (lastTable id (before ++ [e])).any (isListed tables) = true := by
  cases e with
  | tableMap header t =>
    rw [TableFilter.mem_ids_after (h.isEmpty_eq hne), lastTable_tableMap, h.follows_eq hne]
    split
    · rw [Option.any_some]
    · exact h.ids id
  | _ =>
    rw [lastTable_of_not_maps rfl]
    exact h.ids id

/-- A deleted event can only take numbers away from the first filter. -/
theorem after_unlisted (h : Blind tables before f g) (hne : tables ≠ [])
    (he : e.isUnlisted tables before = true) : Blind tables (before ++ [e]) (f.after e) g where
  names := (f.tables_after e).trans h.names
  same := h.same.trans (f.tables_after e).symm
  ids := h.ids_after hne
  more := by
    intro id hid
    cases e with
    | tableMap header t =>
      have hnot : f.follows t = false := (h.follows_eq hne t).trans (by
        simpa [LogEvent.isUnlisted] using he)
      rw [TableFilter.mem_ids_after (h.isEmpty_eq hne), hnot] at hid
      split at hid
      · cases hid
      · exact h.more id hid
    | _ => exact h.more id hid

theorem after_listed (h : Blind tables before f g) (hne : tables ≠ []) :
    Blind tables (before ++ [e]) (f.after e) (g.after e) where
  names := (f.tables_after e).trans h.names
  same := by rw [TableFilter.tables_after, TableFilter.tables_after, h.same]
  ids := h.ids_after hne
  more := by
    intro id hid
    have hempty := h.isEmpty_eq hne
    cases e with
    | tableMap header t =>
      rw [TableFilter.mem_ids_after hempty] at hid
      rw [TableFilter.mem_ids_after (h.same ▸ hempty)]
      split
      · rename_i hid'
        rw [if_pos hid'] at hid
        rwa [TableFilter.follows, h.same]
      · rename_i hid'
        rw [if_neg hid'] at hid
        exact h.more id hid
    | _ => exact h.more id hid

end Blind

/-! ## Side by side -/

namespace Source

variable {ι σ ω : Type} {client : LogClient ω} {audience : SourceAudience ι ω}
  {tables : List String} {before : List LogEvent}

theorem passesAnswer_of_not_unlisted {f g : TableFilter} (h : Blind tables before f g)
    (hne : tables ≠ []) {a : NextEvent} (ha : a.isUnlisted tables before = false) :
    passesAnswer g a = passesAnswer f a := by
  cases a with
  | event e => exact h.passes_of_listed hne ha
  | _ => rfl

theorem blind_tablesAfter {f g : TableFilter} (h : Blind tables before f g) (hne : tables ≠ [])
    (a : NextEvent) :
    Blind tables (before ++ a.event?.toList) (tablesAfter f a) (tablesAfter g a) := by
  cases a with
  | event e => exact h.after_listed hne
  | _ => simpa [NextEvent.event?, tablesAfter] using h

/-- What two attempts have in common after one read answers and the other one read the same answers
without those about tables that are not listed. `taken` are the answers that the first one took. If
it stopped, then on an answer that both took. -/
structure Agree (tables : List String) (before : List LogEvent) (s : Source ι σ)
    (answers : List NextEvent) (full thinned : Source ι σ × List NextEvent × ω) : Prop where
  world : thinned.2.2 = full.2.2
  source : ∃ f, thinned.1 = full.1.withTables f
  place : ∃ taken, answers = taken ++ full.2.1 ∧
    thinned.2.1 = thin tables (before ++ taken.filterMap NextEvent.event?) full.2.1 ∧
    (full.1.connection = s.connection ∨ ∃ init a, taken = init ++ [a] ∧
      thin tables before taken = thin tables before init ++ [a])

theorem agree_rest (s : Source ι σ) (f : TableFilter) (as : List NextEvent) (w : ω) :
    Agree tables before s as (s, as, w) (s.withTables f, thin tables before as, w) where
  world := rfl
  source := ⟨f, rfl⟩
  place := ⟨[], rfl, by simp, Or.inl rfl⟩

/-- One more answer was read before, by the first attempt and if it is not deleted by the second
one. -/
theorem Agree.cons {s s₁ : Source ι σ} {a : NextEvent} {as : List NextEvent}
    {full thinned : Source ι σ × List NextEvent × ω}
    (h : Agree tables (before ++ a.event?.toList) s₁ as full thinned)
    (hkept : a.isUnlisted tables before = true → s₁.connection = s.connection)
    (hstop : s₁.connection ≠ s.connection → full.2.1 = as) :
    Agree tables before s (a :: as) full thinned := by
  refine ⟨h.world, h.source, ?_⟩
  obtain ⟨taken, htaken, hleft, hend⟩ := h.place
  refine ⟨a :: taken, by rw [htaken, List.cons_append], ?_, ?_⟩
  · rw [hleft, List.filterMap_cons, List.append_assoc]
    cases a.event? <;> rfl
  · cases ha : a.isUnlisted tables before with
    | true =>
      rcases hend with hc | ⟨init, b, rfl, hb⟩
      · exact Or.inl (hc.trans (hkept ha))
      · refine Or.inr ⟨a :: init, b, rfl, ?_⟩
        rw [thin_cons_of_unlisted ha, thin_cons_of_unlisted ha, hb]
    | false =>
      rcases hend with hc | ⟨init, b, rfl, hb⟩
      · by_cases hsame : s₁.connection = s.connection
        · exact Or.inl (hc.trans hsame)
        · -- The attempt stopped on this answer and took no more.
          have hnil : taken = [] := by
            have hlen := congrArg List.length htaken
            rw [hstop hsame, List.length_append] at hlen
            exact List.length_eq_zero_iff.1 (by omega)
          subst hnil
          exact Or.inr ⟨[], a, rfl, thin_cons_of_not ha []⟩
      · refine Or.inr ⟨a :: init, b, rfl, ?_⟩
        rw [thin_cons_of_not ha, thin_cons_of_not ha, hb]
        rfl

theorem agree_run (hne : tables ≠ []) {s : Source ι σ} {f : TableFilter}
    (hblind : Blind tables before s.reader.tables f) (seen rest : List NextEvent) (w : ω) :
    Agree tables before s (seen ++ rest)
      (run client.playing audience.aside seen.length s (seen ++ rest, w))
      (run client.playing audience.aside (thin tables before seen).length (s.withTables f)
        (thin tables before (seen ++ rest), w)) := by
  induction seen generalizing before s f w with
  | nil => exact agree_rest s f rest w
  | cons a seen ih =>
    by_cases hs : s.connection = .reading
    · rw [List.cons_append, List.length_cons, run_playing_cons hs]
      cases ha : a.isUnlisted tables before with
      | true =>
        -- The first attempt holds the event back, the second one never sees it.
        obtain ⟨e, rfl⟩ : ∃ e, a = .event e := by
          cases a with
          | event e => exact ⟨e, rfl⟩
          | _ => cases ha
        have he : e.isUnlisted tables before = true := ha
        have hpass : s.reader.tables.passes e = false := by rw [hblind.passes_eq hne, he]; rfl
        have hear := hear_of_not_passes client audience hpass w
        have hsame : s.withTables f =
            (s.withTables (s.reader.tables.after e)).withTables f := rfl
        rw [thin_cons_of_unlisted ha, thin_cons_of_unlisted ha, hear, hsame]
        exact (ih (hblind.after_unlisted hne he) w).cons (fun _ => rfl) (fun h => absurd rfl h)
      | false =>
        have hear := hear_withTables client audience
          (passesAnswer_of_not_unlisted hblind hne ha) w
        have hafter := blind_tablesAfter hblind hne a
        rw [← tables_hear client audience a s w] at hafter
        have hs' : (s.withTables f).connection = .reading := hs
        rw [thin_cons_of_not ha, thin_cons_of_not ha, List.length_cons, run_playing_cons hs', hear]
        refine (ih hafter _).cons (fun h => ?_) (fun h => ?_)
        · rw [ha] at h
          cases h
        · rw [run_of_not_reading (fun hr => h (hr.trans hs.symm))]
    · rw [run_of_not_reading hs, run_of_not_reading (show (s.withTables f).connection ≠ _ from hs)]
      exact agree_rest s f _ w

/-! ## Blindness -/

/-- **A source is blind to tables that it does not follow.** Take an attempt of a source with a list
of tables, and a stream for it to read. After each part of the stream, the attempt that reads the
stream without the events about other tables has made the same calls to the listeners, in the same
order, and the source is the same but for the numbers that the filter of tables remembers: the same
complaints and failures were counted, the same schemas are cached in the same order, and the
attempt goes on, or stopped on the same answer. -/
theorem blind_to_unlisted_tables (client : LogClient ω) (audience : SourceAudience ι ω)
    {store : Store σ} {s s₀ : Source ι σ} {w w₀ : ω}
    (hrest : s.isStarted = false) (hlist : s.tables ≠ [])
    (hopen : s.openFeed client store w = (.ok (), s₀, w₀)) (seen rest : List NextEvent) :
    let full := run client.playing audience.aside seen.length s₀ (seen ++ rest, w₀)
    let thinned := run client.playing audience.aside (thin s.tables [] seen).length s₀
      (thin s.tables [] (seen ++ rest), w₀)
    thinned.2.2 = full.2.2 ∧
      thinned.1 = { full.1 with
        reader := { full.1.reader with tables := thinned.1.reader.tables } } ∧
      ∃ taken, seen ++ rest = taken ++ full.2.1 ∧
        thinned.2.1 = thin s.tables (taken.filterMap NextEvent.event?) full.2.1 ∧
        (full.1.connection = .reading ∨ ∃ init a, taken = init ++ [a] ∧
          thin s.tables [] taken = thin s.tables [] init ++ [a]) := by
  intro full thinned
  obtain ⟨p, hbegun⟩ := begun_of_openFeed hrest hopen
  have hblind : Blind s.tables [] s₀.reader.tables s₀.reader.tables := by
    rw [hbegun.reader]
    exact Blind.start s.tables
  have hagree : Agree s.tables [] s₀ (seen ++ rest) full thinned :=
    agree_run hlist hblind seen rest w₀
  obtain ⟨hworld, ⟨f, hf⟩, hplace⟩ := hagree
  refine ⟨hworld, ?_, ?_⟩
  · rw [hf]
    rfl
  · rwa [hbegun.connection] at hplace

/-- A number goes from a listed table to another one and back. Of six events four are left, and the
listeners hear of the same ones. -/
theorem blind_to_unlisted_tables_moved :
    let client : LogClient (List LogEvent) := ⟨fun _ w => (.ok (), w), fun w => (.nothing, w), id⟩
    let audience : SourceAudience Unit (List LogEvent) :=
      ⟨fun _ e w => w ++ [e], fun _ _ w => (.accepted, w), fun _ _ w => w⟩
    let s : Source Unit Memory :=
      { name := "shop", tables := [" shop.a"], initialPosition := default, stored := .empty,
        history := ⟨"shop", 1, []⟩, saved := none, failures := 0, violations := 0,
        reader := default, connection := .idle, listeners := ⟨[()], by decide⟩ }
    let map (name : String) : NextEvent := .event (.tableMap default ⟨7, name, "shop", [], []⟩)
    let rows : NextEvent := .event (.deleteRows default 7 [[.null]])
    let stream := [map "a", rows, map "b", rows, map "a", rows]
    ∃ s₀ w₀, s.openFeed client .memory [] = (.ok (), s₀, w₀) ∧
      thin s.tables [] stream = [map "a", rows, map "a", rows] ∧
      (run client.playing audience.aside 4 s₀ ([map "a", rows, map "a", rows], w₀)).2.2 =
        (run client.playing audience.aside 6 s₀ (stream, w₀)).2.2 := by
  intro client audience s map rows stream
  have hthin : thin s.tables [] stream = [map "a", rows, map "a", rows] := by rfl
  refine ⟨_, _, rfl, hthin, ?_⟩
  have hblind := blind_to_unlisted_tables client audience (show s.isStarted = false from rfl)
    (List.cons_ne_nil _ _) (show s.openFeed client .memory [] = (.ok (), _, _) from rfl) stream []
  rw [List.append_nil, hthin] at hblind
  exact hblind.1

end Source

end ChangeFeed
