import ChangeFeed.Source.Basic
import Mathlib.Tactic.Common

/-!
# Attempts on a given stream

What an attempt makes of answers that are given beforehand.

**Clients** (`LogClient.playing`). A client that takes its answers from a list stands beside another
one: connections are those of the other client, and listeners do not touch the list.

**One answer** (`Source.hear`). What a turn makes of the answer that it gets. A run on a list of
answers hears one after the other until the source no longer reads (`run_playing_cons`,
`run_of_not_reading`).

**The filter of tables** (`Source.withTables`). It decides which events get through and nothing
else, so sources that differ in it alone go on to differ in it alone.

Main results: `run_playing_cons`, `hear_withTables` and `begun_of_openFeed`.
-/

namespace ChangeFeed

variable {ι σ ω ν : Type}

/-! ## Two worlds -/

/-- The client that acts on the second of two worlds. -/
def LogClient.aside (client : LogClient ω) : LogClient (ν × ω) where
  connect p x := ((client.connect p x.2).1, (x.1, (client.connect p x.2).2))
  next x := ((client.next x.2).1, (x.1, (client.next x.2).2))
  disconnect x := (x.1, client.disconnect x.2)

/-- The event of an answer, if it is one. -/
def NextEvent.event? : NextEvent → Option LogEvent
  | .event e => some e
  | _ => none

/-- The client that takes its answers from a list. When the list is used up nothing more comes. -/
def LogClient.playing (client : LogClient ω) : LogClient (List NextEvent × ω) :=
  { client.aside with
    next := fun x =>
      match x.1 with
      | [] => (.nothing, x)
      | a :: as => (a, (as, x.2)) }

/-- The listeners that act on the second of two worlds. -/
def SourceAudience.aside (audience : SourceAudience ι ω) : SourceAudience ι (ν × ω) where
  onEvent l e x := (x.1, audience.onEvent l e x.2)
  onMutations l ms x :=
    ((audience.onMutations l ms x.2).1, (x.1, (audience.onMutations l ms x.2).2))
  onError l e x := (x.1, audience.onError l e x.2)

namespace Listeners

theorem tell_aside (s : Listeners ι) (f : ι → ω → ω) (x : ν) (w : ω) :
    s.tell (fun l (y : ν × ω) => (y.1, f l y.2)) (x, w) = (x, s.tell f w) := by
  unfold tell
  induction s.members generalizing w with
  | nil => rfl
  | cons l ls ih => exact ih (f l w)

theorem askEach_aside (f : ι → ω → Verdict × ω) (ls : List ι) (x : ν) (w : ω) :
    askEach (fun l (y : ν × ω) => ((f l y.2).1, (y.1, (f l y.2).2))) ls (x, w) =
      ((askEach f ls w).1, (x, (askEach f ls w).2)) := by
  induction ls generalizing w with
  | nil => rfl
  | cons l ls ih =>
    simp only [askEach]
    cases hl : f l w with
    | mk v w' =>
      cases v with
      | accepted => exact ih w'
      | refused e => rfl
      | crashed => rfl

theorem ask_aside (s : Listeners ι) (f : ι → ω → Verdict × ω) (x : ν) (w : ω) :
    s.ask (fun l (y : ν × ω) => ((f l y.2).1, (y.1, (f l y.2).2))) (x, w) =
      ((s.ask f w).1, (x, (s.ask f w).2)) :=
  askEach_aside f s.members x w

end Listeners

namespace Source

variable {client : LogClient ω} {audience : SourceAudience ι ω}

/-! ## One answer -/

/-- What a turn of the reading thread makes of an answer. -/
def hear (client : LogClient ω) (audience : SourceAudience ι ω) (a : NextEvent) (s : Source ι σ)
    (w : ω) : Source ι σ × ω :=
  match a with
  | .nothing => (s, w)
  | .failed e => s.stopOn client audience e w
  | .crashed => ({ s with connection := .crashed }, w)
  | .event e => hand client audience (s.heed e).1 (s.heed e).2 w

theorem stopOn_playing (e : Error) (s : Source ι σ) (as : List NextEvent) (w : ω) :
    s.stopOn client.playing audience.aside e (as, w) =
      ((s.stopOn client audience e w).1, (as, (s.stopOn client audience e w).2)) := by
  unfold stopOn
  exact congrArg (fun x => (s.fail e, client.playing.disconnect x))
    (s.listeners.tell_aside (fun l => audience.onError l e) as w)

theorem hand_playing (g : Reading) (s : Source ι σ) (as : List NextEvent) (w : ω) :
    hand client.playing audience.aside g s (as, w) =
      ((hand client audience g s w).1, (as, (hand client audience g s w).2)) := by
  unfold hand
  cases g.event with
  | none => rfl
  | some e =>
    have htell := s.listeners.tell_aside (fun l => audience.onEvent l e) as w
    simp only [SourceAudience.aside] at htell ⊢
    rw [htell]
    generalize s.listeners.tell _ w = w'
    cases g.mutations with
    | error f => exact stopOn_playing f s as w'
    | ok ms =>
      cases ms with
      | nil => rfl
      | cons m ms =>
        have hask := s.listeners.ask_aside (fun l => audience.onMutations l (m :: ms)) as w'
        simp only at hask ⊢
        rw [hask]
        cases ha : s.listeners.ask (fun l => audience.onMutations l (m :: ms)) w' with
        | mk v w'' =>
          cases v with
          | accepted => rfl
          | refused f => exact stopOn_playing f s as w''
          | crashed => rfl

theorem step_playing {s : Source ι σ} (hs : s.connection = .reading) (a : NextEvent)
    (as : List NextEvent) (w : ω) : s.step client.playing audience.aside (a :: as, w) =
      ((s.hear client audience a w).1, (as, (s.hear client audience a w).2)) := by
  unfold step
  rw [if_pos hs]
  cases a with
  | nothing => rfl
  | failed e => exact stopOn_playing e s as w
  | crashed => rfl
  | event e => exact hand_playing (s.heed e).1 (s.heed e).2 as w

/-- A source that reads hears the next answer. -/
theorem run_playing_cons {s : Source ι σ} (hs : s.connection = .reading) (a : NextEvent)
    (as : List NextEvent) (w : ω) (n : Nat) :
    run client.playing audience.aside (n + 1) s (a :: as, w) =
      run client.playing audience.aside n (s.hear client audience a w).1
        (as, (s.hear client audience a w).2) := by
  rw [run, step_playing hs]

theorem run_of_not_reading {s : Source ι σ} (hs : s.connection ≠ .reading) (n : Nat) (w : ω) :
    run client audience n s w = (s, w) := by
  induction n with
  | zero => rfl
  | succ n ih =>
    have hstep : s.step client audience w = (s, w) := if_neg hs
    rw [run, hstep]
    exact ih

/-! ## What an answer leaves alone -/

theorem fail_eq (e : Error) (s : Source ι σ) :
    ∃ n, s.fail e = { s with failures := n, connection := .ended } := by
  unfold fail countFailure
  split
  · exact ⟨_, rfl⟩
  · exact ⟨_, rfl⟩

/-- Handing over what became of an event can end the attempt and does nothing else to a source. -/
theorem hand_eq (client : LogClient ω) (audience : SourceAudience ι ω) (g : Reading)
    (s : Source ι σ) (w : ω) :
    ∃ n c, (hand client audience g s w).1 = { s with failures := n, connection := c } := by
  have hstop : ∀ f w, ∃ n c, (s.stopOn client audience f w).1 =
      { s with failures := n, connection := c } := by
    intro f w
    obtain ⟨n, hn⟩ := fail_eq f s
    exact ⟨n, _, hn⟩
  unfold hand
  split
  · exact ⟨_, _, rfl⟩
  · simp only
    split
    · exact hstop _ _
    · exact ⟨_, _, rfl⟩
    · split
      · exact ⟨_, _, rfl⟩
      · exact hstop _ _
      · exact ⟨_, _, rfl⟩

/-! ## The filter of tables -/

/-- The source with another filter of tables. -/
def withTables (f : TableFilter) (s : Source ι σ) : Source ι σ :=
  { s with reader := { s.reader with tables := f } }

theorem fail_withTables (f : TableFilter) (e : Error) (s : Source ι σ) :
    (s.withTables f).fail e = (s.fail e).withTables f := by
  unfold fail countFailure
  split <;> rfl

theorem stopOn_withTables (f : TableFilter) (e : Error) (s : Source ι σ) (w : ω) :
    (s.withTables f).stopOn client audience e w =
      ((s.stopOn client audience e w).1.withTables f, (s.stopOn client audience e w).2) := by
  unfold stopOn
  rw [fail_withTables]
  rfl

theorem hand_withTables (f : TableFilter) (g : Reading) (s : Source ι σ) (w : ω) :
    hand client audience g (s.withTables f) w =
      ((hand client audience g s w).1.withTables f, (hand client audience g s w).2) := by
  have hlisteners : (s.withTables f).listeners = s.listeners := rfl
  unfold hand
  cases g.event with
  | none => rfl
  | some e =>
    simp only [hlisteners]
    generalize s.listeners.tell _ w = w'
    cases g.mutations with
    | error e => exact stopOn_withTables f e s w'
    | ok ms =>
      cases ms with
      | nil => rfl
      | cons m ms =>
        simp only
        cases s.listeners.ask (fun l => audience.onMutations l (m :: ms)) w' with
        | mk v w'' =>
          cases v with
          | accepted => rfl
          | refused e => exact stopOn_withTables f e s w''
          | crashed => rfl

theorem take_withTables (r : Reader) (f : TableFilter) (e : LogEvent) :
    ({ r with tables := f } : Reader).take e =
      ((r.take e).1, { (r.take e).2 with tables := f }) := by
  unfold Reader.take
  simp only
  cases r.mapper.map e with
  | mk result mapper => cases result <;> rfl

/-- A filter that lets the same event through makes no difference but for itself. -/
theorem heed_withTables {f : TableFilter} {s : Source ι σ} {e : LogEvent}
    (h : f.passes e = s.reader.tables.passes e) :
    (s.withTables f).heed e = ((s.heed e).1, (s.heed e).2.withTables (f.after e)) := by
  have hpasses : (s.withTables f).reader.tables.passes e = s.reader.tables.passes e := h
  unfold heed Reader.read
  simp only [hpasses]
  have hduplicates : (s.withTables f).reader.duplicates = s.reader.duplicates := rfl
  rw [hduplicates]
  split
  · have hf := take_withTables s.reader (f.after e) e
    have hs := take_withTables s.reader (s.reader.tables.after e) e
    simp only [withTables, hf, hs]
  · rfl

/-- An event that the filter of tables holds back changes that filter at most. -/
theorem heed_of_not_passes {s : Source ι σ} {e : LogEvent}
    (h : s.reader.tables.passes e = false) :
    s.heed e = (⟨none, 0, .ok []⟩, s.withTables (s.reader.tables.after e)) := by
  unfold heed Reader.read
  simp only [h]
  rfl

theorem hear_of_not_passes (client : LogClient ω) (audience : SourceAudience ι ω)
    {s : Source ι σ} {e : LogEvent} (h : s.reader.tables.passes e = false) (w : ω) :
    s.hear client audience (.event e) w = (s.withTables (s.reader.tables.after e), w) := by
  simp only [hear, heed_of_not_passes h, hand]

theorem tables_heed (s : Source ι σ) (e : LogEvent) :
    (s.heed e).2.reader.tables = s.reader.tables.after e := by
  unfold heed Reader.read Reader.take
  simp only
  split
  · cases s.reader.mapper.map e with
    | mk result mapper => cases result <;> rfl
  · rfl

/-- What the filter of tables is after an answer. -/
def tablesAfter (f : TableFilter) : NextEvent → TableFilter
  | .event e => f.after e
  | _ => f

theorem tables_hear (client : LogClient ω) (audience : SourceAudience ι ω) (a : NextEvent)
    (s : Source ι σ) (w : ω) :
    (s.hear client audience a w).1.reader.tables = tablesAfter s.reader.tables a := by
  cases a with
  | nothing => rfl
  | failed e =>
    obtain ⟨n, hn⟩ := fail_eq e s
    simp only [hear, stopOn, hn, tablesAfter]
  | crashed => rfl
  | event e =>
    obtain ⟨n, c, hn⟩ := hand_eq client audience (s.heed e).1 (s.heed e).2 w
    simp only [hear, hn, tablesAfter, tables_heed]

/-- Does the filter let the answer through? -/
def passesAnswer (f : TableFilter) : NextEvent → Bool
  | .event e => f.passes e
  | _ => true

/-- Sources that differ in the filter of tables alone make the same of an answer that both filters
let through, or neither. -/
theorem hear_withTables (client : LogClient ω) (audience : SourceAudience ι ω) {f : TableFilter}
    {s : Source ι σ} {a : NextEvent} (h : passesAnswer f a = passesAnswer s.reader.tables a)
    (w : ω) :
    (s.withTables f).hear client audience a w =
      ((s.hear client audience a w).1.withTables (tablesAfter f a),
        (s.hear client audience a w).2) := by
  cases a with
  | nothing => rfl
  | failed e => exact stopOn_withTables f e s w
  | crashed => rfl
  | event e =>
    simp only [hear, heed_withTables h]
    exact hand_withTables _ _ _ _

/-! ## The beginning of an attempt -/

theorem rollBack_eq (store : Store σ) (s : Source ι σ) :
    ∃ g t, (s.rollBack store).2 = { s with history := g, stored := t } := by
  unfold rollBack
  simp only
  split
  · exact ⟨_, _, rfl⟩
  · exact ⟨_, _, rfl⟩

theorem startPoint_eq (store : Store σ) (s : Source ι σ) :
    ∃ g t, (s.startPoint store).2 = { s with history := g, stored := t } := by
  have hfirst : ∃ g t, (if s.failures = 0 then
      ((store.readPoint s.stored).map fun p => p.getD s.initialPoint, s)
      else s.rollBack store).2 = { s with history := g, stored := t } := by
    split
    · exact ⟨_, _, rfl⟩
    · exact rollBack_eq store s
  obtain ⟨g, t, hs⟩ := hfirst
  unfold startPoint
  simp only
  split
  · exact ⟨g, t, hs⟩
  · rw [hs]
    split
    · exact ⟨_, _, rfl⟩
    · exact ⟨_, _, rfl⟩

/-- A source as an attempt begins that resumes from a position. -/
structure Begun (s : Source ι σ) (p : LogPosition) (s' : Source ι σ) : Prop where
  saved : s'.saved.map (·.position) = some p
  reader : s'.reader = .start s.tables p s.reader.mapper
  connection : s'.connection = .reading
  tables : s'.tables = s.tables
  listeners : s'.listeners = s.listeners

/-- Opening a source that is at rest begins an attempt if it succeeds. -/
theorem begun_of_openFeed {store : Store σ} {s s' : Source ι σ} {w w' : ω}
    (hrest : s.isStarted = false) (h : s.openFeed client store w = (.ok (), s', w')) :
    ∃ p, s.Begun p s' := by
  have hattempt : s.openFeed client store w =
      attempt client store { s with connection := .idle } w := by
    unfold openFeed
    cases hc : s.connection with
    | reading => simp [isStarted, hc] at hrest
    | crashed => simp [isStarted, hc] at hrest
    | lost => simp [openFeed, hc] at h
    | idle => rfl
    | ended => rfl
  rw [hattempt, attempt] at h
  obtain ⟨g, t, hs⟩ := startPoint_eq store { s with connection := .idle }
  split at h
  · cases h
  · rename_i p s₁ hstart
    rw [hstart] at hs
    obtain rfl : s₁ = _ := hs
    split at h
    · cases h
    · cases h
      exact ⟨p.position, rfl, rfl, rfl, rfl, rfl⟩

end Source

end ChangeFeed
