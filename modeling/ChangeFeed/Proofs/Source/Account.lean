import ChangeFeed.Proofs.Source.Attempt
import ChangeFeed.Proofs.Source.Playing

/-!
# What listeners hear in an attempt

**Notes** (`SourceAudience.noting`). Every call that hands mutations to a listener or tells it of a
failure is noted, whatever the listener does then.

**The account** (`Account`). Mutations that were handed over are those of an event of the stream. As
long as the attempt reads, every listener was handed the mutations of every event that came. When it
no longer reads, every listener was told of the failure, or a thread crashed.

Main result: `account_run`.
-/

namespace ChangeFeed

variable {ι σ ω : Type}

/-! ## Notes -/

/-- What a listener heard. -/
inductive Note (ι : Type) where
  | mutations (l : ι) (ms : List Mutation)
  | error (l : ι) (e : Error)
  deriving DecidableEq

/-- The listeners, with a note of what each of them hears. -/
def SourceAudience.noting (audience : SourceAudience ι ω) :
    SourceAudience ι (List (Note ι) × ω) where
  onEvent l e x := (x.1, audience.onEvent l e x.2)
  onMutations l ms x :=
    ((audience.onMutations l ms x.2).1,
      (x.1 ++ [.mutations l ms], (audience.onMutations l ms x.2).2))
  onError l e x := (x.1 ++ [.error l e], audience.onError l e x.2)

namespace Listeners

theorem notes_tell_event (audience : SourceAudience ι ω) (s : Listeners ι) (e : LogEvent)
    (x : List (Note ι) × ω) : (s.tell (fun l => audience.noting.onEvent l e) x).1 = x.1 := by
  unfold tell
  induction s.members generalizing x with
  | nil => rfl
  | cons l ls ih => exact ih _

theorem notes_tell_error (audience : SourceAudience ι ω) (s : Listeners ι) (e : Error)
    (x : List (Note ι) × ω) : (s.tell (fun l => audience.noting.onError l e) x).1 =
      x.1 ++ s.members.map fun l => .error l e := by
  unfold tell
  induction s.members generalizing x with
  | nil => exact (List.append_nil x.1).symm
  | cons l ls ih =>
    rw [List.foldl_cons, ih, List.map_cons, ← List.singleton_append, ← List.append_assoc]
    rfl

/-- Some of the listeners are asked, all of them if they accept. -/
theorem notes_ask (audience : SourceAudience ι ω) (s : Listeners ι) (ms : List Mutation)
    (x : List (Note ι) × ω) :
    ∃ asked, (s.ask (fun l => audience.noting.onMutations l ms) x).2.1 =
        x.1 ++ asked.map (fun l => .mutations l ms) ∧
      ((s.ask (fun l => audience.noting.onMutations l ms) x).1 = .accepted →
        asked = s.members) := by
  unfold ask
  induction s.members generalizing x with
  | nil => exact ⟨[], (List.append_nil x.1).symm, fun _ => rfl⟩
  | cons l ls ih =>
    simp only [askEach]
    cases hv : (audience.noting.onMutations l ms x) with
    | mk v y =>
      have hy : y.1 = x.1 ++ [.mutations l ms] := congrArg (fun r => r.2.1) hv.symm
      cases v with
      | accepted =>
        obtain ⟨asked, hasked, hall⟩ := ih y
        refine ⟨l :: asked, ?_, fun h => by rw [hall h]⟩
        simp only [hasked, hy, List.map_cons, List.append_assoc, List.singleton_append]
      | refused f => exact ⟨[l], hy, fun h => by cases h⟩
      | crashed => exact ⟨[l], hy, fun h => by cases h⟩

end Listeners

/-! ## One answer -/

namespace Source

/-- What an attempt has come to when it no longer reads: every listener was told of a failure, or a
thread crashed. -/
def Loud (s : Source ι σ) (notes : List (Note ι)) : Prop :=
  s.connection = .crashed ∨
    s.connection = .ended ∧ ∃ f, ∀ l ∈ s.listeners.members, .error l f ∈ notes

theorem Loud.mono {s : Source ι σ} {notes notes' : List (Note ι)} (h : s.Loud notes)
    (hsub : notes ⊆ notes') : s.Loud notes' :=
  h.imp_right fun ⟨hended, f, hf⟩ => ⟨hended, f, fun l hl => hsub (hf l hl)⟩

theorem not_reading_of_loud {s : Source ι σ} {notes : List (Note ι)} (h : s.Loud notes) :
    s.connection ≠ .reading := by
  rcases h with h | ⟨h, -⟩
  · rw [h]
    exact nofun
  · rw [h]
    exact nofun

/-- What is noted when a source hears an answer. -/
structure HearNotes (s : Source ι σ) (a : NextEvent) (notes : List (Note ι)) (s' : Source ι σ) :
    Prop where
  origin : ∀ l ms, .mutations l ms ∈ notes →
    ∃ e, a = .event e ∧ (s.reader.read e).1.mutations = .ok ms
  handed : s'.connection = .reading → ∀ e, a = .event e →
    ∃ ms, (s.reader.read e).1.mutations = .ok ms ∧
      ∀ l ∈ s.listeners.members, ms = [] ∨ .mutations l ms ∈ notes
  loud : s'.connection ≠ .reading → s'.Loud notes

theorem HearNotes.of_loud {s s' : Source ι σ} {a : NextEvent} {notes : List (Note ι)}
    (hloud : s'.Loud notes) (horigin : ∀ l ms, .mutations l ms ∈ notes →
      ∃ e, a = .event e ∧ (s.reader.read e).1.mutations = .ok ms) : s.HearNotes a notes s' where
  origin := horigin
  handed := fun hr => absurd hr (not_reading_of_loud hloud)
  loud := fun _ => hloud

theorem mutations_not_mem_errors {l : ι} {ms : List Mutation} (ls : List ι) (f : Error) :
    Note.mutations l ms ∉ ls.map fun l => .error l f := by
  intro h
  obtain ⟨j, -, hj⟩ := List.mem_map.1 h
  cases hj

theorem notes_stopOn (client : LogClient ω) (audience : SourceAudience ι ω) (s : Source ι σ)
    (f : Error) (x : List (Note ι) × ω) :
    (s.stopOn client.aside audience.noting f x).2.1 =
        x.1 ++ s.listeners.members.map (fun l => .error l f) ∧
      (s.stopOn client.aside audience.noting f x).1.Loud
        (s.listeners.members.map fun l => .error l f) := by
  obtain ⟨n, hn⟩ := fail_eq f s
  refine ⟨s.listeners.notes_tell_error audience f x, Or.inr ?_⟩
  simp only [stopOn, hn]
  exact ⟨trivial, f, fun l hl => List.mem_map_of_mem hl⟩

/-- Handing over what became of an event: what is noted is the mutations, and the failure if it ends
the attempt. -/
theorem notes_hand (client : LogClient ω) (audience : SourceAudience ι ω) (s₀ : Source ι σ)
    {s : Source ι σ} (e : LogEvent) (hs : s.connection = .reading)
    (hlisteners : s.listeners = s₀.listeners) (x : List (Note ι) × ω) :
    ∃ notes, (hand client.aside audience.noting (s₀.reader.read e).1 s x).2.1 = x.1 ++ notes ∧
      HearNotes s₀ (.event e) notes
        (hand client.aside audience.noting (s₀.reader.read e).1 s x).1 := by
  -- Without mutations there is nothing to hand over.
  have hquiet : ∀ {ms}, (s₀.reader.read e).1.mutations = .ok ms → ms = [] →
      HearNotes s₀ (.event e) [] s := by
    rintro ms hms rfl
    refine ⟨fun l ms h => absurd h List.not_mem_nil, fun _ e' he => ?_, fun h => absurd hs h⟩
    cases he
    exact ⟨[], hms, fun l hl => Or.inl rfl⟩
  unfold hand
  cases hevent : (s₀.reader.read e).1.event with
  | none =>
    have hms := Reader.mutations_of_event_none hevent
    exact ⟨[], (List.append_nil _).symm, hquiet hms rfl⟩
  | some e' =>
    simp only
    have htell := s.listeners.notes_tell_event audience e' x
    generalize s.listeners.tell _ x = y at htell
    rw [← htell]
    cases hms : (s₀.reader.read e).1.mutations with
    | error f =>
      obtain ⟨hnotes, hloud⟩ := notes_stopOn client audience s f y
      exact ⟨_, hnotes, .of_loud hloud fun l ms h => absurd h (mutations_not_mem_errors _ f)⟩
    | ok ms =>
      cases ms with
      | nil => exact ⟨[], (List.append_nil _).symm, hquiet hms rfl⟩
      | cons m ms =>
        -- Some listeners are asked, and all of them if nobody refuses.
        obtain ⟨asked, hasked, hall⟩ := s.listeners.notes_ask audience (m :: ms) y
        have horigin : ∀ l ns, Note.mutations l ns ∈ asked.map (fun l => .mutations l (m :: ms)) →
            ∃ e', NextEvent.event e = .event e' ∧ (s₀.reader.read e').1.mutations = .ok ns := by
          intro l ns h
          obtain ⟨j, -, hj⟩ := List.mem_map.1 h
          cases hj
          exact ⟨e, rfl, hms⟩
        simp only
        cases hask : s.listeners.ask (fun l => audience.noting.onMutations l (m :: ms)) y with
        | mk v z =>
          rw [hask] at hasked hall
          cases v with
          | accepted =>
            refine ⟨_, hasked, horigin, fun _ e' he => ?_, fun h => absurd hs h⟩
            cases he
            refine ⟨m :: ms, hms, fun l hl => Or.inr ?_⟩
            rw [hall rfl, hlisteners]
            exact List.mem_map_of_mem hl
          | refused f =>
            obtain ⟨hnotes, hloud⟩ := notes_stopOn client audience s f z
            have hz : z.1 = y.1 ++ asked.map fun l => .mutations l (m :: ms) := hasked
            refine ⟨asked.map (fun l => .mutations l (m :: ms)) ++
                s.listeners.members.map (fun l => .error l f), ?_,
              .of_loud (hloud.mono (List.subset_append_right _ _)) fun l ns h => ?_⟩
            · rw [hnotes, hz, List.append_assoc]
            rcases List.mem_append.1 h with h | h
            · exact horigin l ns h
            · exact absurd h (mutations_not_mem_errors _ f)
          | crashed => exact ⟨_, hasked, .of_loud (Or.inl rfl) horigin⟩

theorem notes_hear (client : LogClient ω) (audience : SourceAudience ι ω) {s : Source ι σ}
    (hs : s.connection = .reading) (a : NextEvent) (x : List (Note ι) × ω) :
    ∃ notes, (s.hear client.aside audience.noting a x).2.1 = x.1 ++ notes ∧
      HearNotes s a notes (s.hear client.aside audience.noting a x).1 := by
  cases a with
  | nothing =>
    exact ⟨[], (List.append_nil _).symm, fun l ms h => absurd h List.not_mem_nil,
      fun _ e he => (nomatch he), fun h => absurd hs h⟩
  | failed f =>
    obtain ⟨hnotes, hloud⟩ := notes_stopOn client audience s f x
    exact ⟨_, hnotes, .of_loud hloud fun l ms h => absurd h (mutations_not_mem_errors _ f)⟩
  | crashed =>
    exact ⟨[], (List.append_nil _).symm,
      .of_loud (Or.inl rfl) fun l ms h => absurd h List.not_mem_nil⟩
  | event e =>
    have hreading : (s.heed e).2.connection = .reading := hs
    exact notes_hand client audience s e hreading rfl x

end Source

/-! ## A stream -/

/-- The attempt after it read some events. -/
def Reader.readOn (r : Reader) (es : List LogEvent) : Reader :=
  es.foldl (fun r e => (r.read e).2) r

theorem Reader.readOn_append (r : Reader) (es fs : List LogEvent) :
    r.readOn (es ++ fs) = (r.readOn es).readOn fs :=
  List.foldl_append

namespace Source

theorem reader_hear (client : LogClient ω) (audience : SourceAudience ι ω) (a : NextEvent)
    (s : Source ι σ) (w : ω) :
    (s.hear client audience a w).1.reader = s.reader.readOn a.event?.toList ∧
      (s.hear client audience a w).1.listeners = s.listeners := by
  cases a with
  | nothing => exact ⟨rfl, rfl⟩
  | failed e =>
    obtain ⟨n, hn⟩ := fail_eq e s
    simp only [hear, stopOn, hn]
    exact ⟨rfl, trivial⟩
  | crashed => exact ⟨rfl, rfl⟩
  | event e =>
    obtain ⟨n, c, hn⟩ := hand_eq client audience (s.heed e).1 (s.heed e).2 w
    simp only [hear, hn]
    exact ⟨rfl, rfl⟩

/-- What was noted while an attempt was given a stream of events. -/
structure Account (s : Source ι σ) (es : List LogEvent) (notes : List (Note ι))
    (s' : Source ι σ) : Prop where
  origin : ∀ l ms, .mutations l ms ∈ notes → ∃ pre e post, es = pre ++ e :: post ∧
    ((s.reader.readOn pre).read e).1.mutations = .ok ms
  handed : s'.connection = .reading → ∀ pre e post, es = pre ++ e :: post →
    ∃ ms, ((s.reader.readOn pre).read e).1.mutations = .ok ms ∧
      ∀ l ∈ s.listeners.members, ms = [] ∨ .mutations l ms ∈ notes
  loud : s'.connection ≠ .reading → s'.Loud notes

variable {s s₁ s₂ : Source ι σ} {a : NextEvent} {es : List LogEvent} {n n' : List (Note ι)}

/-- The attempt ended with an answer. -/
theorem HearNotes.account (h : s.HearNotes a n s₁) (hs : s₁.connection ≠ .reading)
    (es : List LogEvent) : s.Account (a.event?.toList ++ es) n s₁ where
  origin := by
    intro l ms hms
    obtain ⟨e, rfl, he⟩ := h.origin l ms hms
    exact ⟨[], e, es, rfl, he⟩
  handed := fun hr => absurd hr hs
  loud := h.loud

/-- An answer came before a stream. -/
theorem Account.cons (h : s₁.Account es n' s₂) (hhear : s.HearNotes a n s₁)
    (hs : s₁.connection = .reading) (hreader : s₁.reader = s.reader.readOn a.event?.toList)
    (hlisteners : s₁.listeners = s.listeners) :
    s.Account (a.event?.toList ++ es) (n ++ n') s₂ where
  origin := by
    intro l ms hms
    rcases List.mem_append.1 hms with hms | hms
    · obtain ⟨e, rfl, he⟩ := hhear.origin l ms hms
      exact ⟨[], e, es, rfl, he⟩
    · obtain ⟨pre, e, post, rfl, he⟩ := h.origin l ms hms
      refine ⟨a.event?.toList ++ pre, e, post, (List.append_assoc _ _ _).symm, ?_⟩
      rwa [Reader.readOn_append, ← hreader]
  handed := by
    intro hr pre e post hes
    -- An event of the stream comes after the answer.
    have hlater : ∀ pre, es = pre ++ e :: post →
        ∃ ms, ((s.reader.readOn (a.event?.toList ++ pre)).read e).1.mutations = .ok ms ∧
          ∀ l ∈ s.listeners.members, ms = [] ∨ .mutations l ms ∈ n ++ n' := by
      intro pre hpre
      obtain ⟨ms, hms, hall⟩ := h.handed hr pre e post hpre
      refine ⟨ms, by rwa [Reader.readOn_append, ← hreader], fun l hl => ?_⟩
      exact (hall l (hlisteners ▸ hl)).imp_right (List.mem_append_right _)
    cases ha : a.event? with
    | none =>
      rw [ha] at hes hlater
      exact hlater pre hes
    | some e₀ =>
      rw [ha] at hes hlater
      cases pre with
      | nil =>
        obtain ⟨rfl, rfl⟩ := List.cons.inj hes
        have hevent : a = .event e₀ := by
          cases a with
          | event e => rw [Option.some.inj ha]
          | _ => cases ha
        obtain ⟨ms, hms, hall⟩ := hhear.handed hs e₀ hevent
        exact ⟨ms, hms, fun l hl => (hall l hl).imp_right (List.mem_append_left _)⟩
      | cons e₁ pre =>
        obtain ⟨rfl, rfl⟩ := List.cons.inj hes
        exact hlater pre rfl
  loud := fun hr => (h.loud hr).mono (List.subset_append_right _ _)

/-- **What listeners hear in an attempt.** -/
theorem account_run (client : LogClient ω) (audience : SourceAudience ι ω)
    (hs : s.connection = .reading) (answers : List NextEvent) (x : List (Note ι) × ω) :
    ∃ notes, (run client.aside.playing audience.noting.aside answers.length s
        (answers, x)).2.2.1 = x.1 ++ notes ∧
      s.Account (answers.filterMap NextEvent.event?) notes
        (run client.aside.playing audience.noting.aside answers.length s (answers, x)).1 := by
  induction answers generalizing s x with
  | nil =>
    exact ⟨[], (List.append_nil _).symm, fun l ms h => absurd h List.not_mem_nil,
      fun _ pre e post h => by simp at h, fun h => absurd hs h⟩
  | cons a as ih =>
    obtain ⟨notes, hnotes, hhear⟩ := notes_hear client audience hs a x
    obtain ⟨hreader, hlisteners⟩ := reader_hear client.aside audience.noting a s x
    have hes : (a :: as).filterMap NextEvent.event? =
        a.event?.toList ++ as.filterMap NextEvent.event? := by
      rw [List.filterMap_cons]
      cases a.event? <;> rfl
    rw [List.length_cons, run_playing_cons hs, hes]
    by_cases hr : (s.hear client.aside audience.noting a x).1.connection = .reading
    · obtain ⟨later, hlater, haccount⟩ := ih hr (s.hear client.aside audience.noting a x).2
      refine ⟨notes ++ later, ?_, haccount.cons hhear hr hreader hlisteners⟩
      rw [hlater, hnotes, List.append_assoc]
    · rw [run_of_not_reading hr]
      exact ⟨notes, hnotes, hhear.account hr _⟩

end Source

end ChangeFeed
