import ChangeFeed.Proofs.Pipe.Plant

/-!
# Turns of the reading thread

The reading thread of a plant does in many moves what a source does in one turn. When no other
thread comes in between, both lead to the same.

**Answers.** Listeners other than the pipe answer as they like. The pipe answers what became of the
mutations that it sent to the destination (`Sending.verdict?`).

Main result: `run_of_turn`.
-/

namespace ChangeFeed

/-- What a listener answers that sent mutations on. None if they wait for room. -/
def Sending.verdict? : Sending → Option Verdict
  | sent => some .accepted
  | failed e => some (.refused e)
  | waits .. => none

/-- The source after its listeners were asked to take mutations. -/
def Source.conclude {ι σ : Type} (v : Verdict) (s : Source ι σ) : Source ι σ :=
  match v with
  | .accepted => s
  | .refused e => s.fail e
  | .crashed => { s with connection := .crashed }

/-- To proceed leads nowhere once the last call came back. -/
theorem Depot.run_proceed_of_done {ι : Type} {s : Depot ι} {r : Except Error Unit}
    (h : s.caller = .done r) (n : Nat) : s.run (List.replicate n .proceed) = s := by
  induction n with
  | zero => rfl
  | succ n ih =>
    have hstep : s.step .proceed = s := by
      simp only [step, proceed, h]
    show (s.step .proceed).run (List.replicate n .proceed) = s
    rw [hstep, ih]

/-- A source that asks its listeners goes by the first of them that does not accept. -/
theorem Source.hand_of_cons {ι σ ω : Type} {g : Reading} {e : LogEvent} {m : Mutation}
    {ms : List Mutation} (client : LogClient ω) (audience : SourceAudience ι ω) (s : Source ι σ)
    (w : ω) (he : g.event = some e) (hm : g.mutations = .ok (m :: ms)) :
    ∃ w', (s.hand client audience g w).1 = s.conclude
      (s.listeners.ask (fun l => audience.onMutations l (m :: ms)) w').1 := by
  refine ⟨s.listeners.tell (fun l => audience.onEvent l e) w, ?_⟩
  unfold Source.hand
  rw [he]
  simp only [hm]
  generalize s.listeners.ask _ _ = x
  obtain ⟨v, w'⟩ := x
  cases v <;> rfl

namespace Plant

variable {σ ω : Type} (store : Store σ) (log : List LogEvent) {s : Plant σ}

theorem run_append (s : Plant σ) (ms ns : List Move) :
    s.run store log (ms ++ ns) = (s.run store log ms).run store log ns :=
  List.foldl_append

/-- The pipe sends until it has an answer. -/
theorem run_offers {ms : List Mutation} {ears : List Ear} {n : Nat} {depot : Depot Ear}
    {o : Sending} {v : Verdict} (hh : s.hand = .sending ms .done ears)
    (hs : ∀ r, s.depot.caller ≠ .done r) (hrun : s.depot.run (List.replicate n .proceed) = depot)
    (hc : depot.caller = Depot.afterSending o) (ho : o.verdict? = some v) :
    ∃ k, s.run store log (List.replicate k .offer) = hear v ms ears { s with depot } := by
  induction n generalizing s with
  | zero =>
    obtain rfl : s.depot = depot := hrun
    cases o with
    | sent => exact absurd hc (hs _)
    | failed e => exact absurd hc (hs _)
    | waits i x rest => cases ho
  | succ n ih =>
    change (s.depot.step .proceed).run (List.replicate n .proceed) = depot at hrun
    -- The call may come back before all the steps are taken, and the rest of them do nothing.
    by_cases hdone : ∃ r, (s.depot.step .proceed).caller = .done r
    · obtain ⟨r, hr⟩ := hdone
      rw [Depot.run_proceed_of_done hr] at hrun
      refine ⟨1, ?_⟩
      show s.offer = _
      rw [← hrun] at hc ⊢
      cases o with
      | sent =>
        cases ho
        exact offer_of_sent hh hc
      | failed e =>
        cases ho
        exact offer_of_failed hh hc
      | waits i x rest => cases ho
    · have hgoing : ∀ r, (s.depot.step .proceed).caller ≠ .done r := fun r hr => hdone ⟨r, hr⟩
      obtain ⟨k, hk⟩ := ih (s := { s with depot := s.depot.step .proceed }) hh hgoing hrun
      refine ⟨k + 1, ?_⟩
      show s.offer.run store log (List.replicate k .offer) = _
      rw [offer_of_going hh hgoing]
      exact hk

/-- The listeners are asked one after the other. -/
theorem run_asks {f : Ear → ω → Verdict × ω} {ms : List Mutation} {ears : List Ear}
    (hnodup : ears.Nodup) (hh : s.hand = .asking ms ears)
    (hpipe : .pipe ∈ ears → (∃ r, s.depot.caller = .done r) ∧
      ∀ w, (s.depot.dest.send ms).1.verdict? = some (f .pipe w).1) (w : ω) :
    ∃ moves, (s.run store log moves).source =
        s.source.conclude (Listeners.askEach f ears w).1 ∧
      (s.run store log moves).hand = .free := by
  induction ears generalizing s w with
  | nil =>
    refine ⟨[.ask .accepted], ?_⟩
    have hask : s.ask .accepted = { s with hand := .free } := by
      simp only [ask, hh]
    show (s.ask .accepted).source = _ ∧ (s.ask .accepted).hand = _
    rw [hask]
    exact ⟨rfl, rfl⟩
  | cons l ears ih =>
    obtain ⟨hl, hnodup⟩ := List.nodup_cons.1 hnodup
    rcases hf : f l w with ⟨v, w'⟩
    -- Whoever is asked first gives its answer after some moves.
    have hfirst : ∃ first depot, s.run store log first = hear v ms ears { s with depot } ∧
        (.pipe ∈ ears → depot = s.depot) := by
      cases l with
      | other name =>
        have hask : s.ask v = s.hear v ms ears := by
          simp only [ask, hh]
        exact ⟨[.ask v], s.depot, hask, fun _ => rfl⟩
      | pipe =>
        obtain ⟨⟨r, hr⟩, hv⟩ := hpipe List.mem_cons_self
        have hv := hv w
        have hsend : s.depot.step (.send ms) =
            { s.depot with caller := .sending ms, calls := s.depot.calls ++ [ms] } := by
          simp only [Depot.step, hr]
        obtain ⟨n, -, hcaller⟩ := Depot.run_send (s := s.depot.step (.send ms)) (by rw [hsend])
        rw [hf, ← show (s.depot.step (.send ms)).dest = s.depot.dest by rw [hsend]] at hv
        obtain ⟨k, hk⟩ := run_offers store log
          (s := { s with depot := s.depot.step (.send ms), hand := .sending ms .done ears }) rfl
          (by rw [hsend]; exact fun r h => by cases h) rfl hcaller hv
        refine ⟨.ask .accepted :: List.replicate k .offer,
          (s.depot.step (.send ms)).run (List.replicate n .proceed), ?_, fun hm => absurd hm hl⟩
        show (s.ask .accepted).run store log (List.replicate k .offer) = _
        rw [ask_pipe hh, hk]
        cases v <;> rfl
    obtain ⟨first, depot, hfirst, hdepot⟩ := hfirst
    cases v with
    | accepted =>
      -- The pipe is listed once: if it is still to be asked, nothing has been sent.
      have hpipe' : .pipe ∈ ears → (∃ r, depot.caller = .done r) ∧
          ∀ w, (depot.dest.send ms).1.verdict? = some (f .pipe w).1 := by
        intro hm
        rw [hdepot hm]
        exact hpipe (List.mem_cons_of_mem l hm)
      obtain ⟨moves, hsource, hhand⟩ :=
        ih (s := { s with depot, hand := .asking ms ears }) hnodup rfl hpipe' w'
      refine ⟨first ++ moves, ?_⟩
      rw [run_append, hfirst]
      simp only [Listeners.askEach, hf]
      exact ⟨hsource, hhand⟩
    | refused e =>
      refine ⟨first, ?_⟩
      rw [hfirst]
      simp only [Listeners.askEach, hf]
      exact ⟨rfl, rfl⟩
    | crashed =>
      refine ⟨first, ?_⟩
      rw [hfirst]
      simp only [Listeners.askEach, hf]
      exact ⟨rfl, rfl⟩

/-- **Turns.** When an event comes that may come, some moves of the reading thread lead to what one
turn of the source leads to, however the listeners answer. -/
theorem run_of_turn {client : LogClient ω} {audience : SourceAudience Ear ω} {n : Nat}
    {e : LogEvent} {w w' : ω} (hread : s.source.connection = .reading) (hfree : s.hand = .free)
    (he : log[n]? = some e) (hn : s.feed.MayYield log n) (hnext : client.next w = (.event e, w'))
    (hdone : ∃ r, s.depot.caller = .done r)
    (hpipe : ∀ ms, (s.source.reader.read e).1.mutations = .ok ms →
      ∀ w, (s.depot.dest.send ms).1.verdict? = some (audience.onMutations .pipe ms w).1) :
    ∃ moves, (s.run store log moves).source = (s.source.step client audience w).1 ∧
      (s.run store log moves).hand = .free := by
  have harrive : ∀ moves, s.run store log (.arrive (.event n) :: moves) =
      (receive e { s with feed := s.feed.add n }).run store log moves := by
    intro moves
    have hstep : s.step store log (.arrive (.event n)) =
        receive e { s with feed := s.feed.add n } := by
      simp only [step, if_pos hread, hfree, arrive, he, if_pos hn]
    rw [← hstep]
    rfl
  have hturn : s.source.step client audience w =
      Source.hand client audience (s.source.heed e).1 (s.source.heed e).2 w' := by
    simp only [Source.step, if_pos hread, hnext]
  rw [hturn]
  cases hevent : (s.source.heed e).1.event with
  | none =>
    refine ⟨[.arrive (.event n)], ?_⟩
    rw [harrive]
    simp only [receive, hevent, Source.hand]
    exact ⟨rfl, hfree⟩
  | some e' =>
    cases hm : (s.source.heed e).1.mutations with
    | error f =>
      refine ⟨[.arrive (.event n)], ?_⟩
      rw [harrive]
      simp only [receive, hevent, Source.hand, hm]
      exact ⟨rfl, rfl⟩
    | ok ms =>
      cases ms with
      | nil =>
        refine ⟨[.arrive (.event n)], ?_⟩
        rw [harrive]
        simp only [receive, hevent, Source.hand, hm]
        exact ⟨rfl, hfree⟩
      | cons m ms =>
        obtain ⟨w'', hw⟩ := Source.hand_of_cons client audience (s.source.heed e).2 w' hevent hm
        obtain ⟨moves, hmoves⟩ := run_asks store log
          (s := { s with
            source := (s.source.heed e).2
            feed := s.feed.add n
            hand := .asking (m :: ms) s.source.listeners.members })
          (f := fun l => audience.onMutations l (m :: ms)) s.source.listeners.nodup rfl
          (fun _ => ⟨hdone, hpipe _ hm⟩) w''
        refine ⟨.arrive (.event n) :: moves, ?_⟩
        rw [harrive, hw]
        simp only [receive, hevent, hm]
        exact hmoves

end Plant

end ChangeFeed
