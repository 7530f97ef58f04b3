import ChangeFeed.Proofs.Progress.Room
import ChangeFeed.Proofs.Source.Copies

/-!
# One source over two stores

**Side by side** (`Source.onto`). A source and another one that differs only in its store. If the
stores mirror each other, each call answers the same, does the same to both, and to the world.

**What is seen** (`Source.seen`). The answer of each call, and what a source tells about itself
after it.

**Ids** (`Source.Rereads`). A point that is read from a file has lost its id, so it is not the one
that is remembered. It makes no difference until an opening reads the point of a mutation.

Main results: `seen_onto`, `seen_forgetful` and `sees_the_same_over_files`.
-/

namespace ChangeFeed

namespace Source

variable {ι σ τ ω : Type} {store : Store σ} {other : Store τ} {R : σ → τ → Prop}
  {Fit : ResumePoint → Prop} {s : Source ι σ} {u : τ}

/-- The source over another store. -/
def onto (u : τ) (s : Source ι σ) : Source ι τ := { s with stored := u }

/-- The points that the source knows of can be saved. -/
structure Fits (Fit : ResumePoint → Prop) (s : Source ι σ) : Prop where
  initial : Fit s.initialPoint
  history : ∀ p ∈ s.history.points, Fit p

theorem Fits.of_sameProgress {s' : Source ι σ} (h : s.Fits Fit) (hp : SameProgress s s') :
    s'.Fits Fit where
  initial := by
    rw [initialPoint, hp.initialPosition]
    exact h.initial
  history := by
    rw [hp.history]
    exact h.history

/-! ## Opening -/

theorem fits_remember {g : History} {p : ResumePoint} (hg : ∀ q ∈ g.points, Fit q) (hp : Fit p) :
    ∀ q ∈ (g.remember p).points, Fit q := by
  intro q hq
  rcases List.mem_append.1 (List.mem_of_mem_drop hq) with hq | hq
  · exact hg q hq
  · rw [List.mem_singleton.1 hq]
    exact hp

theorem Fits.backPoint (h : s.Fits Fit) :
    (∀ p ∈ s.backHistory.points, Fit p) ∧ Fit s.backPoint := by
  have hall : ∀ p ∈ s.backHistory.points, Fit p := fun p hp =>
    h.history p (List.mem_of_mem_take hp)
  refine ⟨hall, ?_⟩
  unfold Source.backPoint
  cases htop : s.backHistory.last? with
  | none => exact h.initial
  | some p => exact hall p (List.mem_of_getLast? htop)

theorem rollBack_onto (hm : store.Mirrors other R Fit) (hR : R s.stored u) (hfit : s.Fits Fit)
    (hf : s.failures ≠ 0) : ∃ s₁ u₁, s.rollBack store = (.ok s.backPoint, s₁) ∧
      (s.onto u).rollBack other = (.ok s.backPoint, s₁.onto u₁) ∧ R s₁.stored u₁ ∧
      s₁.Fits Fit := by
  obtain ⟨hhistory, hpoint⟩ := hfit.backPoint
  -- The history is saved only if it has points.
  have hdrop : ∃ t₁ u₁, (s.history.size = 0 → t₁ = s.stored ∧ u₁ = u) ∧
      (s.history.size ≠ 0 → store.saveHistory s.backHistory.points s.stored = (.ok (), t₁) ∧
        other.saveHistory s.backHistory.points u = (.ok (), u₁)) ∧ R t₁ u₁ := by
    by_cases h0 : s.history.size = 0
    · exact ⟨_, _, fun _ => ⟨rfl, rfl⟩, fun h => absurd h0 h, hR⟩
    · obtain ⟨t₁, u₁, hsave, hsave', hR₁⟩ := hm.saveHistory _ _ _ hR hhistory
      exact ⟨t₁, u₁, fun h => absurd h h0, fun _ => ⟨hsave, hsave'⟩, hR₁⟩
  obtain ⟨t₁, u₁, hempty, hdrop, hR₁⟩ := hdrop
  obtain ⟨t₂, u₂, hsave, hsave', hR₂⟩ := hm.savePoint _ _ _ hR₁ hpoint
  exact ⟨_, u₂,
    rollBack_of_saved hf (fun h => (hempty h).1) (fun h => (hdrop h).1) hsave,
    rollBack_of_saved (s := s.onto u) hf (fun h => (hempty h).2) (fun h => (hdrop h).2) hsave',
    hR₂, hfit.initial, hhistory⟩

theorem startPoint_onto (hm : store.Mirrors other R Fit) (hR : R s.stored u) (hfit : s.Fits Fit) :
    ∃ p s₁ u₁, s.startPoint store = (.ok p, s₁) ∧
      (s.onto u).startPoint other = (.ok p, s₁.onto u₁) ∧ R s₁.stored u₁ ∧ s₁.Fits Fit := by
  have hfirst : ∃ p s₁ u₁, (if s.failures = 0 then
        ((store.readPoint s.stored).map fun p => p.getD s.initialPoint, s)
        else s.rollBack store) = (.ok p, s₁) ∧
      (if (s.onto u).failures = 0 then
        ((other.readPoint (s.onto u).stored).map fun p => p.getD (s.onto u).initialPoint, s.onto u)
        else (s.onto u).rollBack other) = (.ok p, s₁.onto u₁) ∧
      R s₁.stored u₁ ∧ s₁.Fits Fit ∧ Fit p := by
    by_cases hf : s.failures = 0
    · obtain ⟨p?, hread, hread', hp⟩ := hm.readPoint _ _ hR
      refine ⟨p?.getD s.initialPoint, s, u, ?_, ?_, hR, hfit, ?_⟩
      · rw [if_pos hf, hread]
        rfl
      · have hread' : other.readPoint (s.onto u).stored = .ok p? := hread'
        rw [if_pos (show (s.onto u).failures = 0 from hf), hread']
        rfl
      · cases p? with
        | none => exact hfit.initial
        | some p => exact hp p rfl
    · obtain ⟨s₁, u₁, hback, hback', hR₁, hfit₁⟩ := rollBack_onto hm hR hfit hf
      rw [if_neg hf, if_neg (show (s.onto u).failures ≠ 0 from hf)]
      exact ⟨_, s₁, u₁, hback, hback', hR₁, hfit₁, hfit.backPoint.2⟩
  obtain ⟨p, s₁, u₁, hfirst, hfirst', hR₁, hfit₁, hp⟩ := hfirst
  have hadded := fits_remember hfit₁.history hp
  obtain ⟨t₂, u₂, hadd, hadd', hR₂⟩ := hm.saveHistory _ _ _ hR₁ hadded
  have hstart := startPoint_of_saved hfirst fun _ => hadd
  have hstart' := startPoint_of_saved hfirst' fun _ => hadd'
  by_cases htop : s₁.history.last? = some p
  · rw [if_pos htop] at hstart
    rw [if_pos (show (s₁.onto u₁).history.last? = some p from htop)] at hstart'
    exact ⟨p, s₁, u₁, hstart, hstart', hR₁, hfit₁⟩
  · rw [if_neg htop] at hstart
    rw [if_neg (show (s₁.onto u₁).history.last? ≠ some p from htop)] at hstart'
    exact ⟨p, _, u₂, hstart, hstart', hR₂, hfit₁.initial, hadded⟩

theorem countFailure_onto (e : Error) (s : Source ι σ) (u : τ) :
    (s.onto u).countFailure e = (s.countFailure e).onto u := by
  unfold countFailure
  split <;> rfl

theorem openFeed_onto (client : LogClient ω) (hm : store.Mirrors other R Fit)
    (hR : R s.stored u) (hfit : s.Fits Fit) (w : ω) : ∃ r s₁ u₁ w₁,
      s.openFeed client store w = (r, s₁, w₁) ∧
      (s.onto u).openFeed client other w = (r, s₁.onto u₁, w₁) ∧ R s₁.stored u₁ ∧
      s₁.Fits Fit := by
  have hattempt : ∃ r s₁ u₁ w₁,
      attempt client store { s with connection := .idle } w = (r, s₁, w₁) ∧
      attempt client other { s.onto u with connection := .idle } w = (r, s₁.onto u₁, w₁) ∧
      R s₁.stored u₁ ∧ s₁.Fits Fit := by
    obtain ⟨p, s₁, u₁, hstart, hstart', hR₁, hfit₁⟩ := startPoint_onto
      (s := { s with connection := .idle }) hm hR ⟨hfit.initial, hfit.history⟩
    have hstart' : startPoint other { s.onto u with connection := .idle } = (.ok p, s₁.onto u₁) :=
      hstart'
    unfold attempt
    rw [hstart, hstart']
    simp only
    rcases client.connect p.position w with ⟨_ | ⟨⟩, w₁⟩
    · rename_i e
      obtain ⟨n, hn⟩ := countFailure_eq e s₁
      refine ⟨.error e, s₁.countFailure e, u₁, w₁, rfl, by simp only [countFailure_onto], ?_⟩
      rw [hn]
      exact ⟨hR₁, hfit₁.initial, hfit₁.history⟩
    · exact ⟨_, _, u₁, _, rfl, rfl, hR₁, hfit₁.initial, hfit₁.history⟩
  unfold openFeed
  have hc' : (s.onto u).connection = s.connection := rfl
  rw [hc']
  cases hc : s.connection with
  | reading => exact ⟨_, s, u, _, rfl, rfl, hR, hfit⟩
  | crashed => exact ⟨_, s, u, _, rfl, rfl, hR, hfit⟩
  | lost => exact ⟨_, s, u, _, rfl, rfl, hR, hfit⟩
  | idle => exact hattempt
  | ended => exact hattempt

/-! ## Checkpoints -/

theorem checkpoint_onto (hm : store.Mirrors other R Fit) (hR : R s.stored u) (hfit : s.Fits Fit)
    {m? : Option Mutation} (hm? : ∀ m, m? = some (.row m) → Fit (.after m)) : ∃ r s₁ u₁,
      s.checkpoint store m? = (r, s₁) ∧ (s.onto u).checkpoint other m? = (r, s₁.onto u₁) ∧
      R s₁.stored u₁ ∧ s₁.Fits Fit := by
  cases m? with
  | none => exact ⟨_, s, u, rfl, rfl, hR, hfit⟩
  | some m =>
    cases m with
    | raw m => exact ⟨_, s, u, rfl, rfl, hR, hfit⟩
    | row m =>
      have hp := hm? m rfl
      have hadded := fits_remember hfit.history hp
      obtain ⟨t₁, u₁, hsave, hsave', hR₁⟩ := hm.savePoint _ _ _ hR hp
      obtain ⟨t₂, u₂, hadd, hadd', hR₂⟩ := hm.saveHistory _ _ _ hR₁ hadded
      have hstore := store_of_saved hsave hadd
      have hstore' := store_of_saved (s := s.onto u) hsave' hadd'
      have hsaved : (s.onto u).saved = s.saved := rfl
      simp only [checkpoint, hsaved]
      cases s.saved with
      | none => exact ⟨_, _, u₂, hstore, hstore', hR₂, hfit.initial, hadded⟩
      | some q =>
        simp only
        by_cases h : q = .after m ∨ (ResumePoint.after m).position.compareTo q.position = .lt
        · rw [if_pos h, if_pos h]
          exact ⟨_, s, u, rfl, rfl, hR, hfit⟩
        · rw [if_neg h, if_neg h]
          exact ⟨_, _, u₂, hstore, hstore', hR₂, hfit.initial, hadded⟩

/-! ## Reading -/

theorem stopOn_onto (client : LogClient ω) (audience : SourceAudience ι ω) (e : Error)
    (s : Source ι σ) (u : τ) (w : ω) : (s.onto u).stopOn client audience e w =
      ((s.stopOn client audience e w).1.onto u, (s.stopOn client audience e w).2) := by
  unfold stopOn fail
  rw [countFailure_onto]
  rfl

theorem hand_onto (client : LogClient ω) (audience : SourceAudience ι ω) (g : Reading)
    (s : Source ι σ) (u : τ) (w : ω) : hand client audience g (s.onto u) w =
      ((hand client audience g s w).1.onto u, (hand client audience g s w).2) := by
  have hlisteners : (s.onto u).listeners = s.listeners := rfl
  unfold hand
  cases g.event with
  | none => rfl
  | some e =>
    simp only [hlisteners]
    generalize s.listeners.tell _ w = w'
    cases g.mutations with
    | error e => exact stopOn_onto client audience e s u w'
    | ok ms =>
      cases ms with
      | nil => rfl
      | cons m ms =>
        simp only
        cases s.listeners.ask (fun l => audience.onMutations l (m :: ms)) w' with
        | mk v w'' =>
          cases v with
          | accepted => rfl
          | refused e => exact stopOn_onto client audience e s u w''
          | crashed => rfl

theorem step_onto (client : LogClient ω) (audience : SourceAudience ι ω) (s : Source ι σ) (u : τ)
    (w : ω) : (s.onto u).step client audience w =
      ((s.step client audience w).1.onto u, (s.step client audience w).2) := by
  have hc : (s.onto u).connection = s.connection := rfl
  unfold step
  rw [hc]
  by_cases hs : s.connection = .reading
  · rw [if_pos hs, if_pos hs]
    rcases client.next w with ⟨a, w'⟩
    cases a with
    | nothing => rfl
    | failed e => exact stopOn_onto client audience e s u w'
    | crashed => rfl
    | event e => exact hand_onto client audience (s.heed e).1 (s.heed e).2 u w'
  · rw [if_neg hs, if_neg hs]

theorem closeFeed_onto (client : LogClient ω) (s : Source ι σ) (u : τ) (w : ω) :
    (s.onto u).closeFeed client w = ((s.closeFeed client w).1, (s.closeFeed client w).2.1.onto u,
      (s.closeFeed client w).2.2) := by
  have hc : (s.onto u).connection = s.connection := rfl
  unfold closeFeed
  rw [hc]
  cases s.connection <;> rfl

/-! ## Any calls -/

variable [DecidableEq ι] (client : LogClient ω) (audience : SourceAudience ι ω)

/-- A call answers the same over both stores and does the same. -/
theorem perform_onto (hm : store.Mirrors other R Fit) (hR : R s.stored u) (hfit : s.Fits Fit)
    {c : Call ι} (hc : ∀ m, c = .checkpoint (some (.row m)) → Fit (.after m)) (w : ω) :
    ∃ r s₁ u₁ w₁, perform client audience store c (s, w) = (r, s₁, w₁) ∧
      perform client audience other c (s.onto u, w) = (r, s₁.onto u₁, w₁) ∧ R s₁.stored u₁ ∧
      s₁.Fits Fit := by
  have hquiet (hq : c.isQuiet = true) : R (perform client audience store c (s, w)).2.1.stored u ∧
      (perform client audience store c (s, w)).2.1.Fits Fit := by
    obtain ⟨hp, -⟩ := sameProgress_perform client audience store hq (s, w)
    exact ⟨hp.stored ▸ hR, hfit.of_sameProgress hp⟩
  cases c with
  | openFeed => exact openFeed_onto client hm hR hfit w
  | checkpoint m? =>
    obtain ⟨r, s₁, u₁, hs, hs', hR₁, hfit₁⟩ :=
      checkpoint_onto hm hR hfit fun m hm' => hc m (hm' ▸ rfl)
    refine ⟨r, s₁, u₁, w, ?_, ?_, hR₁, hfit₁⟩
    · rw [perform, hs]
    · rw [perform, hs']
  | closeFeed => exact ⟨_, _, u, _, rfl, closeFeed_onto client s u w, hquiet rfl⟩
  | turn =>
    refine ⟨_, _, u, _, rfl, ?_, hquiet rfl⟩
    rw [perform, step_onto]
    rfl
  | addListener l => exact ⟨_, _, u, _, rfl, rfl, hquiet rfl⟩
  | removeListener l => exact ⟨_, _, u, _, rfl, rfl, hquiet rfl⟩

/-- What is seen of a source: for each call its answer, and the failures in a row, the positions of
the history and the world after it. -/
def seen (keeper : Store σ) : List (Call ι) → Source ι σ × ω →
    List (Except Error Unit × Nat × List LogPosition × ω)
  | [], _ => []
  | c :: cs, x =>
    let y := perform client audience keeper c x
    (y.1, y.2.1.failures, y.2.1.history.points.map (·.position), y.2.2) :: seen keeper cs y.2

/-- The same is seen of a source over both stores. -/
theorem seen_onto (hm : store.Mirrors other R Fit) (hR : R s.stored u) (hfit : s.Fits Fit)
    {cs : List (Call ι)} (hcs : ∀ m, .checkpoint (some (.row m)) ∈ cs → Fit (.after m)) (w : ω) :
    seen client audience store cs (s, w) = seen client audience other cs (s.onto u, w) := by
  induction cs generalizing s u w with
  | nil => rfl
  | cons c cs ih =>
    obtain ⟨r, s₁, u₁, w₁, hs, hs', hR₁, hfit₁⟩ := perform_onto client audience hm hR hfit
      (fun m hc => hcs m (hc ▸ List.mem_cons_self)) w
    simp only [seen, hs, hs']
    rw [ih hR₁ hfit₁ fun m hm' => hcs m (List.mem_cons_of_mem _ hm')]
    rfl

/-! ## Files and memory -/

/-- Does opening the source read the point of a mutation from its store? -/
def Rereads (s : Source ι Memory) : Prop :=
  s.isAtRest = true ∧ s.failures = 0 ∧ ∃ p, s.stored.point = some p ∧ p.id ≠ ResumePoint.noId

omit [DecidableEq ι] in
/-- Forgetting ids makes no difference to an opening that reads none. -/
theorem openFeed_forgetful {s : Source ι Memory} (h : ¬ s.Rereads) (w : ω) :
    s.openFeed client .forgetful w = s.openFeed client .memory w := by
  have hattempt (hrest : s.isAtRest = true) :
      attempt client .forgetful { s with connection := .idle } w =
        attempt client .memory { s with connection := .idle } w := by
    have hstart : startPoint .forgetful { s with connection := .idle } =
        startPoint .memory { s with connection := .idle } := by
      unfold startPoint
      by_cases hf : s.failures = 0
      · have hread : Store.forgetful.readPoint s.stored = Store.memory.readPoint s.stored := by
          cases hp : s.stored.point with
          | none => simp [Store.forgetful, Store.memory, hp]
          | some p =>
            have hid : p.id = ResumePoint.noId := by
              by_contra hne
              exact h ⟨hrest, hf, p, hp, hne⟩
            simp [Store.forgetful, Store.memory, hp, ResumePoint.forget, ← hid]
        simp only [if_pos hf, hread]
        rfl
      · simp only [if_neg hf]
        rfl
    unfold attempt
    rw [hstart]
  unfold openFeed
  cases hc : s.connection with
  | reading => rfl
  | crashed => rfl
  | lost => rfl
  | idle => exact hattempt (by simp [isAtRest, hc])
  | ended => exact hattempt (by simp [isAtRest, hc])

/-- A call does the same if ids are forgotten, unless it is an opening that reads one. -/
theorem perform_forgetful {c : Call ι} {x : Source ι Memory × ω}
    (h : c = .openFeed → ¬ x.1.Rereads) :
    perform client audience .forgetful c x = perform client audience .memory c x := by
  cases c with
  | openFeed => exact openFeed_forgetful client (h rfl) x.2
  | _ => rfl

/-- Forgetting ids makes no difference as long as no id is read. -/
theorem seen_forgetful {cs : List (Call ι)} {x : Source ι Memory × ω}
    (h : ∀ i, cs[i]? = some .openFeed →
      ¬ (after client audience .memory (cs.take i) x).1.Rereads) :
    seen client audience .forgetful cs x = seen client audience .memory cs x := by
  induction cs generalizing x with
  | nil => rfl
  | cons c cs ih =>
    have hstep := perform_forgetful client audience (c := c) (x := x) fun hc => h 0 (hc ▸ rfl)
    simp only [seen, hstep]
    rw [ih fun i hi => h (i + 1) hi]

omit [DecidableEq ι] in
/-- A point that is read without its id is not the one on top of the history, so it is remembered
once more. -/
theorem size_history_of_rereads {s : Source ι Memory} (h : s.Rereads) (htop : s.OnTop)
    (hroom : s.history.size < s.history.capacity) (w : ω) :
    (s.openFeed client .memory w).2.1.history.size = s.history.size ∧
      (s.openFeed client .forgetful w).2.1.history.size = s.history.size + 1 := by
  obtain ⟨hrest, hf, p, hp, hid⟩ := h
  have htop : s.history.last? = some p := by
    rw [OnTop, hp, Option.getD_some] at htop
    exact htop
  -- The ids differ, so what is read is not recognised.
  have hlost : s.history.last? ≠ some p.forget := by
    rw [htop]
    intro heq
    exact hid (congrArg ResumePoint.id (Option.some.inj heq))
  let idle : Source ι Memory := { s with connection := .idle }
  have hread : Store.memory.readPoint idle.stored = .ok (some p) := congrArg Except.ok hp
  have hread' : Store.forgetful.readPoint idle.stored = .ok (some p.forget) := by
    show Except.ok (s.stored.point.map ResumePoint.forget) = _
    rw [hp]
    rfl
  have hkept := startPoint_of_read (s := idle) hf hread fun _ => rfl
  have hagain := startPoint_of_read (s := idle) hf hread' fun _ => rfl
  rw [Option.getD_some, if_pos (show idle.history.last? = some p from htop)] at hkept
  rw [Option.getD_some, if_neg (show idle.history.last? ≠ some p.forget from hlost)] at hagain
  rw [(progress_of_start client hrest hkept w).1, (progress_of_start client hrest hagain w).1]
  refine ⟨rfl, ?_⟩
  rw [History.size, History.remember, History.newest_of_length_le]
  · exact List.length_append
  · rw [List.length_append]
    exact hroom

/-- Forgetting ids makes a difference at the first opening that reads one, if there is room in the
history. -/
theorem seen_forgetful_ne {plan : SourcePlan} {cs : List (Call ι)} {x : Source ι Memory × ω}
    (hk : Kept plan x.1) (htop : x.1.stored.point = none ∨ x.1.OnTop) {i : Nat}
    (hi : cs[i]? = some .openFeed)
    (hfirst : ∀ j < i, cs[j]? = some .openFeed →
      ¬ (after client audience .memory (cs.take j) x).1.Rereads)
    (h : (after client audience .memory (cs.take i) x).1.Rereads)
    (hroom : (after client audience .memory (cs.take i) x).1.history.size < plan.historySize) :
    seen client audience .forgetful cs x ≠ seen client audience .memory cs x := by
  induction cs generalizing x i with
  | nil => cases hi
  | cons c cs ih =>
    cases i with
    | zero =>
      obtain rfl : c = .openFeed := Option.some.inj hi
      have htop : x.1.OnTop := htop.resolve_left fun hnone => by
        obtain ⟨-, -, p, hp, -⟩ := h
        cases hnone.symm.trans hp
      -- One history is longer than the other by then, and that is seen.
      obtain ⟨hsize, hsize'⟩ := size_history_of_rereads client h htop (hk.capacity.1 ▸ hroom) x.2
      intro heq
      have hpositions := congrArg (fun y => y.2.2.1.length) (List.cons.inj heq).1
      simp only [List.length_map] at hpositions
      exact absurd (hsize'.symm.trans (hpositions.trans hsize)) (Nat.succ_ne_self _)
    | succ i =>
      have hstep := perform_forgetful client audience (c := c) (x := x)
        fun hc => hfirst 0 (Nat.succ_pos i) (hc ▸ rfl)
      obtain ⟨hk', hp⟩ := kept_perform client audience c hk
      simp only [seen, hstep]
      intro heq
      refine ih hk' ?_ hi (fun j hj => hfirst (j + 1) (Nat.succ_lt_succ hj)) h hroom
        (List.cons.inj heq).2
      rcases hp with hp | hon
      · exact htop.imp (fun hnone => hp.stored ▸ hnone) fun hon => hon.of_sameProgress hp
      · exact Or.inr hon

omit [DecidableEq ι] in
/-- A source is built alike over stores that mirror each other. -/
theorem build_onto (hm : store.Mirrors other R Fit) {t : σ} (hR : R t u) {plan : SourcePlan}
    {s : Source ι τ} (h : plan.build other u = .ok s)
    (hinitial : Fit (.initial plan.startPosition)) :
    plan.build store t = .ok (s.onto t) ∧ (s.onto t).onto u = s ∧ (s.onto t).stored = t ∧
      (s.onto t).Fits Fit := by
  obtain ⟨ps, hread, hread', hps⟩ := hm.readHistory t u hR
  unfold SourcePlan.build History.load at h ⊢
  by_cases hn : plan.historySize = 0
  · rw [if_pos hn] at h
    cases h
  · rw [if_neg hn, hread'] at h
    rw [if_neg hn, hread]
    cases h
    exact ⟨rfl, rfl, rfl, hinitial, fun p hp => hps p (List.mem_of_mem_drop hp)⟩

section Files

variable {plan : SourcePlan} {s : Source ι Memory} {point history : FilePath}
  {Sound : FileTree → Prop} {t : FileTree} {cs : List (Call ι)}

/-- Over files that are not there at first, what is seen is what is seen over a memory that forgets
ids. -/
theorem seen_files (hbuild : plan.build .memory .empty = .ok s)
    (hfs : Store.Untroubled point history Sound) (hapart : point.Apart history) (ht : Sound t)
    (hpoint : ∀ content, t.kindAt point.place ≠ some (.file content))
    (hhistory : ∀ content, t.kindAt history.place ≠ some (.file content))
    (hstart : plan.startPosition.Portable)
    (hcs : ∀ m, .checkpoint (some (.row m)) ∈ cs → (ResumePoint.after m).position.Portable)
    (w : ω) : plan.build (.files point history) t = .ok (s.onto t) ∧
      seen client audience (.files point history) cs (s.onto t, w) =
        seen client audience .forgetful cs (s, w) := by
  have hmirrors := Store.mirrors_files hfs hapart
  have hempty := Store.reflects_empty ht hpoint hhistory
  have hbuild : plan.build .forgetful .empty = .ok s := hbuild
  obtain ⟨hbuilt, hover, hstored, hfits⟩ := build_onto hmirrors hempty hbuild hstart
  have hseen := seen_onto client audience hmirrors (hstored ▸ hempty) hfits hcs w
  rw [hover] at hseen
  exact ⟨hbuilt, hseen⟩

/-- **What is seen of a source over files.** Two sources are built from a plan, one over memory and
one over two files that are not there at first, and that can be read and written whenever they are
needed. The same calls are made to both. Then what is seen of the source over files, whatever world
its client and its listeners are in, is what is seen over a memory that forgets the ids of points.
It is what is seen over memory, if no opening reads the point of a mutation from the store. It is
not, from the first opening on that does, if the history is not full by then. -/
theorem sees_the_same_over_files (hbuild : plan.build .memory .empty = .ok s)
    (hfs : Store.Untroubled point history Sound) (hapart : point.Apart history) (ht : Sound t)
    (hpoint : ∀ content, t.kindAt point.place ≠ some (.file content))
    (hhistory : ∀ content, t.kindAt history.place ≠ some (.file content))
    (hstart : plan.startPosition.Portable)
    (hcs : ∀ m, .checkpoint (some (.row m)) ∈ cs → (ResumePoint.after m).position.Portable)
    (w : ω) :
    let source (i : Nat) := (after client audience .memory (cs.take i) (s, w)).1
    ∃ s' : Source ι FileTree, plan.build (.files point history) t = .ok s' ∧
      seen client audience (.files point history) cs (s', w) =
        seen client audience .forgetful cs (s, w) ∧
      ((∀ i, cs[i]? = some .openFeed → ¬ (source i).Rereads) →
        seen client audience (.files point history) cs (s', w) =
          seen client audience .memory cs (s, w)) ∧
      ∀ i, cs[i]? = some .openFeed → (source i).Rereads →
        (∀ j < i, cs[j]? = some .openFeed → ¬ (source j).Rereads) →
          (source i).history.size < plan.historySize →
            seen client audience (.files point history) cs (s', w) ≠
              seen client audience .memory cs (s, w) := by
  intro source
  obtain ⟨hbuilt, hseen⟩ := seen_files client audience hbuild hfs hapart ht hpoint hhistory hstart
    hcs w
  have hnone : s.stored.point = none := by
    rw [(SourcePlan.build_eq_ok hbuild).2.1]
    rfl
  refine ⟨s.onto t, hbuilt, hseen, fun h => ?_, fun i hi h hfirst hroom => ?_⟩
  · rw [hseen, seen_forgetful client audience h]
  · rw [hseen]
    exact seen_forgetful_ne client audience (kept_build hbuild) (Or.inl hnone) hi hfirst h hroom

end Files

/-- The server loses the stored position, and the source goes back to the initial one. -/
theorem sees_the_same_over_files_going_back :
    let client : LogClient (List LogPosition) :=
      ⟨fun p w => (.ok (), w ++ [p]), fun w => (.failed (.lostPosition "gone"), w), id⟩
    let audience : SourceAudience Unit (List LogPosition) :=
      ⟨fun _ _ w => w, fun _ _ w => (.accepted, w), fun _ _ w => w⟩
    let plan : SourcePlan := { name := "shop" }
    let s : Source Unit Memory :=
      { name := "shop", tables := [], initialPosition := plan.startPosition, stored := .empty,
        history := ⟨"shop", plan.historySize, []⟩, saved := none, failures := 0, violations := 0,
        reader := .start [] plan.startPosition (.new ⟨"127.0.0.1", 3306, "shop"⟩ .default),
        connection := .idle, listeners := .empty }
    let m : RowMutation :=
      .delete ⟨⟨7, 0⟩, default, .plain "bin.000001" 7 9, default, 1, none, 0⟩ default
    let cs : List (Call Unit) :=
      [.openFeed, .checkpoint (some (.row m)), .turn, .openFeed, .closeFeed]
    let point : FilePath := ⟨["data", "state.json"], .step⟩
    let history : FilePath := ⟨["data", "history.json"], .step⟩
    plan.build .memory .empty = .ok s ∧
      (after client audience .memory cs (s, [])).2 = [plan.startPosition, plan.startPosition] ∧
      ∃ s' : Source Unit FileTree, plan.build (.files point history) .empty = .ok s' ∧
        seen client audience (.files point history) cs (s', []) =
          seen client audience .memory cs (s, []) := by
  intro client audience plan s m cs point history
  have hbeside : Store.Beside point history := by decide
  have hms : ∀ m', .checkpoint (some (.row m')) ∈ cs →
      (ResumePoint.after m').position.Portable := by
    intro m' hm'
    obtain rfl : m' = m := by simpa [cs] using hm'
    exact nofun
  obtain ⟨s', hbuilt, -, hsame, -⟩ := sees_the_same_over_files client audience (s := s)
    (show plan.build .memory .empty = .ok s from rfl) (Store.untroubled_of_beside hbeside)
    (by decide) (Store.clear_empty hbeside) (by exact nofun) (by exact nofun) (by exact nofun)
    hms []
  refine ⟨rfl, by decide, s', hbuilt, hsame fun i hi hrereads => ?_⟩
  obtain ⟨-, hfailures, p, hp, -⟩ := hrereads
  have hlt : i < 5 := (List.getElem?_eq_some_iff.1 hi).1
  -- Only before the reading thread takes its turn is there a point to read.
  have hsafe : ∀ i < 5, i ≠ 2 →
      (after client audience .memory (cs.take i) (s, [])).1.failures ≠ 0 ∨
        (after client audience .memory (cs.take i) (s, [])).1.stored.point = none := by decide
  by_cases h2 : i = 2
  · subst h2
    cases hi
  · rcases hsafe i hlt h2 with h | h
    · exact h hfailures
    · rw [h] at hp
      cases hp

/-- A stored point that is read from a file is remembered once more, since it has lost its id. -/
theorem remembers_twice_over_files :
    let client : LogClient Unit := ⟨fun _ w => (.ok (), w), fun w => (.nothing, w), id⟩
    let audience : SourceAudience Unit Unit :=
      ⟨fun _ _ w => w, fun _ _ w => (.accepted, w), fun _ _ w => w⟩
    let plan : SourcePlan := { name := "shop" }
    let s : Source Unit Memory :=
      { name := "shop", tables := [], initialPosition := plan.startPosition, stored := .empty,
        history := ⟨"shop", plan.historySize, []⟩, saved := none, failures := 0, violations := 0,
        reader := .start [] plan.startPosition (.new ⟨"127.0.0.1", 3306, "shop"⟩ .default),
        connection := .idle, listeners := .empty }
    let place : LogPosition := .plain "bin.000001" 200 250
    let m : RowMutation := .delete ⟨⟨200, 0⟩, default, place, default, 1, none, 0⟩ default
    let cs : List (Call Unit) :=
      [.openFeed, .checkpoint (some (.row m)), .closeFeed, .openFeed]
    let point : FilePath := ⟨["data", "state.json"], .step⟩
    let history : FilePath := ⟨["data", "history.json"], .step⟩
    ∃ s' : Source Unit FileTree,
      plan.build .memory .empty = .ok s ∧ plan.build (.files point history) .empty = .ok s' ∧
      (seen client audience .memory cs (s, ())).map (·.2.2.1) =
        [[plan.startPosition], [plan.startPosition, place], [plan.startPosition, place],
          [plan.startPosition, place]] ∧
      (seen client audience (.files point history) cs (s', ())).map (·.2.2.1) =
        [[plan.startPosition], [plan.startPosition, place], [plan.startPosition, place],
          [plan.startPosition, place, place]] := by
  intro client audience plan s place m cs point history
  have hbeside : Store.Beside point history := by decide
  have hms : ∀ m', .checkpoint (some (.row m')) ∈ cs →
      (ResumePoint.after m').position.Portable := by
    intro m' hm'
    obtain rfl : m' = m := by simpa [cs] using hm'
    exact nofun
  obtain ⟨hbuilt, hseen⟩ := seen_files client audience (s := s)
    (show plan.build .memory .empty = .ok s from rfl) (Store.untroubled_of_beside hbeside)
    (by decide) (Store.clear_empty hbeside) (by exact nofun) (by exact nofun) (by exact nofun)
    hms ()
  refine ⟨s.onto .empty, rfl, hbuilt, by decide, ?_⟩
  rw [hseen]
  decide

end Source

end ChangeFeed
