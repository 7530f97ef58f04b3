import ChangeFeed.Proofs.Registry.Slots

/-!
# Groups of pipes

A registry is a map from keys to groups of pipes, whatever its pipes do when they are started and
stopped.

**Calls** (`Registry.Call`). A log has the calls of a registry with their results. It tells which
pipes are registered under a key (`Registry.registered`): the groups that were added without a
failure since the key was last removed.

**What is asked of pipes** (`Registry.Trace`). Every call of a pipe is written down together with
its result (`Registry.traced`).

**Stopping** (`Registry.Stops`). Each of some pipes is stopped, in their order and whether or not
one before failed, and the first failure is the result.

Main result: `Registry.refines_map`.
-/

namespace ChangeFeed.Registry

variable {π ω : Type}

/-! ## Calls -/

/-- What can be asked of a registry. -/
inductive Call (π : Type) where
  | add (k : PipeKey) (ps : List π)
  | remove (k : PipeKey)
  | stopAll

/-- What was asked of a registry, with the results. -/
abbrev Log (π : Type) : Type := List (Call π × Except Error Unit)

section

variable {m : Type → Type} [Monad m]

/-- What a call does. -/
def perform (control : PipeControl π m) (c : Call π) (r : Registry π) :
    m (Except Error Unit × Registry π) :=
  match c with
  | .add k ps => r.add control k ps
  | .remove k => r.remove control k
  | .stopAll => r.stopAll control

/-- What calls do one after the other. -/
def run (control : PipeControl π m) : List (Call π) → Registry π → m (Log π × Registry π)
  | [], r => return ([], r)
  | c :: cs, r => do
    let (result, r) ← perform control c r
    let (log, r) ← run control cs r
    return ((c, result) :: log, r)

end

/-- Does a call remove a key? -/
def Call.removes (k : PipeKey) : Call π → Bool
  | .add .. => false
  | .remove k' => k' == k
  | .stopAll => true

/-- What a call has added to the pipes of a key. -/
def added (k : PipeKey) : Call π × Except Error Unit → List π
  | (.add k' ps, .ok ()) => if k' = k then ps else []
  | _ => []

/-- What was logged since a key was last removed. -/
def sinceRemoved (k : PipeKey) (log : Log π) : Log π :=
  (log.reverse.takeWhile fun e => !e.1.removes k).reverse

/-- The groups added under a key since it was last removed, one after the other. -/
def registered (k : PipeKey) (log : Log π) : List π := (sinceRemoved k log).flatMap (added k)

theorem registered_concat (k : PipeKey) (log : Log π) (e : Call π × Except Error Unit) :
    registered k (log ++ [e]) =
      if e.1.removes k then [] else registered k log ++ added k e := by
  unfold registered sinceRemoved
  rw [List.reverse_append, List.reverse_singleton, List.singleton_append, List.takeWhile_cons]
  by_cases h : e.1.removes k = true
  · simp [h]
  · simp [h]

/-! ## What is asked of pipes -/

/-- What can be asked of a pipe. -/
inductive Act (π : Type) where
  | start (p : π)
  | stop (p : π)

/-- What was asked of pipes, with the results. -/
abbrev Trace (π : Type) : Type := List (Act π × Except Error Unit)

/-- The first failure. -/
def firstFailure : Trace π → Except Error Unit
  | [] => .ok ()
  | (_, .error e) :: _ => .error e
  | (_, .ok ()) :: t => firstFailure t

theorem firstFailure_cons (a : Act π) (x : Except Error Unit) (t : Trace π) :
    firstFailure ((a, x) :: t) = Pipe.firstError x (firstFailure t) := by
  cases x <;> rfl

theorem firstFailure_append (t u : Trace π) :
    firstFailure (t ++ u) = Pipe.firstError (firstFailure t) (firstFailure u) := by
  induction t with
  | nil => rfl
  | cons e t ih =>
    obtain ⟨a, x⟩ := e
    rw [List.cons_append, firstFailure_cons, firstFailure_cons, ih]
    cases x <;> rfl

/-- Writes down what an action on a pipe came to. -/
def note (a : Act π) (act : StateM ω (Except Error Unit)) :
    StateM (ω × Trace π) (Except Error Unit) :=
  fun s =>
    let (x, w) := act.run s.1
    (x, w, s.2 ++ [(a, x)])

/-- Starts and stops pipes as before, and writes it down. -/
def traced (control : PipeControl π (StateM ω)) : PipeControl π (StateM (ω × Trace π)) where
  start p := note (.start p) (control.start p)
  stop p := note (.stop p) (control.stop p)

/-- The result `x` and the trace `t'` tell that each of the pipes was stopped after the trace `t`,
in their order, and that the first failure is the result. -/
def Stops (ps : List π) (t : Trace π) (x : Except Error Unit) (t' : Trace π) : Prop :=
  ∃ u, t' = t ++ u ∧ u.map (·.1) = ps.map .stop ∧ x = firstFailure u

theorem stops_nil (t : Trace π) : Stops [] t (.ok ()) t := ⟨[], by simp, rfl, rfl⟩

theorem Stops.append {ps qs : List π} {t t' t'' : Trace π} {x y : Except Error Unit}
    (h : Stops ps t x t') (h' : Stops qs t' y t'') :
    Stops (ps ++ qs) t (Pipe.firstError x y) t'' := by
  obtain ⟨u, rfl, hu, rfl⟩ := h
  obtain ⟨v, rfl, hv, rfl⟩ := h'
  refine ⟨u ++ v, List.append_assoc t u v, ?_, (firstFailure_append u v).symm⟩
  rw [List.map_append, List.map_append, hu, hv]

variable (control : PipeControl π (StateM ω))

theorem stops_stop (p : π) (s : ω × Trace π) :
    Stops [p] s.2 (((traced control).stop p).run s).1 (((traced control).stop p).run s).2.2 := by
  refine ⟨[(.stop p, (((traced control).stop p).run s).1)], rfl, rfl, ?_⟩
  rw [firstFailure_cons]
  cases (((traced control).stop p).run s).1 <;> rfl

theorem stops_stopEach (ps : List π) (s : ω × Trace π) :
    Stops ps s.2 ((stopEach (traced control) ps).run s).1
      ((stopEach (traced control) ps).run s).2.2 := by
  induction ps generalizing s with
  | nil => exact stops_nil s.2
  | cons p ps ih => exact (stops_stop control p s).append (ih _)

theorem stops_remove (k : PipeKey) (r : Registry π) (s : ω × Trace π) :
    Stops (r.get k) s.2 ((r.remove (traced control) k).run s).1.1
      ((r.remove (traced control) k).run s).2.2 := by
  unfold remove get
  cases r.slot? k with
  | none => exact stops_nil s.2
  | some ps => exact stops_stopEach control ps s

/-! ## What calls do to groups -/

section

variable (k k' : PipeKey) (r : Registry π) (s : ω)

/-- A key gets its slot first, and gives it up if nothing came of it. -/
theorem run_add (ps : List π) :
    (r.add control k ps).run s =
      match (startAll control [] ps).run s with
      | (.ok (), s') => ((.ok (), (r.claim k).put k ((r.claim k).get k ++ ps)), s')
      | (.error e, s') => ((.error e, (r.claim k).release k), s') := by
  unfold add
  show StateT.run (startAll control [] ps >>= _) s = _
  rw [StateT.run_bind]
  rcases (startAll control [] ps).run s with ⟨_ | _, s'⟩ <;> rfl

/-- The pipes that are added come after those that are there. -/
theorem get_add (ps : List π) :
    ((r.add control k ps).run s).1.2.get k' =
      r.get k' ++ added k' (.add k ps, ((r.add control k ps).run s).1.1) := by
  rw [run_add]
  rcases (startAll control [] ps).run s with ⟨e | _, s'⟩
  · simp [added]
  · simp only [get_put, get_claim, added]
    by_cases h : k = k'
    · simp [h]
    · simp [h, Ne.symm h]

theorem get_remove :
    ((r.remove control k).run s).1.2.get k' = if k' = k then [] else r.get k' := by
  unfold remove
  cases h : r.slot? k with
  | none =>
    show r.get k' = _
    by_cases hk : k' = k
    · simp [hk, get, h]
    · simp [hk]
  | some ps =>
    show ((r.put k []).release k).get k' = _
    rw [get_release, get_put]

theorem get_removeEach (ks : List PipeKey) :
    ((removeEach control ks r).run s).1.2.get k' = if k' ∈ ks then [] else r.get k' := by
  induction ks generalizing r s with
  | nil => exact (if_neg List.not_mem_nil).symm
  | cons k ks ih =>
    have hrest := ih ((r.remove control k).run s).1.2 ((r.remove control k).run s).2
    rw [get_remove] at hrest
    refine hrest.trans ?_
    by_cases hk : k' = k
    · simp [hk]
    · simp [hk]

theorem get_stopAll : ((r.stopAll control).run s).1.2.get k' = [] := by
  unfold stopAll
  rw [get_removeEach]
  by_cases h : r.get k' = []
  · simp [h]
  · rw [if_pos (r.mem_keys.2 h)]

/-- One call does to a group what the log tells. -/
theorem get_perform (c : Call π) :
    ((perform control c r).run s).1.2.get k' =
      if c.removes k' then [] else
        r.get k' ++ added k' (c, ((perform control c r).run s).1.1) := by
  cases c with
  | add k ps => exact get_add control k k' r s ps
  | remove k =>
    refine (get_remove control k k' r s).trans ?_
    by_cases h : k = k'
    · simp [Call.removes, h]
    · simp [Call.removes, added, h, Ne.symm h]
  | stopAll => exact get_stopAll control k' r s

end

/-- After calls, the pipes of each key are those that the log tells. -/
theorem get_run (cs : List (Call π)) {log : Log π} {r : Registry π}
    (h : ∀ k, r.get k = registered k log) (s : ω) (k : PipeKey) :
    ((run control cs r).run s).1.2.get k =
      registered k (log ++ ((run control cs r).run s).1.1) := by
  induction cs generalizing log r s with
  | nil =>
    refine (h k).trans ?_
    show _ = registered k (log ++ [])
    rw [List.append_nil]
  | cons c cs ih =>
    let out := (perform control c r).run s
    have hstep : ∀ k, out.1.2.get k = registered k (log ++ [(c, out.1.1)]) := by
      intro k
      rw [get_perform, registered_concat, h k]
    have hrest := ih hstep out.2
    rwa [List.append_assoc] at hrest

/-! ## Stopping several keys -/

theorem stops_removeEach {ks : List PipeKey} (hks : ks.Nodup) (r : Registry π)
    (s : ω × Trace π) :
    Stops (ks.flatMap fun k => r.get k) s.2 ((removeEach (traced control) ks r).run s).1.1
      ((removeEach (traced control) ks r).run s).2.2 := by
  induction ks generalizing r s with
  | nil => exact stops_nil s.2
  | cons k ks ih =>
    obtain ⟨hnew, hrest⟩ := List.nodup_cons.1 hks
    let out := (r.remove (traced control) k).run s
    have hothers : ks.flatMap (fun k' => out.1.2.get k') = ks.flatMap fun k' => r.get k' := by
      apply List.flatMap_congr
      intro k' hk'
      rw [get_remove, if_neg]
      rintro rfl
      exact hnew hk'
    have htail := ih hrest out.1.2 out.2
    rw [hothers] at htail
    exact (stops_remove control k r s).append htail

theorem stops_stopAll (r : Registry π) (s : ω × Trace π) :
    Stops (r.keys.flatMap fun k => r.get k) s.2 ((r.stopAll (traced control)).run s).1.1
      ((r.stopAll (traced control)).run s).2.2 :=
  stops_removeEach control r.keys_nodup r s

/-! ## The main result -/

/-- The registry is the map from keys to groups that the log tells. -/
structure Refines (control : PipeControl π (StateM ω)) (log : Log π) (r : Registry π) : Prop where
  get : ∀ k, r.get k = registered k log
  /-- The keys are in order, and none of them comes twice. -/
  sorted : r.keys.Pairwise fun a b => PipeKey.compare a b = .lt
  mem_keys : ∀ k, k ∈ r.keys ↔ registered k log ≠ []
  count : r.count = (r.keys.flatMap fun k => registered k log).length
  isEmpty : r.isEmpty = true ↔ r.count = 0
  /-- Removing a key stops its pipes and leaves those of other keys. -/
  remove : ∀ k (s : ω × Trace π) x r' w t,
    (r.remove (traced control) k).run s = ((x, r'), w, t) →
      Stops (registered k log) s.2 x t ∧ r'.get k = [] ∧ k ∉ r'.keys ∧
        ∀ k' ≠ k, r'.get k' = registered k' log
  /-- Stopping all stops the pipes of all keys, in the order of the keys. -/
  stopAll : ∀ (s : ω × Trace π) x r' w t,
    (r.stopAll (traced control)).run s = ((x, r'), w, t) →
      Stops (r.keys.flatMap fun k => registered k log) s.2 x t ∧ r'.keys = [] ∧
        ∀ k, r'.get k = []

/-- **A registry is a map from keys to groups of pipes.** Whatever was asked of it, and whatever
came of starting and stopping pipes. -/
theorem refines_map (cs : List (Call π)) (s : ω × Trace π) :
    Refines control ((run (traced control) cs empty).run s).1.1
      ((run (traced control) cs empty).run s).1.2 := by
  generalize hout : (run (traced control) cs empty).run s = out
  obtain ⟨⟨log, r⟩, s'⟩ := out
  have hget : ∀ k, r.get k = registered k log := by
    intro k
    have hempty : ∀ k, (empty : Registry π).get k = registered k [] := get_empty
    have hrun := get_run (traced control) cs hempty s k
    rwa [hout] at hrun
  have hfun : (fun k => r.get k) = fun k => registered k log := funext hget
  exact {
    get := hget
    sorted := r.keys_sorted
    mem_keys := fun k => by rw [← hget k, r.mem_keys]
    count := by rw [r.count_eq, hfun]
    isEmpty := r.isEmpty_iff
    remove := by
      intro k s x r' w t h
      have hstops := stops_remove control k r s
      have hafter := fun k' => get_remove (traced control) k k' r s
      rw [h] at hstops hafter
      refine ⟨hget k ▸ hstops, ?_, ?_, ?_⟩
      · simpa using hafter k
      · rw [r'.mem_keys, not_not]
        simpa using hafter k
      · intro k' hk
        simpa [hk, hget k'] using hafter k'
    stopAll := by
      intro s x r' w t h
      have hstops := stops_stopAll control r s
      have hafter := fun k => get_stopAll (traced control) k r s
      rw [h] at hstops hafter
      refine ⟨hfun ▸ hstops, ?_, hafter⟩
      apply List.eq_nil_iff_forall_not_mem.2
      intro k hk
      exact r'.mem_keys.1 hk (hafter k) }

end ChangeFeed.Registry
