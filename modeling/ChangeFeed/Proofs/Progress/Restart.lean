import ChangeFeed.Proofs.Progress.Changes
import ChangeFeed.Proofs.Progress.Room

/-!
# A history survives a restart

**Stores that keep histories** (`Store.Keeps`). What was saved is read again, except for what the
store does not write, such as the ids of points in files. What is read is as it was written.

**Runs** (`History.Saves`). A run in which the store saves whatever it is given.

**The store of a history** (`History.Kept`). What the store holds is a history that is loaded as the
one in memory. It need not be the same: as long as nothing was changed, the store may hold older
points that do not fit. Every change that is made keeps this (`Kept.make`), since it writes the
whole history.

Main result: `survives_restart`.
-/

namespace ChangeFeed

open History (Change)

variable {σ : Type} {store : Store σ} {Sound : σ → Prop} {back : ResumePoint → ResumePoint}
  {Fit : ResumePoint → Prop}

namespace Store

/-- On what is `Sound`, a history of `Fit` points that was saved is read with `back` of each point,
and whatever is read is `Fit` and its own `back`. -/
structure Keeps (store : Store σ) (Sound : σ → Prop) (back : ResumePoint → ResumePoint)
    (Fit : ResumePoint → Prop) : Prop where
  saveHistory : ∀ s s' ps, Sound s → (∀ p ∈ ps, Fit p) → store.saveHistory ps s = (.ok (), s') →
    Sound s' ∧ store.readHistory s' = .ok (ps.map back)
  readHistory : ∀ s ps, Sound s → store.readHistory s = .ok ps → ∀ p ∈ ps, Fit p ∧ back p = p

theorem keeps_memory : memory.Keeps (fun _ => True) id fun _ => True where
  saveHistory := by
    rintro m _ ps - - ⟨⟩
    exact ⟨trivial, congrArg Except.ok (List.map_id ps).symm⟩
  readHistory := fun _ _ _ _ _ _ => ⟨trivial, rfl⟩

/-- Files keep everything but ids. -/
theorem keeps_files (point history : FilePath) :
    (files point history).Keeps (·.kindAt [] = some .dir) .forget (·.position.Portable) where
  saveHistory := by
    intro t t' ps ht hps hsave
    obtain ⟨hread, hg, -⟩ := writeFile_eq_ok ht hsave
    refine ⟨hg [] ht, ?_⟩
    show (readFile history t').map _ = _
    simp only [readFile, hread, ResumePoint.read?_write_list hps]
    rfl
  readHistory := by
    intro t ps ht hread
    have hread : (readFile history t).map (fun ps? => ps?.getD []) = .ok ps := hread
    unfold readFile at hread
    split at hread
    · obtain rfl := Except.ok.inj hread
      exact List.forall_mem_nil _
    · cases hread
    · rename_i bytes _
      split at hread
      · rename_i qs hqs
        obtain rfl : qs = ps := Except.ok.inj hread
        exact ResumePoint.of_mem_read? hqs
      · cases hread

end Store

namespace History

/-! ## What a change leaves -/

namespace Change

variable {n : Nat} {c : Change} {ps : List ResumePoint}

theorem length_applied_le (h : ps.length ≤ n) : (c.applied n ps).length ≤ n := by
  cases c with
  | add p => exact length_newest_le n (ps ++ [p])
  | removeLast count => exact Nat.le_trans (List.length_take_le' _ _) h
  | clear => exact Nat.zero_le n

theorem eq_add_or_mem_of_mem_applied {p : ResumePoint} (h : p ∈ c.applied n ps) :
    c = .add p ∨ p ∈ ps := by
  cases c with
  | add q =>
    rcases List.mem_append.1 (List.mem_of_mem_drop h) with hp | hp
    · exact Or.inr hp
    · exact Or.inl (congrArg Change.add (List.mem_singleton.1 hp).symm)
  | removeLast count => exact Or.inr (List.mem_of_mem_take h)
  | clear => cases h

end Change

/-! ## Histories and their stores -/

/-- What the first history and store have, and each change keeps, they have wherever a run is. -/
theorem after_take {P : History × σ → Prop} {cs : List Change} {x : History × σ} (h : P x)
    (hstep : ∀ (i : Nat) c, cs[i]? = some c → P (after store (cs.take i) x) →
      P (c.make store (after store (cs.take i) x)).2) (i : Nat) :
    P (after store (cs.take i) x) := by
  induction i with
  | zero => exact h
  | succ i ih =>
    rw [List.take_add_one, after, List.foldl_append]
    cases hi : cs[i]? with
    | none => exact ih
    | some c => exact hstep i c hi ih

/-- The store saves whatever it is given in the run. -/
def Saves (store : Store σ) (cs : List Change) (x : History × σ) : Prop :=
  ∀ (i : Nat) c, cs[i]? = some c →
    let y := after store (cs.take i) x
    ¬c.Refused y.1.points →
      (store.saveHistory (c.applied y.1.capacity y.1.points) y.2).1 = .ok ()

/-- A store that can always save does so in every run. -/
theorem saves_of_sound (hsave : ∀ s ps, Sound s →
      ∃ s', store.saveHistory ps s = (.ok (), s') ∧ Sound s')
    (cs : List Change) {x : History × σ} (hx : Sound x.2) : Saves store cs x := by
  have hsound : ∀ i, Sound (after store (cs.take i) x).2 := by
    refine after_take (P := fun y => Sound y.2) hx fun i c _ h => ?_
    generalize after store (cs.take i) x = y at h ⊢
    by_cases hrefused : c.Refused y.1.points
    · obtain ⟨f, hf⟩ := Change.make_of_refused store hrefused
      rwa [hf]
    · obtain ⟨s', hs', hsound⟩ := hsave y.2 (c.applied y.1.capacity y.1.points) h
      rwa [Change.make_of_not_refused hrefused, hs']
  intro i c _ y _
  obtain ⟨s', hs', -⟩ := hsave y.2 (c.applied y.1.capacity y.1.points) (hsound i)
  rw [hs']

/-- The history is what is loaded from the store, except for what the store does not write. -/
structure Kept (store : Store σ) (Sound : σ → Prop) (back : ResumePoint → ResumePoint)
    (Fit : ResumePoint → Prop) (x : History × σ) : Prop where
  sound : Sound x.2
  fit : ∀ p ∈ x.1.points, Fit p
  room : x.1.size ≤ x.1.capacity
  stored : ∃ qs, store.readHistory x.2 = .ok qs ∧
    newest x.1.capacity qs = x.1.points.map back

namespace Kept

variable {x : History × σ} {c : Change} {cs : List Change}

theorem of_read (hk : store.Keeps Sound back Fit) {s : σ} {ps : List ResumePoint} (hs : Sound s)
    (hread : store.readHistory s = .ok ps) (name : String) (n : Nat) :
    Kept store Sound back Fit (⟨name, n, newest n ps⟩, s) := by
  have hps := hk.readHistory s ps hs hread
  have hnewest : ∀ p ∈ newest n ps, p ∈ ps := fun p hp => List.mem_of_mem_drop hp
  refine ⟨hs, fun p hp => (hps p (hnewest p hp)).1, length_newest_le n ps, ps, hread, ?_⟩
  have hsame : (newest n ps).map back = (newest n ps).map id :=
    List.map_congr_left fun p hp => (hps p (hnewest p hp)).2
  rw [hsame, List.map_id]

theorem load (h : Kept store Sound back Fit x) (hn : x.1.capacity ≠ 0) (name : String) :
    load store name x.1.capacity x.2 = .ok ⟨name, x.1.capacity, x.1.points.map back⟩ := by
  obtain ⟨qs, hread, hqs⟩ := h.stored
  rw [History.load, if_neg hn, hread, ← hqs]
  rfl

theorem make (hk : store.Keeps Sound back Fit) (h : Kept store Sound back Fit x)
    (hfit : ∀ p, c = .add p → Fit p)
    (hsave : ¬c.Refused x.1.points →
      (store.saveHistory (c.applied x.1.capacity x.1.points) x.2).1 = .ok ()) :
    Kept store Sound back Fit (c.make store x).2 := by
  by_cases hrefused : c.Refused x.1.points
  · obtain ⟨f, hf⟩ := Change.make_of_refused store hrefused
    rw [hf]
    exact h
  · -- The whole history is written, so older points that do not fit are gone from now on.
    have hps : ∀ p ∈ c.applied x.1.capacity x.1.points, Fit p := fun p hp =>
      (Change.eq_add_or_mem_of_mem_applied hp).elim (hfit p) (h.fit p)
    have hroom := Change.length_applied_le (c := c) h.room
    obtain ⟨hsound, hread⟩ := hk.saveHistory _ _ _ h.sound hps (Prod.ext (hsave hrefused) rfl)
    rw [Change.make_of_not_refused hrefused]
    exact ⟨hsound, hps, hroom, _, hread,
      newest_of_length_le ((List.length_map back).trans_le hroom)⟩

/-- Wherever a run is, the store holds the history. -/
theorem take (hk : store.Keeps Sound back Fit) (h : Kept store Sound back Fit x)
    (hcs : ∀ p, .add p ∈ cs → Fit p) (hsaves : Saves store cs x) (i : Nat) :
    Kept store Sound back Fit (after store (cs.take i) x) :=
  after_take h (fun i c hi h => h.make hk (fun p hp => hcs p (hp ▸ List.mem_of_getElem? hi))
    (hsaves i c hi)) i

end Kept

/-! ## Restarts -/

/-- What becomes of a history that is loaded from a store with the points `ps`, and then changed.
Wherever it is, it is the plain list. Changes are made, and answer accordingly, unless they are
refused, and then nothing changes. Another history that is loaded has `back` of the same points. -/
structure Survives (store : Store σ) (back : ResumePoint → ResumePoint) (name : String) (n : Nat)
    (cs : List Change) (ps : List ResumePoint) (s : σ) : Prop where
  loads : load store name n s = .ok ⟨name, n, ps.rtake n⟩
  points : ∀ i, (after store (cs.take i) (⟨name, n, ps.rtake n⟩, s)).1 =
    ⟨name, n, listAfter n (cs.take i) (ps.rtake n)⟩
  refuses : ∀ (i : Nat) c, cs[i]? = some c →
    let x := after store (cs.take i) (⟨name, n, ps.rtake n⟩, s)
    c.Refused x.1.points → ∃ f, c.make store x = (.error f, x)
  answers : ∀ (i : Nat) c, cs[i]? = some c →
    let x := after store (cs.take i) (⟨name, n, ps.rtake n⟩, s)
    ¬c.Refused x.1.points → (c.make store x).1 = .ok (c.answer (c.applied n x.1.points))
  reloads : ∀ i name', load store name' n (after store (cs.take i) (⟨name, n, ps.rtake n⟩, s)).2 =
    .ok ⟨name', n, (listAfter n (cs.take i) (ps.rtake n)).map back⟩

theorem survives_of_keeps (hk : store.Keeps Sound back Fit) {s : σ} {ps : List ResumePoint}
    (hs : Sound s) (hread : store.readHistory s = .ok ps) (name : String) {n : Nat} (hn : n ≠ 0)
    {cs : List Change} (hcs : ∀ p, .add p ∈ cs → Fit p)
    (hsaves : Saves store cs (⟨name, n, ps.rtake n⟩, s)) :
    Survives store back name n cs ps s := by
  have hstart : Kept store Sound back Fit (⟨name, n, ps.rtake n⟩, s) := .of_read hk hs hread name n
  have hpoints (i : Nat) : (after store (cs.take i) (⟨name, n, ps.rtake n⟩, s)).1 =
      ⟨name, n, listAfter n (cs.take i) (ps.rtake n)⟩ := history_after store _ _
  have hcapacity (i : Nat) := congrArg capacity (hpoints i)
  refine ⟨?_, hpoints, fun i c _ => Change.make_of_refused store, ?_, ?_⟩
  · rw [load, if_neg hn, hread]
    rfl
  · intro i c hi x hc
    have hsave := hsaves i c hi hc
    rw [Change.make_of_not_refused hc]
    rw [hcapacity] at hsave ⊢
    rw [hsave]
    rfl
  · intro i name'
    have hload := (hstart.take hk hcs hsaves i).load ((hcapacity i).trans_ne hn) name'
    rwa [hpoints] at hload

/-- **A history survives a restart.** A history is loaded, of which at least one point is kept, and
points are added and dropped while the store saves whatever it is given. Then it is at any time the
plain list of the newest points, the answers and refusals are those of the list, and whatever is
loaded from the store has the same points in the same order. This is so in memory, whatever it
holds, and in files that can be read, but for the ids, if all sets of transaction ids that are added
were read from texts. -/
theorem survives_restart (name : String) {n : Nat} (hn : n ≠ 0) (cs : List Change) :
    (∀ m : Memory, Survives .memory id name n cs m.history m) ∧
    ∀ (point history : FilePath) (t : FileTree) (ps : List ResumePoint),
      t.kindAt [] = some .dir → (Store.files point history).readHistory t = .ok ps →
      (∀ p, .add p ∈ cs → p.position.Portable) →
      Saves (.files point history) cs (⟨name, n, ps.rtake n⟩, t) →
      Survives (.files point history) .forget name n cs ps t := by
  constructor
  · intro m
    exact survives_of_keeps Store.keeps_memory trivial rfl name hn (fun _ _ => trivial)
      fun _ _ _ _ => rfl
  · intro point history t ps ht hread hcs hsaves
    exact survives_of_keeps (Store.keeps_files point history) ht hread name hn hcs hsaves

/-- A file holds three points, of which two are kept. Three cannot be dropped, so the file stays as
it is until a point is added, which loses its id there. -/
theorem survives_restart_two_of_three :
    let p (k : Nat) : ResumePoint :=
      .new 0 (.ofNat k) (.plain "mysql-bin.000001" (.ofNat k) (.ofNat (k + 1)))
    let q : ResumePoint := { p 4 with id := 7 }
    let cs : List Change := [.removeLast 3, .add q]
    let point : FilePath := ⟨["data", "state.json"], .step⟩
    let history : FilePath := ⟨["data", "history.json"], .step⟩
    let store := Store.files point history
    ∃ t t', store.readHistory t = .ok [p 1, p 2, p 3] ∧
      load store "shop" 2 t = .ok ⟨"shop", 2, [p 2, p 3]⟩ ∧
      after store [.removeLast 3] (⟨"shop", 2, [p 2, p 3]⟩, t) = (⟨"shop", 2, [p 2, p 3]⟩, t) ∧
      after store cs (⟨"shop", 2, [p 2, p 3]⟩, t) = (⟨"shop", 2, [p 3, q]⟩, t') ∧
      load store "shop" 2 t' = .ok ⟨"shop", 2, [p 3, p 4]⟩ := by
  intro p q cs point history store
  have hbeside : Store.Beside point history := by decide
  have hfiles := Store.untroubled_of_beside hbeside
  obtain ⟨t, hsave, ht⟩ := hfiles.saveHistory _ [p 1, p 2, p 3] (Store.clear_empty hbeside)
  have hportable (k : Nat) : (p k).position.Portable := nofun
  have hread : store.readHistory t = .ok [p 1, p 2, p 3] :=
    ((Store.keeps_files _ _).saveHistory _ _ _ rfl (by simp [hportable]) hsave).2
  have hcs : ∀ r, .add r ∈ cs → r.position.Portable := by
    intro r hr
    obtain rfl : r = q := by simpa [cs] using hr
    exact hportable 4
  have hs := (survives_restart "shop" (n := 2) (by decide) cs).2 _ _ t _ ht.root hread hcs
    (saves_of_sound hfiles.saveHistory cs ht)
  have hrefused : (Change.removeLast 3).Refused [p 2, p 3] := by decide
  obtain ⟨f, hsame⟩ := hs.refuses 0 _ rfl hrefused
  exact ⟨t, _, hread, hs.loads, congrArg Prod.snd hsame, Prod.ext (hs.points 2) rfl,
    hs.reloads 2 "shop"⟩

end History

end ChangeFeed
