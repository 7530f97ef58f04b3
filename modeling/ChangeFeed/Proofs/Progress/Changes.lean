import ChangeFeed.Progress.History
import Mathlib.Data.List.DropRight
import Mathlib.Tactic.Common

/-!
# Changes of a history

A history of resume points is changed in memory first and saved then.

**Changes** (`History.Change`). A point is added, the newest points are dropped, or all are. A
change is refused if it is to drop no point, or more points than there are (`Change.Refused`).

**The plain list** (`Change.applied`, `Change.onList`). What a change makes of a list of points of
which the newest are kept.

**The law of a change** (`Change.make_of_refused`, `Change.make_of_not_refused`). A refused change
does nothing. Any other change is made, and its answer is that of the store that it is saved in. So
the points are those of the plain list whatever the store answers (`history_after`).

Main result: `failed_change_stays`, with `retried_drop_drops_again` for a failure that is not
without effect.
-/

namespace ChangeFeed

namespace History

/-! ## Lists that stay the same -/

section Lists

variable {α : Type}

/-- A list that moves up by one element is the same again if all its elements are the new one. -/
theorem eq_replicate_of_concat {as : List α} {a b : α} (h : as ++ [a] = b :: as) :
    b :: as = List.replicate (as.length + 1) a := by
  induction as generalizing b with
  | nil =>
    cases h
    rfl
  | cons c as ih =>
    obtain ⟨rfl, htail⟩ := List.cons.inj h
    have hrest := ih htail
    rw [List.length_cons, List.replicate_succ, ← hrest]
    rw [List.replicate_succ] at hrest
    rw [(List.cons.inj hrest).1]

theorem rtake_concat_eq_iff {n : Nat} {as : List α} {a : α} :
    (as ++ [a]).rtake n = as ↔ as = List.replicate n a := by
  constructor
  · intro h
    -- One element makes room for the new one.
    have hlength := congrArg List.length h
    rw [List.rtake, List.length_drop, List.length_append, List.length_singleton] at hlength
    have hn : n = as.length := by omega
    subst hn
    cases as with
    | nil => rfl
    | cons b as =>
      rw [List.rtake, List.length_append, List.length_singleton, Nat.add_sub_cancel_left,
        List.cons_append, List.drop_one, List.tail_cons] at h
      exact eq_replicate_of_concat h
  · rintro rfl
    rw [← List.replicate_succ', List.rtake, List.length_replicate, Nat.add_sub_cancel_left,
      List.drop_replicate, Nat.add_sub_cancel]

end Lists

/-! ## Changes -/

variable {σ : Type}

/-- What can be asked of a history. -/
inductive Change where
  | add (p : ResumePoint)
  | removeLast (count : Nat)
  | clear
  deriving DecidableEq

namespace Change

/-! ## The plain list -/

/-- Is the change one that cannot be made of these points? -/
def Refused : Change → List ResumePoint → Prop
  | removeLast count, ps => count = 0 ∨ ps.length < count
  | _, _ => False

instance (c : Change) (ps : List ResumePoint) : Decidable (c.Refused ps) :=
  match c with
  | removeLast _ => inferInstanceAs (Decidable (_ ∨ _))
  | add _ => inferInstanceAs (Decidable False)
  | clear => inferInstanceAs (Decidable False)

/-- The points after a change, of which the newest `n` are kept. -/
def applied (n : Nat) : Change → List ResumePoint → List ResumePoint
  | add p, ps => (ps ++ [p]).rtake n
  | removeLast count, ps => ps.rdrop count
  | clear, _ => []

/-- The points after a change that is made unless it is refused. -/
def onList (n : Nat) (ps : List ResumePoint) (c : Change) : List ResumePoint :=
  if c.Refused ps then ps else c.applied n ps

/-- What a change answers, given the points after it. -/
def answer : Change → List ResumePoint → Option ResumePoint
  | removeLast _, ps => ps.getLast?
  | _, _ => none

/-- The change would leave the points as they are: all of them are copies of the point that is to be
added, or there is nothing to clear. -/
def Idle (n : Nat) : Change → List ResumePoint → Prop
  | add p, ps => ps = List.replicate n p
  | removeLast _, _ => False
  | clear, ps => ps = []

theorem applied_eq_iff {n : Nat} {c : Change} {ps : List ResumePoint} (h : ¬c.Refused ps) :
    c.applied n ps = ps ↔ c.Idle n ps := by
  cases c with
  | add p => exact rtake_concat_eq_iff
  | removeLast count =>
    obtain ⟨hpos, hle⟩ := not_or.1 h
    refine iff_of_false (fun heq => ?_) id
    have hlength := congrArg List.length heq
    rw [applied, List.rdrop, List.length_take] at hlength
    omega
  | clear => exact eq_comm

/-! ## Changes that are made -/

/-- Makes a change. -/
def make (store : Store σ) (c : Change) (x : History × σ) :
    Except Error (Option ResumePoint) × History × σ :=
  match c with
  | add p => let r := x.1.add store p x.2; (r.1.map fun _ => none, r.2)
  | removeLast count => x.1.removeLast store count x.2
  | clear => let r := x.1.clear store x.2; (r.1.map fun _ => none, r.2)

variable {store : Store σ} {c : Change} {x : History × σ}

/-- A change that is refused changes nothing. -/
theorem make_of_refused (store : Store σ) (h : c.Refused x.1.points) :
    ∃ f, c.make store x = (.error f, x) := by
  cases c with
  | removeLast count =>
    by_cases h0 : count = 0
    · exact ⟨_, if_pos h0⟩
    · have hlt : x.1.size < count := h.resolve_left h0
      exact ⟨_, (if_neg h0).trans (if_pos hlt)⟩
  | add p => cases h
  | clear => cases h

/-- Any other change is made, and then it is saved. -/
theorem make_of_not_refused (h : ¬c.Refused x.1.points) :
    let ps := c.applied x.1.capacity x.1.points
    c.make store x = ((store.saveHistory ps x.2).1.map fun _ => c.answer ps,
      { x.1 with points := ps }, (store.saveHistory ps x.2).2) := by
  cases c with
  | removeLast count =>
    obtain ⟨h0, hle⟩ := not_or.1 h
    exact (if_neg h0).trans (if_neg hle)
  | add p => rfl
  | clear => rfl

/-- The points after a change are those of the plain list, whatever the store answers. -/
theorem history_make (store : Store σ) (c : Change) (x : History × σ) :
    (c.make store x).2.1 = { x.1 with points := c.onList x.1.capacity x.1.points } := by
  unfold onList
  split
  · rename_i h
    obtain ⟨f, hf⟩ := make_of_refused store h
    rw [hf]
  · rename_i h
    rw [make_of_not_refused h]

end Change

/-- The history and its store after changes. -/
def after (store : Store σ) (cs : List Change) (x : History × σ) : History × σ :=
  cs.foldl (fun x c => (c.make store x).2) x

/-- A plain list after changes, of which the newest `n` points are kept. -/
def listAfter (n : Nat) (cs : List Change) (ps : List ResumePoint) : List ResumePoint :=
  cs.foldl (Change.onList n) ps

/-- The points after any changes are those of the plain list, whichever of them could be saved. -/
theorem history_after (store : Store σ) (cs : List Change) (x : History × σ) :
    (after store cs x).1 = { x.1 with points := listAfter x.1.capacity cs x.1.points } := by
  induction cs generalizing x with
  | nil => rfl
  | cons c cs ih =>
    rw [after, List.foldl_cons, ← after, ih, Change.history_make]
    rfl

theorem points_after (store : Store σ) (cs : List Change) (x : History × σ) :
    (after store cs x).1.points = listAfter x.1.capacity cs x.1.points :=
  congrArg points (history_after store cs x)

/-- Dropping points again and again drops as many each time. -/
theorem listAfter_removeLast {n k count : Nat} {ps : List ResumePoint} (hpos : 0 < count)
    (hle : k * count ≤ ps.length) :
    listAfter n (List.replicate k (.removeLast count)) ps = ps.rdrop (k * count) := by
  induction k generalizing ps with
  | zero => simp [listAfter]
  | succ k ih =>
    rw [Nat.succ_mul] at hle ⊢
    have hrefused : ¬(Change.removeLast count).Refused ps :=
      not_or.2 ⟨Nat.ne_of_gt hpos, Nat.not_lt.2 (Nat.le_trans (Nat.le_add_left _ _) hle)⟩
    have hlength : (ps.rdrop count).length = ps.length - count := by
      rw [List.rdrop, List.length_take, Nat.min_eq_left (Nat.sub_le _ _)]
    rw [List.replicate_succ, listAfter, List.foldl_cons, Change.onList, if_neg hrefused,
      Change.applied, ← listAfter, ih (by omega), List.rdrop_add, Nat.add_comm]

/-- **A change that cannot be saved stays.** A change fails. Then the points are as before exactly
if it was refused, or if it would have left them as they are had it been saved. Whatever is changed
later, and whether it can be saved or not, the points are those of a plain list that the failed
change was made of as well. So points that are to be dropped, and are dropped once more whenever
this fails, are dropped each time. -/
theorem failed_change_stays (store : Store σ) (c : Change) (x : History × σ) {f : Error}
    (hf : (c.make store x).1 = .error f) :
    ((c.make store x).2.1.points = x.1.points ↔
      c.Refused x.1.points ∨ c.Idle x.1.capacity x.1.points) ∧
    (∀ cs, (after store cs (c.make store x).2).1.points =
      listAfter x.1.capacity (c :: cs) x.1.points) ∧
    ∀ k count, c = .removeLast count → 0 < count → (k + 1) * count ≤ x.1.size →
      (after store (List.replicate k c) (c.make store x).2).1.points =
        x.1.points.rdrop ((k + 1) * count) := by
  have hlater : ∀ cs, (after store cs (c.make store x).2).1.points =
      listAfter x.1.capacity (c :: cs) x.1.points := fun cs => points_after store (c :: cs) x
  refine ⟨?_, hlater, ?_⟩
  · rw [Change.history_make]
    by_cases h : c.Refused x.1.points
    · exact iff_of_true (if_pos h) (Or.inl h)
    · rw [or_iff_right h, ← Change.applied_eq_iff h, Change.onList, if_neg h]
  · rintro k count rfl hpos hle
    rw [hlater, ← List.replicate_succ, listAfter_removeLast hpos hle]

/-- The newest of four points is to be dropped. This fails, and fails once more. -/
theorem failed_change_stays_twice :
    let p (n : Nat) : ResumePoint :=
      .new 0 (.ofNat n) (.plain "mysql-bin.000001" (.ofNat n) (.ofNat (n + 1)))
    let full : Store.Faults := { saveHistory := true }
    let h : History := ⟨"source", 10, [p 1, p 2, p 3, p 4]⟩
    let store := Store.memory.faulty
    let x := ((Change.removeLast 1).make store (h, full, .empty)).2
    x.1.points ≠ h.points ∧ (after store [.removeLast 1] x).1.points = [p 1, p 2] := by
  intro p full h store x
  obtain ⟨hiff, -, hagain⟩ := failed_change_stays store (.removeLast 1) (h, full, .empty) rfl
  refine ⟨fun heq => ?_, hagain 1 1 rfl (by decide) (by decide)⟩
  rcases hiff.1 heq with hrefused | hidle
  · exact absurd hrefused (by decide)
  · exact hidle

/-- One point is to be dropped of a history that was loaded, and the disk is full. The point is gone
all the same, and when there is room again the next one goes with it. -/
theorem retried_drop_drops_again :
    let p (n : Nat) : ResumePoint :=
      .new 0 (.ofNat n) (.plain "mysql-bin.000001" (.ofNat n) (.ofNat (n + 1)))
    let m : Memory := ⟨none, [p 1, p 2, p 3, p 4]⟩
    let full : Store.Faults := { saveHistory := true }
    let store := Store.memory.faulty
    ∃ h h' h'', load store "source" 10 ({}, m) = .ok h ∧ h.points = [p 1, p 2, p 3, p 4] ∧
      h.removeLast store 1 (full, m) = (.error Store.fault, h', full, m) ∧
      h'.points = [p 1, p 2, p 3] ∧
      h'.removeLast store 1 ({}, m) = (.ok (some (p 2)), h'', {}, ⟨none, [p 1, p 2]⟩) :=
  ⟨_, _, _, rfl, rfl, rfl, rfl, rfl⟩

end History

end ChangeFeed
