import ChangeFeed.Progress.Store

/-!
# History of resume points

The resume points of a source, oldest first, of which only the newest are kept. Every change is
saved at once.

**Operations.** `load`; `add`, a newer point; `removeLast`, back to an older one; `clear`. Each of
them changes the history first and saves it then, so a failure to save leaves the change in place.
-/

namespace ChangeFeed

/-- The resume points of a source, oldest first. -/
structure History where
  /-- Whose history it is. -/
  name : String
  capacity : Nat
  points : List ResumePoint
  deriving DecidableEq, Inhabited

namespace History

variable {σ : Type}

/-- The last `n` elements of a list. -/
def newest {α : Type} (n : Nat) (xs : List α) : List α := xs.drop (xs.length - n)

theorem length_newest_le {α : Type} (n : Nat) (xs : List α) : (newest n xs).length ≤ n := by
  rw [newest, List.length_drop]
  omega

theorem newest_of_length_le {α : Type} {n : Nat} {xs : List α} (h : xs.length ≤ n) :
    newest n xs = xs := by
  rw [newest, Nat.sub_eq_zero_of_le h, List.drop_zero]

/-- If anything is kept, the last element is. -/
theorem getLast?_newest {α : Type} {n : Nat} (h : n ≠ 0) (xs : List α) :
    (newest n xs).getLast? = xs.getLast? := by
  rw [newest, List.getLast?_drop]
  split
  · cases xs with
    | nil => rfl
    | cons x xs =>
      rw [List.length_cons] at *
      omega
  · rfl

/-- The history that a store holds, without the points that are too many. -/
def load (store : Store σ) (name : String) (capacity : Nat) (s : σ) : Except Error History :=
  if capacity = 0 then
    .error (.illegalState ("state history of " ++ name ++ " must keep at least one state"))
  else (store.readHistory s).map fun ps => ⟨name, capacity, newest capacity ps⟩

/-- The newest point. -/
def last? (h : History) : Option ResumePoint := h.points.getLast?

/-- How many points there are. -/
def size (h : History) : Nat := h.points.length

/-- Saves a history after a change. -/
def save (store : Store σ) (h : History) (s : σ) : Except Error Unit × History × σ :=
  let r := store.saveHistory h.points s
  (r.1, h, r.2)

/-- Adds a point after the newest one. -/
def add (store : Store σ) (p : ResumePoint) (h : History) (s : σ) :
    Except Error Unit × History × σ :=
  save store { h with points := newest h.capacity (h.points ++ [p]) } s

/-- The history with a newer point. -/
def remember (p : ResumePoint) (h : History) : History :=
  { h with points := newest h.capacity (h.points ++ [p]) }

theorem add_eq (store : Store σ) (p : ResumePoint) (h : History) (s : σ) :
    h.add store p s = ((store.saveHistory (h.remember p).points s).1, h.remember p,
      (store.saveHistory (h.remember p).points s).2) :=
  rfl

theorem size_remember_le (p : ResumePoint) (h : History) : (h.remember p).size ≤ h.capacity :=
  length_newest_le _ _

theorem size_remember_le_succ (p : ResumePoint) (h : History) :
    (h.remember p).size ≤ h.size + 1 := by
  rw [size, remember, newest, List.length_drop, List.length_append]
  exact Nat.sub_le _ _

theorem last?_remember (p : ResumePoint) {h : History} (hc : h.capacity ≠ 0) :
    (h.remember p).last? = some p := by
  rw [last?, remember, getLast?_newest hc, List.getLast?_append]
  rfl

/-- Drops the newest points and gives the one that is the newest then. -/
def removeLast (store : Store σ) (count : Nat) (h : History) (s : σ) :
    Except Error (Option ResumePoint) × History × σ :=
  if count = 0 then (.error (.illegalState "count should be greater than 0"), h, s)
  else if h.size < count then
    (.error (.illegalState
      ("cannot remove " ++ Text.decimal count ++ " states from history of " ++ h.name ++ " with " ++
        Text.decimal h.size ++ " states")), h, s)
  else
    let h := { h with points := h.points.take (h.size - count) }
    let (r, h, s) := save store h s
    (r.map fun _ => h.last?, h, s)

/-- Drops all points. -/
def clear (store : Store σ) (h : History) (s : σ) : Except Error Unit × History × σ :=
  save store { h with points := [] } s

end History

end ChangeFeed
