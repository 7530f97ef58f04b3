import ChangeFeed.Error

/-!
# Sets of listeners

Listeners in the order they were added. A listener is in a set at most once, however often it is
added.

* `Listeners.tell`: something that every listener hears;
* `Listeners.ask`: something that a listener may refuse, which keeps it from the listeners after it.

What a listener does, and what a refusal costs, is up to a world `ω` that they act on.
-/

namespace ChangeFeed

/-- How a call that is out of the library's hands ends. -/
inductive Verdict where
  | accepted
  | refused (e : Error)
  /-- The call never came back: its thread is gone. -/
  | crashed
  deriving DecidableEq, Repr

/-- Listeners in the order they were added, none twice. -/
structure Listeners (ι : Type) where
  members : List ι
  nodup : members.Nodup

namespace Listeners

variable {ι ω : Type}

/-- No listeners. -/
def empty : Listeners ι := ⟨[], List.nodup_nil⟩

instance : Inhabited (Listeners ι) := ⟨empty⟩

/-- Adds a listener after the others, unless it is there. -/
def add [DecidableEq ι] (l : ι) (s : Listeners ι) : Listeners ι :=
  if h : l ∈ s.members then s
  else ⟨s.members ++ [l], List.nodup_append.2 ⟨s.nodup, by simp, by grind⟩⟩

/-- Takes a listener away. -/
def remove [DecidableEq ι] (l : ι) (s : Listeners ι) : Listeners ι :=
  ⟨s.members.filter (· ≠ l), s.nodup.filter _⟩

@[simp]
theorem mem_add [DecidableEq ι] {l l' : ι} {s : Listeners ι} :
    l' ∈ (s.add l).members ↔ l' = l ∨ l' ∈ s.members := by
  unfold add
  by_cases h : l ∈ s.members
  · rw [dif_pos h]
    exact ⟨Or.inr, fun h' => h'.elim (fun he => he ▸ h) id⟩
  · rw [dif_neg h]
    simp [or_comm]

@[simp]
theorem mem_remove [DecidableEq ι] {l l' : ι} {s : Listeners ι} :
    l' ∈ (s.remove l).members ↔ l' ≠ l ∧ l' ∈ s.members := by
  simp [remove, and_comm]

@[ext]
theorem ext {s s' : Listeners ι} (h : s.members = s'.members) : s = s' := by
  cases s
  cases s'
  congr

section Others

variable [DecidableEq ι] {l l' : ι} (s : Listeners ι)

theorem members_add (l : ι) :
    (s.add l).members = if l ∈ s.members then s.members else s.members ++ [l] := by
  unfold add
  split <;> rfl

@[simp]
theorem remove_add_self (l : ι) : (s.add l).remove l = s.remove l := by
  ext1
  simp only [remove, members_add]
  split <;> simp

@[simp]
theorem remove_remove_self (l : ι) : (s.remove l).remove l = s.remove l := by
  ext1
  simp [remove]

theorem remove_add_of_ne (h : l' ≠ l) : (s.add l').remove l = (s.remove l).add l' := by
  ext1
  have hmem : l' ∈ (s.remove l).members ↔ l' ∈ s.members := by simp [h]
  rw [members_add]
  simp only [hmem]
  simp only [remove, members_add]
  split <;> simp [h]

theorem remove_comm (l l' : ι) : (s.remove l').remove l = (s.remove l).remove l' := by
  ext1
  simp only [remove, List.filter_filter]
  apply List.filter_congr
  intro _ _
  exact Bool.and_comm _ _

/-- A listener is there once if it is there. -/
theorem count_eq_one (h : l ∈ s.members) : s.members.count l = 1 := by
  rw [s.nodup.count, if_pos h]

end Others

/-- How many listeners there are. -/
def size (s : Listeners ι) : Nat := s.members.length

/-- Lets every listener hear something. -/
def tell (f : ι → ω → ω) (s : Listeners ι) (w : ω) : ω := s.members.foldl (fun w l => f l w) w

/-- Asks one listener after the other until one does not accept. -/
def askEach (f : ι → ω → Verdict × ω) : List ι → ω → Verdict × ω
  | [], w => (.accepted, w)
  | l :: ls, w =>
    match f l w with
    | (.accepted, w) => askEach f ls w
    | r => r

/-- Asks the listeners in order. The first that does not accept decides. -/
def ask (f : ι → ω → Verdict × ω) (s : Listeners ι) (w : ω) : Verdict × ω :=
  askEach f s.members w

end Listeners

end ChangeFeed
