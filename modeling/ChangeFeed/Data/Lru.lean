/-!
# Caches that forget what was used least recently

A cache of bounded size. Putting an entry in and getting it out make it the most recent one; looking
whether it is there does not. A new entry in a full cache takes the place of the least recent one.
-/

namespace ChangeFeed

/-- A cache: its entries, the most recent first. -/
structure Lru (κ ν : Type) where
  capacity : Nat
  entries : List (κ × ν)
  deriving DecidableEq, Repr, Inhabited

namespace Lru

variable {κ ν : Type} [DecidableEq κ]

/-- The cache without entries. -/
def empty (capacity : Nat) : Lru κ ν := ⟨capacity, []⟩

/-- The entries of other keys. -/
def others (c : Lru κ ν) (k : κ) : List (κ × ν) := c.entries.filter fun e => decide (e.1 ≠ k)

/-- What is cached under a key; the order of use stays as it is. -/
def peek? (c : Lru κ ν) (k : κ) : Option ν := c.entries.lookup k

/-- Is something cached under a key? -/
def contains (c : Lru κ ν) (k : κ) : Bool := (c.peek? k).isSome

/-- What is cached under a key, which becomes the most recent one. -/
def get (c : Lru κ ν) (k : κ) : Option ν × Lru κ ν :=
  match c.peek? k with
  | some v => (some v, { c with entries := (k, v) :: c.others k })
  | none => (none, c)

/-- Caches a value under a key, which becomes the most recent one, and gives back what it replaces.
The least recent entry makes room for a new key. -/
def put (c : Lru κ ν) (k : κ) (v : ν) : Option ν × Lru κ ν :=
  match c.peek? k with
  | some old => (some old, { c with entries := (k, v) :: c.others k })
  | none => (none, { c with entries := (k, v) :: c.entries.take (c.capacity - 1) })

/-- Forgets a key. -/
def erase (c : Lru κ ν) (k : κ) : Lru κ ν := { c with entries := c.others k }

/-- Forgets everything. -/
def clear (c : Lru κ ν) : Lru κ ν := { c with entries := [] }

/-- How many entries there are. -/
def size (c : Lru κ ν) : Nat := c.entries.length

/-! ## What is cached -/

theorem lookup_filter_ne {k k' : κ} (hne : k' ≠ k) (es : List (κ × ν)) :
    (es.filter fun e => decide (e.1 ≠ k)).lookup k' = es.lookup k' := by
  induction es with
  | nil => rfl
  | cons e es ih =>
    obtain ⟨a, v⟩ := e
    simp only [ne_eq, decide_not] at ih ⊢
    by_cases ha : a = k
    · subst ha
      simp [List.lookup_cons, beq_eq_false_iff_ne.2 hne, ih]
    · simp [List.lookup_cons, ha, ih]

theorem lookup_of_take {k : κ} {v : ν} {n : Nat} {es : List (κ × ν)}
    (h : (es.take n).lookup k = some v) : es.lookup k = some v := by
  induction es generalizing n with
  | nil => simp at h
  | cons e es ih =>
    cases n with
    | zero => cases h
    | succ n =>
      rw [List.take_succ_cons, List.lookup_cons] at h
      rw [List.lookup_cons]
      cases hk : k == e.1 with
      | true => rwa [hk] at h
      | false =>
        rw [hk] at h
        exact ih h

theorem fst_get (c : Lru κ ν) (k : κ) : (c.get k).1 = c.peek? k := by
  unfold get
  cases c.peek? k <;> rfl

/-- Getting an entry out forgets nothing. -/
@[simp] theorem peek?_get (c : Lru κ ν) (k k' : κ) : (c.get k).2.peek? k' = c.peek? k' := by
  unfold get
  cases h : c.peek? k with
  | none => rfl
  | some v =>
    show List.lookup k' ((k, v) :: c.others k) = c.peek? k'
    rw [List.lookup_cons]
    by_cases hk : k' = k
    · subst hk
      rw [beq_self_eq_true, h]
    · rw [beq_eq_false_iff_ne.2 hk]
      exact lookup_filter_ne hk c.entries

theorem fst_put (c : Lru κ ν) (k : κ) (v : ν) : (c.put k v).1 = c.peek? k := by
  unfold put
  cases c.peek? k <;> rfl

@[simp] theorem peek?_put_self (c : Lru κ ν) (k : κ) (v : ν) : (c.put k v).2.peek? k = some v := by
  unfold put
  cases c.peek? k <;> simp [peek?]

/-- What is cached under another key after putting an entry in was cached before. -/
theorem peek?_of_put {c : Lru κ ν} {k k' : κ} {v w : ν} (hne : k' ≠ k)
    (h : (c.put k v).2.peek? k' = some w) : c.peek? k' = some w := by
  have hbeq : (k' == k) = false := beq_eq_false_iff_ne.2 hne
  unfold put at h
  cases hp : c.peek? k with
  | none =>
    rw [hp] at h
    simp only [peek?, List.lookup_cons, hbeq] at h
    exact lookup_of_take h
  | some old =>
    rw [hp] at h
    simp only [peek?, List.lookup_cons, hbeq] at h
    rwa [others, lookup_filter_ne hne] at h

theorem peek?_erase (c : Lru κ ν) (k k' : κ) :
    (c.erase k).peek? k' = if k' = k then none else c.peek? k' := by
  by_cases hk : k' = k
  · subst hk
    rw [if_pos rfl]
    refine List.lookup_eq_none_iff.2 fun e he => bne_iff_ne.2 (Ne.symm ?_)
    exact of_decide_eq_true (List.mem_filter.1 he).2
  · rw [if_neg hk, peek?, erase, others, lookup_filter_ne hk, peek?]

/-- What is cached after forgetting a key was cached before. -/
theorem peek?_of_erase {c : Lru κ ν} {k k' : κ} {w : ν} (h : (c.erase k).peek? k' = some w) :
    c.peek? k' = some w := by
  rw [peek?_erase] at h
  split at h
  · cases h
  · exact h

end Lru

end ChangeFeed
