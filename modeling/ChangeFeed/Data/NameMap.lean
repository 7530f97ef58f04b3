/-!
# Maps from names, in the order of the names

A map from texts to values, kept as a list of entries in strictly increasing order of code points.
Two maps are equal as soon as they answer every look-up alike, whatever the order of the insertions
that made them.

**State.** `NameMap`: the entries, with the proof that the names increase.

**Operations.** `empty`, `get?`, `contains`, `insert`, `ofList` (a later entry of a name replaces an
earlier one), `names`, `values`.
-/

namespace ChangeFeed

/-- Entries under increasing names. -/
structure NameMap (α : Type) where
  entries : List (String × α)
  increasing : entries.Pairwise (fun a b => a.1 < b.1)

namespace NameMap

variable {α : Type}

theorem ext_entries {m₁ m₂ : NameMap α} (h : m₁.entries = m₂.entries) : m₁ = m₂ := by
  cases m₁; cases m₂; simp only at h; subst h; rfl

instance [DecidableEq α] : DecidableEq (NameMap α) := fun m₁ m₂ =>
  if h : m₁.entries = m₂.entries then isTrue (ext_entries h)
  else isFalse fun e => h (e ▸ rfl)

/-- The map without entries. -/
def empty : NameMap α := ⟨[], List.Pairwise.nil⟩

instance : Inhabited (NameMap α) := ⟨empty⟩

/-- Puts `v` under `k` into entries whose names increase. -/
def put (k : String) (v : α) : List (String × α) → List (String × α)
  | [] => [(k, v)]
  | e :: es =>
    if k < e.1 then (k, v) :: e :: es
    else if k = e.1 then (k, v) :: es
    else e :: put k v es

theorem mem_put {k : String} {v : α} {es : List (String × α)} {x : String × α}
    (h : x ∈ put k v es) : x = (k, v) ∨ x ∈ es := by
  induction es with
  | nil => simpa [put] using h
  | cons e es ih =>
    simp only [put] at h
    split at h
    · simpa using h
    · split at h
      · rcases List.mem_cons.1 h with h | h
        · exact Or.inl h
        · exact Or.inr (List.mem_cons_of_mem _ h)
      · rcases List.mem_cons.1 h with h | h
        · exact Or.inr (h ▸ List.mem_cons_self)
        · exact (ih h).imp_right (List.mem_cons_of_mem _)

theorem increasing_put {k : String} {v : α} {es : List (String × α)}
    (h : es.Pairwise (fun a b => a.1 < b.1)) : (put k v es).Pairwise (fun a b => a.1 < b.1) := by
  induction es with
  | nil => simp [put]
  | cons e es ih =>
    have he := List.pairwise_cons.1 h
    simp only [put]
    split
    · rename_i hlt
      refine List.pairwise_cons.2 ⟨?_, h⟩
      intro x hx
      rcases List.mem_cons.1 hx with rfl | hx
      · exact hlt
      · exact String.lt_trans hlt (he.1 x hx)
    · rename_i hlt
      split
      · rename_i heq
        exact List.pairwise_cons.2 ⟨fun x hx => heq ▸ he.1 x hx, he.2⟩
      · rename_i hne
        refine List.pairwise_cons.2 ⟨?_, ih he.2⟩
        intro x hx
        rcases mem_put hx with rfl | hx
        · rcases Std.le_iff_lt_or_eq.1 (Std.not_lt.1 hlt) with hl | hl
          · exact hl
          · exact absurd hl.symm hne
        · exact he.1 x hx

/-- The map with `v` under `k`, in place of what stood there. -/
def insert (m : NameMap α) (k : String) (v : α) : NameMap α :=
  ⟨put k v m.entries, increasing_put m.increasing⟩

/-- The entries put in one after the other. -/
def ofList (es : List (String × α)) : NameMap α :=
  es.foldl (fun m e => m.insert e.1 e.2) empty

/-- What stands under `k`. -/
def get? (m : NameMap α) (k : String) : Option α :=
  (m.entries.find? (·.1 == k)).map (·.2)

theorem find?_put_self (k : String) (v : α) (es : List (String × α)) :
    (put k v es).find? (·.1 == k) = some (k, v) := by
  induction es with
  | nil => simp [put]
  | cons e es ih =>
    rw [put]
    split
    · simp
    · split
      · simp
      · rename_i hne
        rw [List.find?_cons_of_neg (by simpa using fun h => hne h.symm), ih]

theorem find?_put_of_ne {k k' : String} (h : k' ≠ k) (v : α) (es : List (String × α)) :
    (put k v es).find? (·.1 == k') = es.find? (·.1 == k') := by
  have hk : (k == k') = false := by simpa using h.symm
  induction es with
  | nil => simp only [put, List.find?_cons, hk]
  | cons e es ih =>
    rw [put]
    split
    · rw [List.find?_cons, hk]
    · split
      · rename_i he
        rw [List.find?_cons, List.find?_cons, hk, ← he, hk]
      · rw [List.find?_cons, List.find?_cons, ih]

theorem get?_insert (m : NameMap α) (k k' : String) (v : α) :
    (m.insert k v).get? k' = if k' = k then some v else m.get? k' := by
  rw [get?, insert]
  split
  · rename_i h
    rw [h, find?_put_self]
    rfl
  · rename_i h
    rw [find?_put_of_ne h]
    rfl

theorem get?_eq_some_iff {m : NameMap α} {k : String} {v : α} :
    m.get? k = some v ↔ (k, v) ∈ m.entries := by
  obtain ⟨es, hs⟩ := m
  simp only [get?]
  induction es with
  | nil => simp
  | cons e es ih =>
    obtain ⟨he, hes⟩ := List.pairwise_cons.1 hs
    by_cases hk : e.1 = k
    · rw [List.find?_cons_of_pos (by simpa using hk), Option.map_some, Option.some.injEq,
        List.mem_cons]
      constructor
      · rintro rfl
        exact Or.inl (hk ▸ rfl)
      · rintro (h | h)
        · rw [← h]
        · exact absurd (he _ h) (by rw [hk]; exact String.lt_irrefl k)
    · rw [List.find?_cons_of_neg (by simpa using hk), ih hes, List.mem_cons]
      exact ⟨Or.inr, fun h => h.resolve_left fun h => hk (h ▸ rfl)⟩

/-- Entries under increasing names are told apart by their members. -/
theorem entries_ext {es fs : List (String × α)} (he : es.Pairwise fun a b => a.1 < b.1)
    (hf : fs.Pairwise fun a b => a.1 < b.1) (h : ∀ x, x ∈ es ↔ x ∈ fs) : es = fs := by
  induction es generalizing fs with
  | nil =>
    cases fs with
    | nil => rfl
    | cons f fs => exact absurd ((h f).2 List.mem_cons_self) List.not_mem_nil
  | cons e es ih =>
    cases fs with
    | nil => exact absurd ((h e).1 List.mem_cons_self) List.not_mem_nil
    | cons f fs =>
      obtain ⟨hle, hes⟩ := List.pairwise_cons.1 he
      obtain ⟨hlf, hfs⟩ := List.pairwise_cons.1 hf
      have hef : e = f := by
        rcases List.mem_cons.1 ((h e).1 List.mem_cons_self) with h₁ | h₁
        · exact h₁
        · rcases List.mem_cons.1 ((h f).2 List.mem_cons_self) with h₂ | h₂
          · exact h₂.symm
          · exact absurd (String.lt_trans (hlf e h₁) (hle f h₂)) (String.lt_irrefl _)
      subst hef
      rw [ih hes hfs fun x => ?_]
      -- The first entry is in neither tail.
      constructor
      · intro hx
        refine (List.mem_cons.1 ((h x).1 (List.mem_cons_of_mem _ hx))).resolve_left ?_
        rintro rfl
        exact String.lt_irrefl _ (hle x hx)
      · intro hx
        refine (List.mem_cons.1 ((h x).2 (List.mem_cons_of_mem _ hx))).resolve_left ?_
        rintro rfl
        exact String.lt_irrefl _ (hlf x hx)

theorem ext_get? {m₁ m₂ : NameMap α} (h : ∀ k, m₁.get? k = m₂.get? k) : m₁ = m₂ := by
  refine ext_entries (entries_ext m₁.increasing m₂.increasing fun x => ?_)
  obtain ⟨k, v⟩ := x
  rw [← get?_eq_some_iff, ← get?_eq_some_iff, h]

/-- Putting in what is there changes nothing. -/
theorem insert_eq_self {m : NameMap α} {k : String} {v : α} (h : m.get? k = some v) :
    m.insert k v = m := by
  refine ext_get? fun l => ?_
  rw [get?_insert]
  split
  · rename_i hl
    rw [hl, h]
  · rfl

theorem put_of_forall_lt {k : String} {v : α} {es : List (String × α)} (h : ∀ e ∈ es, e.1 < k) :
    put k v es = es ++ [(k, v)] := by
  induction es with
  | nil => rfl
  | cons e es ih =>
    have he := h e List.mem_cons_self
    have hlt : ¬k < e.1 := fun hk => String.lt_irrefl k (String.lt_trans hk he)
    have hne : k ≠ e.1 := fun hk => String.lt_irrefl k (hk ▸ he)
    rw [put, if_neg hlt, if_neg hne, ih fun f hf => h f (List.mem_cons_of_mem _ hf),
      List.cons_append]

theorem entries_foldl_insert {es : List (String × α)} {m : NameMap α}
    (h : (m.entries ++ es).Pairwise fun a b => a.1 < b.1) :
    (es.foldl (fun m e => m.insert e.1 e.2) m).entries = m.entries ++ es := by
  induction es generalizing m with
  | nil => exact (List.append_nil _).symm
  | cons e es ih =>
    have hput : (m.insert e.1 e.2).entries = m.entries ++ [e] :=
      put_of_forall_lt fun a ha => (List.pairwise_append.1 h).2.2 a ha e List.mem_cons_self
    rw [← List.singleton_append, ← List.append_assoc, ← hput] at h ⊢
    exact ih h

/-- The entries of a map make it up. -/
theorem ofList_entries (m : NameMap α) : ofList m.entries = m :=
  ext_entries (entries_foldl_insert m.increasing)

theorem get?_foldl_insert (es : List (String × α)) (m : NameMap α) (k : String) :
    (es.foldl (fun m e => m.insert e.1 e.2) m).get? k =
      ((es.reverse.find? (·.1 == k)).map (·.2)).or (m.get? k) := by
  induction es generalizing m with
  | nil => rfl
  | cons e es ih =>
    rw [List.foldl_cons, ih, get?_insert, List.reverse_cons, List.find?_append, Option.map_or,
      Option.or_assoc]
    by_cases hk : k = e.1
    · rw [if_pos hk, List.find?_cons_of_pos (by simp [hk])]
      rfl
    · rw [if_neg hk, List.find?_cons_of_neg (by simpa using Ne.symm hk)]
      rfl

/-- The last entry of a name stands under it. -/
theorem get?_ofList (es : List (String × α)) (k : String) :
    (ofList es).get? k = (es.reverse.find? (·.1 == k)).map (·.2) := by
  rw [ofList, get?_foldl_insert]
  exact Option.or_none

/-- Does something stand under `k`? -/
def contains (m : NameMap α) (k : String) : Bool :=
  (m.get? k).isSome

/-- The names, increasing. -/
def names (m : NameMap α) : List String :=
  m.entries.map (·.1)

/-- The values in the order of their names. -/
def values (m : NameMap α) : List α :=
  m.entries.map (·.2)

/-- The map with every value replaced by its image. -/
def map {β : Type} (f : α → β) (m : NameMap α) : NameMap β :=
  ⟨m.entries.map fun e => (e.1, f e.2), by
    rw [List.pairwise_map]; exact m.increasing⟩

theorem get?_map {β : Type} (f : α → β) (m : NameMap α) (k : String) :
    (m.map f).get? k = (m.get? k).map f := by
  simp only [get?, map, List.find?_map, Option.map_map]
  rfl

end NameMap

end ChangeFeed
