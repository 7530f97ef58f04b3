/-!
# Cutting a text at a character

* `pieces`: the parts between separators; there is always at least one;
* `cutFirst?`, `cutLast?`: the parts before and after the first or the last separator;
* `joinWith`: parts written one after the other with a separator between them.
-/

namespace ChangeFeed.Text

/-- The parts of `cs` between the characters `sep`. -/
def pieces (sep : Char) : List Char → List (List Char)
  | [] => [[]]
  | c :: cs =>
    if c = sep then [] :: pieces sep cs
    else
      match pieces sep cs with
      | [] => [[c]]
      | p :: ps => (c :: p) :: ps

/-- What stands before and after the first `sep`. -/
def cutFirst? (sep : Char) : List Char → Option (List Char × List Char)
  | [] => none
  | c :: cs =>
    if c = sep then some ([], cs)
    else (cutFirst? sep cs).map fun r => (c :: r.1, r.2)

/-- What stands before and after the last `sep`. -/
def cutLast? (sep : Char) : List Char → Option (List Char × List Char)
  | [] => none
  | c :: cs =>
    match cutLast? sep cs with
    | some r => some (c :: r.1, r.2)
    | none => if c = sep then some ([], cs) else none

/-- The parts one after the other, `sep` between each two. -/
def joinWith (sep : List Char) : List (List Char) → List Char
  | [] => []
  | [p] => p
  | p :: q :: ps => p ++ sep ++ joinWith sep (q :: ps)

@[simp] theorem joinWith_cons_cons (sep p q : List Char) (ps : List (List Char)) :
    joinWith sep (p :: q :: ps) = p ++ sep ++ joinWith sep (q :: ps) :=
  rfl

theorem mem_joinWith {c : Char} {sep : List Char} {ps : List (List Char)}
    (h : c ∈ joinWith sep ps) : c ∈ sep ∨ ∃ p ∈ ps, c ∈ p := by
  induction ps with
  | nil => exact absurd h List.not_mem_nil
  | cons p ps ih =>
    cases ps with
    | nil => exact Or.inr ⟨p, List.mem_cons_self, h⟩
    | cons q qs =>
      rw [joinWith_cons_cons, List.mem_append, List.mem_append] at h
      rcases h with (h | h) | h
      · exact Or.inr ⟨p, List.mem_cons_self, h⟩
      · exact Or.inl h
      · exact (ih h).imp_right fun ⟨r, hr, hc⟩ => ⟨r, List.mem_cons_of_mem _ hr, hc⟩

theorem pieces_ne_nil (sep : Char) (cs : List Char) : pieces sep cs ≠ [] := by
  cases cs with
  | nil => simp [pieces]
  | cons c cs =>
    simp only [pieces]
    split
    · simp
    · split <;> simp

theorem pieces_of_not_mem {sep : Char} {cs : List Char} (h : sep ∉ cs) :
    pieces sep cs = [cs] := by
  induction cs with
  | nil => rfl
  | cons c cs ih =>
    rw [List.mem_cons, not_or] at h
    rw [pieces, if_neg fun hc => h.1 hc.symm, ih h.2]

theorem pieces_append {sep : Char} {cs : List Char} (h : sep ∉ cs) (ds : List Char) :
    pieces sep (cs ++ sep :: ds) = cs :: pieces sep ds := by
  induction cs with
  | nil => exact if_pos rfl
  | cons c cs ih =>
    rw [List.mem_cons, not_or] at h
    rw [List.cons_append, pieces, if_neg fun hc => h.1 hc.symm, ih h.2]

/-- Cutting undoes joining when no part holds the separator. -/
theorem pieces_joinWith {sep : Char} {ps : List (List Char)} (hne : ps ≠ [])
    (h : ∀ p ∈ ps, sep ∉ p) : pieces sep (joinWith [sep] ps) = ps := by
  induction ps with
  | nil => exact absurd rfl hne
  | cons p ps ih =>
    have hp := h p List.mem_cons_self
    cases ps with
    | nil => exact pieces_of_not_mem hp
    | cons q qs =>
      have ih := ih (List.cons_ne_nil q qs) fun r hr => h r (List.mem_cons_of_mem _ hr)
      rw [joinWith_cons_cons, List.append_assoc, List.singleton_append, pieces_append hp, ih]

/-- Joining undoes cutting. -/
theorem joinWith_pieces (sep : Char) (cs : List Char) : joinWith [sep] (pieces sep cs) = cs := by
  induction cs with
  | nil => rfl
  | cons c cs ih =>
    rw [pieces]
    cases hq : pieces sep cs with
    | nil => exact absurd hq (pieces_ne_nil sep cs)
    | cons q qs =>
      rw [hq] at ih
      split
      · rename_i hc
        rw [joinWith_cons_cons, ih, hc]
        rfl
      · cases qs with
        | nil => exact congrArg (c :: ·) ih
        | cons r rs => exact congrArg (c :: ·) ih

theorem not_mem_of_mem_pieces {sep : Char} {cs p : List Char} (h : p ∈ pieces sep cs) :
    sep ∉ p := by
  induction cs generalizing p with
  | nil =>
    obtain rfl := List.mem_singleton.1 h
    exact List.not_mem_nil
  | cons c cs ih =>
    rw [pieces] at h
    split at h
    · rcases List.mem_cons.1 h with rfl | h
      · exact List.not_mem_nil
      · exact ih h
    · rename_i hc
      cases hq : pieces sep cs with
      | nil => exact absurd hq (pieces_ne_nil sep cs)
      | cons q qs =>
        rw [hq] at h ih
        rcases List.mem_cons.1 h with rfl | h
        · exact List.not_mem_cons_of_ne_of_not_mem (fun hs => hc hs.symm) (ih List.mem_cons_self)
        · exact ih (List.mem_cons_of_mem _ h)

theorem mem_of_mem_pieces {sep c : Char} {cs p : List Char} (h : p ∈ pieces sep cs)
    (hc : c ∈ p) : c ∈ cs := by
  induction cs generalizing p with
  | nil =>
    obtain rfl := List.mem_singleton.1 h
    exact hc
  | cons d cs ih =>
    rw [pieces] at h
    split at h
    · rcases List.mem_cons.1 h with rfl | h
      · exact absurd hc List.not_mem_nil
      · exact List.mem_cons_of_mem _ (ih h hc)
    · cases hq : pieces sep cs with
      | nil => exact absurd hq (pieces_ne_nil sep cs)
      | cons q qs =>
        rw [hq] at h ih
        rcases List.mem_cons.1 h with rfl | h
        · rcases List.mem_cons.1 hc with rfl | hc
          · exact List.mem_cons_self
          · exact List.mem_cons_of_mem _ (ih List.mem_cons_self hc)
        · exact List.mem_cons_of_mem _ (ih (List.mem_cons_of_mem _ h) hc)

theorem cutFirst?_append {sep : Char} {cs : List Char} (h : sep ∉ cs) (ds : List Char) :
    cutFirst? sep (cs ++ sep :: ds) = some (cs, ds) := by
  induction cs with
  | nil => exact if_pos rfl
  | cons c cs ih =>
    rw [List.mem_cons, not_or] at h
    rw [List.cons_append, cutFirst?, if_neg fun hc => h.1 hc.symm, ih h.2]
    rfl

/-- The cut is at the first separator. -/
theorem eq_append_of_cutFirst? {sep : Char} {cs p ds : List Char}
    (h : cutFirst? sep cs = some (p, ds)) : cs = p ++ sep :: ds ∧ sep ∉ p := by
  induction cs generalizing p with
  | nil => cases h
  | cons c cs ih =>
    rw [cutFirst?] at h
    split at h
    · rename_i hc
      cases h
      exact ⟨hc ▸ rfl, List.not_mem_nil⟩
    · rename_i hc
      obtain ⟨⟨q, es⟩, hq, hr⟩ := Option.map_eq_some_iff.1 h
      cases hr
      obtain ⟨rfl, hs⟩ := ih hq
      exact ⟨rfl, List.not_mem_cons_of_ne_of_not_mem (fun hs => hc hs.symm) hs⟩

theorem cutFirst?_eq_some {sep : Char} {cs p ds : List Char} :
    cutFirst? sep cs = some (p, ds) ↔ cs = p ++ sep :: ds ∧ sep ∉ p := by
  refine ⟨eq_append_of_cutFirst?, ?_⟩
  rintro ⟨rfl, hp⟩
  exact cutFirst?_append hp ds

theorem cutFirst?_eq_none {sep : Char} {cs : List Char} : cutFirst? sep cs = none ↔ sep ∉ cs := by
  rw [Option.eq_none_iff_forall_ne_some]
  constructor
  · intro h hs
    obtain ⟨p, ds, rfl, hp⟩ := List.eq_append_cons_of_mem hs
    exact h _ (cutFirst?_append hp ds)
  · rintro h ⟨p, ds⟩ hcut
    obtain ⟨rfl, -⟩ := eq_append_of_cutFirst? hcut
    exact h (by simp)

theorem cutLast?_of_not_mem {sep : Char} {cs : List Char} (h : sep ∉ cs) :
    cutLast? sep cs = none := by
  induction cs with
  | nil => rfl
  | cons c cs ih =>
    rw [List.mem_cons, not_or] at h
    simp only [cutLast?, ih h.2]
    exact if_neg fun hc => h.1 hc.symm

theorem cutLast?_append {sep : Char} {ds : List Char} (h : sep ∉ ds) (cs : List Char) :
    cutLast? sep (cs ++ sep :: ds) = some (cs, ds) := by
  induction cs with
  | nil => simp only [List.nil_append, cutLast?, cutLast?_of_not_mem h, if_true]
  | cons c cs ih => simp only [List.cons_append, cutLast?, ih]

theorem eq_append_of_cutLast? {sep : Char} {cs p ds : List Char}
    (h : cutLast? sep cs = some (p, ds)) : cs = p ++ sep :: ds := by
  induction cs generalizing p with
  | nil => cases h
  | cons c cs ih =>
    rw [cutLast?] at h
    split at h
    · rename_i r hr
      cases h
      rw [ih hr]
      rfl
    · split at h
      · rename_i hc
        cases h
        rw [hc]
        rfl
      · cases h

end ChangeFeed.Text
