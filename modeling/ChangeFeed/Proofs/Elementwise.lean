import ChangeFeed.Data.Result
import Mathlib.Data.List.Forall2

/-!
# Results for the elements of a list

A step for each element of a list succeeds when each of them does, and the results correspond to the
elements one by one (`mapM_eq_ok`). What holds of corresponding elements is told by
`mem_of_forall₂`, and when there are such elements by `exists_forall₂`.
-/

namespace ChangeFeed

variable {ε α β : Type}

theorem mapM_eq_ok {f : α → Except ε β} {as : List α} {bs : List β} :
    as.mapM f = .ok bs ↔ List.Forall₂ (fun a b => f a = .ok b) as bs := by
  induction as generalizing bs with
  | nil =>
    rw [List.forall₂_nil_left_iff]
    exact ⟨fun h => (Except.ok.inj h).symm, fun h => h ▸ rfl⟩
  | cons a as ih =>
    rw [List.mapM_cons, List.forall₂_cons_left_iff, bind_eq_ok]
    refine exists_congr fun b => ?_
    rw [bind_eq_ok]
    constructor
    · rintro ⟨hb, cs, hcs, h⟩
      exact ⟨cs, hb, ih.1 hcs, (Except.ok.inj h).symm⟩
    · rintro ⟨cs, hb, hcs, rfl⟩
      exact ⟨hb, cs, ih.2 hcs, rfl⟩

theorem mem_of_forall₂ {R : α → β → Prop} {as : List α} {bs : List β} (h : List.Forall₂ R as bs) :
    (∀ a ∈ as, ∃ b ∈ bs, R a b) ∧ ∀ b ∈ bs, ∃ a ∈ as, R a b := by
  induction h with
  | nil => simp
  | cons hab _ ih =>
    simp only [List.forall_mem_cons, List.exists_mem_cons_iff]
    exact ⟨⟨Or.inl hab, fun c hc => Or.inr (ih.1 c hc)⟩,
      Or.inl hab, fun c hc => Or.inr (ih.2 c hc)⟩

theorem exists_forall₂ {R : α → β → Prop} {as : List α} :
    (∃ bs, List.Forall₂ R as bs) ↔ ∀ a ∈ as, ∃ b, R a b := by
  induction as with
  | nil => simp
  | cons a as ih =>
    simp only [List.forall₂_cons_left_iff, List.forall_mem_cons, ← ih]
    constructor
    · rintro ⟨_, b, bs, hb, hbs, rfl⟩
      exact ⟨⟨b, hb⟩, bs, hbs⟩
    · rintro ⟨⟨b, hb⟩, bs, hbs⟩
      exact ⟨_, b, bs, hb, hbs, rfl⟩

end ChangeFeed
