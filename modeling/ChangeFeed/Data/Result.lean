/-!
# Results that may be failures

* `bind_eq_ok`: two steps in a row succeed when the first does and then the second;
* `mapM_map`: reading each element undoes writing each element;
* `exists_of_mapM`: whatever is among the results was read from something.
-/

namespace ChangeFeed

variable {ε α β : Type}

theorem bind_eq_ok {x : Except ε α} {f : α → Except ε β} {b : β} :
    x >>= f = .ok b ↔ ∃ a, x = .ok a ∧ f a = .ok b := by
  cases x with
  | error e =>
    constructor
    · intro h
      cases h
    · rintro ⟨a, h, -⟩
      cases h
  | ok a =>
    constructor
    · exact fun h => ⟨a, rfl, h⟩
    · rintro ⟨a', h, hf⟩
      cases h
      exact hf

theorem mapM_map {m : Type → Type} [Monad m] [LawfulMonad m] {f : β → m α} {g : α → β}
    {as : List α} (h : ∀ a ∈ as, f (g a) = pure a) : (as.map g).mapM f = pure as := by
  induction as with
  | nil => rfl
  | cons a as ih =>
    rw [List.map_cons, List.mapM_cons, h a List.mem_cons_self, pure_bind,
      ih fun b hb => h b (List.mem_cons_of_mem _ hb), pure_bind]

theorem exists_of_mapM {f : α → Option β} {as : List α} {bs : List β} (h : as.mapM f = some bs) :
    ∀ b ∈ bs, ∃ a, f a = some b := by
  induction as generalizing bs with
  | nil =>
    obtain rfl : [] = bs := Option.some.inj h
    exact List.forall_mem_nil _
  | cons a as ih =>
    simp only [List.mapM_cons, bind, Option.bind_eq_some_iff] at h
    obtain ⟨c, hc, cs, hcs, hbs⟩ := h
    obtain rfl : c :: cs = bs := Option.some.inj hbs
    exact List.forall_mem_cons.2 ⟨⟨a, hc⟩, ih hcs⟩

end ChangeFeed
