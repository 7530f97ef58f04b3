import ChangeFeed.Proofs.Wire.Schema
import Mathlib.Order.Bounds.Defs
import Mathlib.Order.BooleanAlgebra.Basic

/-!
# Differences of rows

The changed columns of two images are the names under which one image has to be corrected to say
what the other says.

**Patches** (`NameMap.patch`). Taking the names of a set over from another map: what the other map
lacks is removed, the rest is set. A set of names is given by its test.

**Differences** (`Row.contains_changedColumns`). A name is among the changed columns exactly if the
images do not have the same value under it. One pass over each image finds all of these names, and
no others.

Main result: `Row.least_patch_is_difference`.
-/

namespace ChangeFeed

namespace NameMap

variable {α : Type}

/-- The entries under the names of a set. -/
def only (U : String → Bool) (m : NameMap α) : NameMap α :=
  ⟨m.entries.filter fun e => U e.1, m.increasing.filter _⟩

/-- The names of a set are taken over from `new`: those that `new` lacks are removed, the others are
set to what `new` has. -/
def patch (U : String → Bool) (m new : NameMap α) : NameMap α :=
  (new.only U).entries.foldl (fun m e => m.insert e.1 e.2)
    (m.only fun n => !(U n && !new.contains n))

theorem get?_only (U : String → Bool) (m : NameMap α) (k : String) :
    (m.only U).get? k = if U k = true then m.get? k else none := by
  apply Option.ext
  intro v
  rw [get?_eq_some_iff, only, List.mem_filter, ← get?_eq_some_iff]
  split <;> simp_all

theorem get?_patch (U : String → Bool) (m new : NameMap α) (k : String) :
    (m.patch U new).get? k = if U k = true then new.get? k else m.get? k := by
  rw [patch, get?_foldl_insert, ← get?_ofList, ofList_entries, get?_only, get?_only, contains]
  cases U k <;> cases new.get? k <;> simp

/-- Patching leads to the other map just if no name outside of the set needs it. -/
theorem patch_eq_iff {U : String → Bool} {m new : NameMap α} :
    m.patch U new = new ↔ ∀ k, m.get? k ≠ new.get? k → U k = true := by
  constructor
  · intro h k hk
    by_contra hU
    apply hk
    rw [← h, get?_patch, if_neg hU]
  · intro h
    apply ext_get?
    intro k
    rw [get?_patch]
    split
    · rfl
    · rename_i hU
      exact not_imp_comm.1 (h k) hU

end NameMap

theorem NameSet.contains_ofNames {names : List String} {n : String} :
    (ofNames names).contains n = true ↔ n ∈ names := by
  rw [ofNames, NameMap.contains, NameMap.get?_ofList, Option.isSome_map, List.find?_isSome]
  simp

theorem NameSet.ext_contains {s t : NameSet} (h : ∀ n, s.contains n = true ↔ t.contains n = true) :
    s = t := by
  apply NameMap.ext_get?
  intro n
  have hn := h n
  rw [NameMap.contains, NameMap.contains] at hn
  cases hs : s.get? n <;> cases ht : t.get? n <;> simp_all

namespace Row

variable {a b c : Row}

/-- The values by name. -/
def values (r : Row) : NameMap Value := r.cells.map (·.value)

theorem get?_values (r : Row) (n : String) : r.values.get? n = r.value? n :=
  NameMap.get?_map _ _ n

theorem Exact.isExact_of_cell? (h : a.Exact) {n : String} {x : Cell} (hx : a.cell? n = some x) :
    x.value.isExact = true :=
  h (n, x) (NameMap.get?_eq_some_iff.1 hx)

/-! ## The changed columns -/

/-- The first pass finds a name that the second image lacks or has another value under, the second
pass one that the first image lacks. -/
theorem found_in_pass_iff {n : String} : (a.changedColumns b).contains n = true ↔
    (∃ x, a.cell? n = some x ∧ differsFrom (n, x) b = true) ∨
      (∃ y, b.cell? n = some y ∧ a.cell? n = none) := by
  have hmem : ∀ (r : Row) x, r.cell? n = some x ↔ (n, x) ∈ r.cells.entries :=
    fun _ _ => NameMap.get?_eq_some_iff
  rw [changedColumns, NameSet.contains_ofNames, List.mem_append]
  simp only [List.mem_map, List.mem_filter, Prod.exists, exists_and_right, exists_eq_right,
    Option.isNone_iff_eq_none, hmem]

/-- The changed columns are the names under which the images do not have the same value. -/
theorem contains_changedColumns (hb : b.Exact) {n : String} :
    (a.changedColumns b).contains n = true ↔ a.value? n ≠ b.value? n := by
  rw [found_in_pass_iff, value?, value?]
  cases a.cell? n with
  | none => cases b.cell? n <;> simp
  | some x =>
    cases hy : b.cell? n with
    | none => simp [differsFrom, hy]
    | some y =>
      have hdiffers : differsFrom (n, x) b = true ↔ y.value ≠ x.value := by
        rw [ne_eq, ← Value.same_iff (hb.isExact_of_cell? hy)]
        simp [differsFrom, hy]
      simp only [hdiffers, Option.some.injEq, exists_eq_left', Option.map_some]
      simp [eq_comm]

theorem changedColumns_eq_empty_iff (hb : b.Exact) :
    a.changedColumns b = .empty ↔ a.values = b.values := by
  constructor
  · intro h
    apply NameMap.ext_get?
    intro n
    rw [get?_values, get?_values]
    by_contra hne
    have hn := (contains_changedColumns hb).2 hne
    rw [h] at hn
    cases hn
  · intro h
    apply NameSet.ext_contains
    intro n
    rw [contains_changedColumns hb, ← get?_values, ← get?_values, h]
    simp [NameMap.contains, NameMap.get?, NameMap.empty]

/-- **The changed columns are an exact difference.** Rows whose values are no floating-point numbers
are given. Of all sets of names, the changed columns of two rows are the least one that makes the
values of the first row those of the second, when its names are taken over from the second row. So
the two rows can change places, rows without changed columns have the same values under the same
names, and what changes over two steps changes in one of them. -/
theorem least_patch_is_difference (ha : a.Exact) (hb : b.Exact) (hc : c.Exact) :
    IsLeast {U | a.values.patch U b.values = b.values} (a.changedColumns b).contains ∧
    a.changedColumns b = b.changedColumns a ∧
    (a.changedColumns b = .empty ↔ a.values = b.values) ∧
    ∀ n, (a.changedColumns c).contains n = true →
      (a.changedColumns b).contains n = true ∨ (b.changedColumns c).contains n = true := by
  refine ⟨⟨?_, ?_⟩, ?_, changedColumns_eq_empty_iff hb, ?_⟩
  · -- The changed columns are such a set.
    rw [Set.mem_ofPred_eq, NameMap.patch_eq_iff]
    intro n hn
    rw [get?_values, get?_values] at hn
    exact (contains_changedColumns hb).2 hn
  · -- And such a set holds them.
    intro U hU n hn
    rw [contains_changedColumns hb, ← get?_values, ← get?_values] at hn
    exact NameMap.patch_eq_iff.1 hU n hn
  · apply NameSet.ext_contains
    intro n
    rw [contains_changedColumns hb, contains_changedColumns ha, ne_comm]
  · intro n hn
    rw [contains_changedColumns hc] at hn
    rw [contains_changedColumns hb, contains_changedColumns hc]
    by_contra hsame
    push Not at hsame
    exact hn (hsame.1.trans hsame.2)

/-- The first two rows have the same bytes under `x`, once as a blob and once not. The third row has
a column of its own. -/
theorem least_patch_is_difference_bytes :
    let t : Table := ⟨7, "a", "shop", [⟨"y", .varChar, false, 0⟩, ⟨"x", .blob, true, 1⟩], ["x"]⟩
    let a := ofValues t [.null, .blob [1, 2]]
    let b := ofCells t [⟨⟨"x", .blob, true, 1⟩, .binary [1, 2]⟩, ⟨⟨"y", .varChar, false, 0⟩, .null⟩]
    let c := ofCells t [⟨⟨"z", .long, false, 2⟩, .long 5⟩, ⟨⟨"x", .blob, true, 1⟩, .blob [1, 2]⟩]
    a.Exact ∧ b.Exact ∧ c.Exact ∧ (a.changedColumns b).names = ["x"] ∧
      (a.changedColumns c).names = ["y", "z"] ∧ (b.changedColumns c).names = ["x", "y", "z"] ∧
      IsLeast {U | a.values.patch U b.values = b.values} (a.changedColumns b).contains ∧
      a.changedColumns b = b.changedColumns a ∧ (a.changedColumns b).contains "z" = false ∧
      (b.changedColumns c).contains "z" = true := by
  intro t a b c
  have ha : a.Exact := by decide +kernel
  have hb : b.Exact := by decide +kernel
  have hc : c.Exact := by decide +kernel
  obtain ⟨hleast, hcomm, -, hsteps⟩ := least_patch_is_difference ha hb hc
  have hz : (a.changedColumns b).contains "z" = false := by decide +kernel
  have hz' := hsteps "z" (by decide +kernel)
  rw [hz] at hz'
  exact ⟨ha, hb, hc, by decide +kernel, by decide +kernel, by decide +kernel, hleast, hcomm, hz,
    hz'.resolve_left Bool.false_ne_true⟩

end Row

end ChangeFeed
