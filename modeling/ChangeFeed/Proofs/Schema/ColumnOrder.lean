import ChangeFeed.Proofs.Mutation.Images

/-!
# The order in which columns are given

Columns come with their positions, so the order in which they are given should not matter.

**Ranks** (`Column.rank`). The place of a column in position order is the number of columns with a
smaller position. It is the same for every order of the columns.

**Tables** (`Table.Arranges`). The columns stand in position order, and the flagged ones make the
primary key, in position order as well. A name that several of them have stands where the first of
them stands.

**Rows** (`Row.Fills`). A column has the value at its rank, and the last column of a name counts.

Main result: `Table.forgets_column_order`.
-/

namespace ChangeFeed

/-! ## Repetitions -/

section Repetitions

variable {α β : Type} [BEq β] [LawfulBEq β]

theorem eraseDups_of_nodup {l : List β} (h : l.Nodup) : l.eraseDups = l := by
  induction l with
  | nil => rfl
  | cons a l ih =>
    obtain ⟨ha, hl⟩ := List.nodup_cons.1 h
    have hkept : l.filter (fun b => !b == a) = l := by
      rw [List.filter_eq_self]
      intro b hb
      have hne : b ≠ a := fun hab => ha (hab ▸ hb)
      simpa using hne
    rw [List.eraseDups_cons, hkept, ih hl]

/-- Of the elements with the same image, the first one says where the image stands. -/
theorem pairwise_eraseDups_map {f : α → β} {R : α → α → Prop} {l : List α} (h : l.Pairwise R) :
    (l.map f).eraseDups.Pairwise fun x y => ∃ a ∈ l, f a = x ∧ ∀ b ∈ l, f b = y → R a b := by
  match l with
  | [] => simp
  | a :: l =>
    obtain ⟨ha, hl⟩ := List.pairwise_cons.1 h
    have hmap : (l.map f).filter (fun y => !y == f a) = (l.filter fun b => !f b == f a).map f :=
      List.filter_map
    have hother : ∀ y ∈ ((l.filter fun b => !f b == f a).map f).eraseDups, y ≠ f a := by
      intro y hy
      obtain ⟨b, hb, rfl⟩ := List.mem_map.1 (List.mem_eraseDups.1 hy)
      simpa using (List.mem_filter.1 hb).2
    rw [List.map_cons, List.eraseDups_cons, hmap]
    refine List.pairwise_cons.2 ⟨?_, ?_⟩
    · intro y hy
      refine ⟨a, List.mem_cons_self, rfl, ?_⟩
      intro b hb hby
      rcases List.mem_cons.1 hb with rfl | hb
      · exact absurd hby.symm (hother y hy)
      · exact ha b hb
    · have hrest := pairwise_eraseDups_map (f := f) (hl.filter fun b => !f b == f a)
      refine hrest.imp_of_mem ?_
      rintro x y - hy ⟨b, hb, hbx, hfirst⟩
      refine ⟨b, List.mem_cons_of_mem _ (List.mem_filter.1 hb).1, hbx, ?_⟩
      intro c hc hcy
      rcases List.mem_cons.1 hc with rfl | hc
      · exact absurd hcy.symm (hother y hy)
      · refine hfirst c (List.mem_filter.2 ⟨hc, ?_⟩) hcy
        simpa [hcy] using hother y hy
termination_by l.length
decreasing_by exact Nat.lt_succ_of_le (List.length_filter_le _ _)

end Repetitions

/-! ## Ranks -/

/-- The columns differ in their positions. -/
def PositionsDiffer (cs : List Column) : Prop := (cs.map (·.position)).Nodup

instance (cs : List Column) : Decidable (PositionsDiffer cs) :=
  inferInstanceAs (Decidable (List.Nodup _))

/-- How many of the columns come before a column. -/
def Column.rank (cs : List Column) (c : Column) : Nat := cs.countP fun d => d.position < c.position

/-- The positions increase. -/
def Increasing (cs : List Column) : Prop := cs.Pairwise fun c d => c.position < d.position

instance (cs : List Column) : Decidable (Increasing cs) :=
  inferInstanceAs (Decidable (List.Pairwise _ _))

variable {cs ds : List Column}

theorem Increasing.positionsDiffer (h : Increasing cs) : PositionsDiffer cs := by
  rw [PositionsDiffer, List.Nodup, List.pairwise_map]
  refine h.imp ?_
  intro c d hcd heq
  exact Int32.lt_irrefl (heq ▸ hcd)

theorem rank_perm (h : ds.Perm cs) (c : Column) : c.rank ds = c.rank cs :=
  h.countP_eq _

theorem rank_of_getElem? (h : Increasing cs) {k : Nat} {c : Column} (hc : cs[k]? = some c) :
    c.rank cs = k := by
  induction cs generalizing k with
  | nil => simp at hc
  | cons d ds ih =>
    obtain ⟨hd, hds⟩ := List.pairwise_cons.1 h
    cases k with
    | zero =>
      obtain rfl := Option.some.inj hc
      rw [Column.rank, List.countP_eq_zero]
      intro e he
      rcases List.mem_cons.1 he with rfl | he
      · simp
      · simpa using Int32.lt_asymm (hd e he)
    | succ k =>
      rw [List.getElem?_cons_succ] at hc
      have hlt := hd c (List.mem_of_getElem? hc)
      have hrank := ih hds hc
      rw [Column.rank] at hrank ⊢
      rw [List.countP_cons_of_pos (by simpa using hlt), hrank]

namespace Table

/-! ## Columns in order -/

theorem inOrder_perm_self (cs : List Column) : (inOrder cs).Perm cs := List.mergeSort_perm _ _

theorem sorted_inOrder (cs : List Column) :
    (inOrder cs).Pairwise fun c d => notAfter c d = true := by
  apply List.pairwise_mergeSort
  · intro c d e hcd hde
    simp only [notAfter, decide_eq_true_eq] at *
    exact Int32.le_trans hcd hde
  · intro c d
    simpa [notAfter] using Int32.le_total _ _

theorem inOrder_inOrder (cs : List Column) : inOrder (inOrder cs) = inOrder cs :=
  List.mergeSort_of_pairwise (sorted_inOrder cs)

theorem increasing_inOrder (h : PositionsDiffer cs) : Increasing (inOrder cs) := by
  have hdiffer : (inOrder cs).Pairwise fun c d => c.position ≠ d.position := by
    rw [← List.pairwise_map (f := Column.position)]
    exact ((inOrder_perm_self cs).map _).nodup_iff.2 h
  refine ((sorted_inOrder cs).and hdiffer).imp ?_
  rintro c d ⟨hle, hne⟩
  exact Int32.lt_of_le_of_ne (by simpa [notAfter] using hle) hne

/-- Columns in increasing order are the order of all their permutations. -/
theorem inOrder_eq (hds : Increasing ds) (hperm : ds.Perm cs) : inOrder cs = ds := by
  have hcs : PositionsDiffer cs := (hperm.map _).nodup_iff.1 hds.positionsDiffer
  have hsame : (inOrder cs).Perm ds := (inOrder_perm_self cs).trans hperm.symm
  refine hsame.eq_of_pairwise ?_ (increasing_inOrder hcs) hds
  intro c d _ _ hcd hdc
  exact absurd hdc (Int32.lt_asymm hcd)

/-! ## Tables -/

variable {t : Table}

/-- The table has these columns, in position order. The names of the flagged ones make its primary
key, none of them twice. One name stands before another if a flagged column of the first name comes
before all flagged columns of the second one. -/
structure Arranges (t : Table) (cs : List Column) : Prop where
  columns : t.columns.Perm cs
  increasing : Increasing t.columns
  key : ∀ n, n ∈ t.primaryKey ↔ ∃ c ∈ cs, c.isPrimaryKey = true ∧ c.name = n
  keyOnce : t.primaryKey.Nodup
  keyInOrder : t.primaryKey.Pairwise fun m n => ∃ c ∈ cs, c.isPrimaryKey = true ∧ c.name = m ∧
    ∀ d ∈ cs, d.isPrimaryKey = true → d.name = n → c.position < d.position

theorem columns_ofColumns (id : Int64) (name database : String) (cs : List Column) :
    (ofColumns id name database cs).columns = inOrder cs :=
  inOrder_inOrder cs

theorem primaryKey_ofColumns (id : Int64) (name database : String) (cs : List Column) :
    (ofColumns id name database cs).primaryKey =
      (((inOrder cs).filter (·.isPrimaryKey)).map (·.name)).eraseDups :=
  rfl

theorem arranges_ofColumns (id : Int64) (name database : String) (h : PositionsDiffer cs) :
    (ofColumns id name database cs).Arranges cs := by
  have hincreasing := increasing_inOrder h
  have hmem : ∀ c, c ∈ (inOrder cs).filter (·.isPrimaryKey) ↔ c ∈ cs ∧ c.isPrimaryKey = true := by
    intro c
    rw [List.mem_filter, (inOrder_perm_self cs).mem_iff]
  have hfirst := pairwise_eraseDups_map (f := Column.name)
    (hincreasing.filter fun c => c.isPrimaryKey)
  refine ⟨?_, ?_, ?_, ?_, ?_⟩
  · rw [columns_ofColumns]
    exact inOrder_perm_self cs
  · rwa [columns_ofColumns]
  · intro n
    rw [primaryKey_ofColumns, List.mem_eraseDups, List.mem_map]
    simp only [hmem, and_assoc]
  · -- No column comes before itself.
    refine hfirst.imp ?_
    rintro n _ ⟨c, hc, hcn, hbefore⟩ rfl
    exact Int32.lt_irrefl (hbefore c hc hcn)
  · refine hfirst.imp ?_
    rintro m n ⟨c, hc, hcm, hbefore⟩
    obtain ⟨hcs, hflag⟩ := (hmem c).1 hc
    exact ⟨c, hcs, hflag, hcm, fun d hd hdflag hdn => hbefore d ((hmem d).2 ⟨hd, hdflag⟩) hdn⟩

theorem ofColumns_perm (id : Int64) (name database : String) (h : PositionsDiffer cs)
    (hperm : ds.Perm cs) : ofColumns id name database ds = ofColumns id name database cs := by
  have hsame : inOrder ds = inOrder cs :=
    inOrder_eq (increasing_inOrder h) ((inOrder_perm_self cs).trans hperm.symm)
  rw [ofColumns, ofColumns, hsame]

/-- A table with its columns in position order and no name twice in its primary key is built again
from its own columns and key. -/
theorem withKey_self (hcolumns : Increasing t.columns) (hkey : t.primaryKey.Nodup) :
    withKey t.id t.name t.database t.columns t.primaryKey = t := by
  rw [withKey, inOrder_eq hcolumns (List.Perm.refl _), eraseDups_of_nodup hkey]

theorem Arranges.getElem?_columns (h : t.Arranges cs) {k : Nat} {c : Column} :
    t.columns[k]? = some c ↔ c ∈ cs ∧ c.rank cs = k := by
  constructor
  · intro hc
    refine ⟨h.columns.mem_iff.1 (List.mem_of_getElem? hc), ?_⟩
    rw [← rank_perm h.columns, rank_of_getElem? h.increasing hc]
  · rintro ⟨hc, rfl⟩
    obtain ⟨j, hj⟩ := List.mem_iff_getElem?.1 (h.columns.mem_iff.2 hc)
    rwa [← rank_perm h.columns, rank_of_getElem? h.increasing hj]

end Table

/-! ## Rows -/

namespace Row

/-- Under each name stands the last column of that name that has a value, with the value at its
rank. -/
def Fills (r : Row) (cs : List Column) (vs : List Value) : Prop :=
  ∀ n x, r.cell? n = some x ↔
    x.column ∈ cs ∧ x.column.name = n ∧ vs[x.column.rank cs]? = some x.value ∧
      ∀ d ∈ cs, d.name = n → d.rank cs < vs.length → d.rank cs ≤ x.column.rank cs

variable {t : Table}

theorem fills_ofValues (h : t.Arranges cs) (vs : List Value) : (ofValues t vs).Fills cs vs := by
  intro n x
  rw [cell?_ofValues]
  simp only [h.getElem?_columns]
  constructor
  · rintro ⟨hname, k, ⟨⟨hx, rfl⟩, hvalue⟩, hlast⟩
    exact ⟨hx, hname, hvalue, fun d hd hdn hlt => hlast _ d ⟨hd, rfl⟩ hdn hlt⟩
  · rintro ⟨hx, hname, hvalue, hlast⟩
    refine ⟨hname, x.column.rank cs, ⟨⟨hx, rfl⟩, hvalue⟩, ?_⟩
    rintro j d ⟨hd, rfl⟩ hdn hlt
    exact hlast d hd hdn hlt

end Row

/-! ## Keys -/

/-- The change is one of the table, and the image after it, or the deleted one, has the values. -/
structure RowMutation.Shows (x : RowMutation) (t : Table) (vs : List Value) : Prop where
  table : x.context.table = t
  row : x.row = Row.ofValues t vs

theorem RowMutation.Shows.key {x : RowMutation} {t : Table} {vs : List Value} (h : x.Shows t vs) :
    (Mutation.row x).key = .ok (t.database ++ ":" ++ t.name ++ ":" ++
      (Row.ofValues t vs).keyText?.getD "null") := by
  rw [Mutation.key, RowMutation.key, h.table, h.row]

namespace Table

/-- **A table does not depend on the order in which its columns are given**, as long as they differ
in their positions. It arranges them by position. So values given by place make the same row, in
which every column has the value at its rank, the row has the same primary key, and all changes that
show the values have the same key. Built again from its own columns and primary key, the table is
what it was. -/
theorem forgets_column_order (id : Int64) (name database : String) (h : PositionsDiffer cs)
    (hperm : ds.Perm cs) :
    let t := ofColumns id name database cs
    let u := ofColumns id name database ds
    u = t ∧ t.Arranges cs ∧
      (∀ vs, Row.ofValues u vs = Row.ofValues t vs ∧ (Row.ofValues t vs).Fills cs vs ∧
        (Row.ofValues u vs).keyText? = (Row.ofValues t vs).keyText? ∧
        ∀ x y : RowMutation, x.Shows u vs → y.Shows t vs →
          (Mutation.row x).key = (Mutation.row y).key) ∧
      withKey t.id t.name t.database t.columns t.primaryKey = t := by
  intro t u
  have hsame : u = t := ofColumns_perm id name database h hperm
  have harranges : t.Arranges cs := arranges_ofColumns id name database h
  refine ⟨hsame, harranges, ?_, withKey_self harranges.increasing harranges.keyOnce⟩
  intro vs
  refine ⟨by rw [hsame], Row.fills_ofValues harranges vs, by rw [hsame], ?_⟩
  intro x y hx hy
  rw [hx.key, hy.key, hsame]

/-- Two key columns have one name. The value of the later one is in the row, and the key has it
where the earlier one stands. -/
theorem forgets_column_order_repeated :
    let cs : List Column := [⟨"b", .long, true, 3⟩, ⟨"a", .varChar, true, 0⟩,
      ⟨"c", .tiny, false, 1⟩, ⟨"b", .long, true, -2⟩]
    let t := ofColumns 7 "a" "shop" cs
    let u := ofColumns 7 "a" "shop" cs.reverse
    let vs : List Value := [.long 1, .string "x", .null, .long 4]
    let x := RowMutation.insert { (default : RowContext) with table := u } (Row.ofValues u vs)
    let y := RowMutation.update { (default : RowContext) with table := t } (Row.ofValues t [])
      (Row.ofValues t vs)
    PositionsDiffer cs ∧ cs.reverse.Perm cs ∧ u = t ∧ t.primaryKey = ["b", "a"] ∧
      Row.ofValues u vs = Row.ofValues t vs ∧ x.Shows u vs ∧ y.Shows t vs ∧
      (Mutation.row x).key = (Mutation.row y).key ∧ (Mutation.row y).key = .ok "shop:a:4x" := by
  intro cs t u vs x y
  have hdiffer : PositionsDiffer cs := by decide
  have hx : x.Shows u vs := ⟨rfl, rfl⟩
  have hy : y.Shows t vs := ⟨rfl, rfl⟩
  obtain ⟨hsame, -, hrows, -⟩ := forgets_column_order 7 "a" "shop" hdiffer cs.reverse_perm
  obtain ⟨hrow, -, -, hkey⟩ := hrows vs
  have horder : inOrder cs = [⟨"b", .long, true, -2⟩, ⟨"a", .varChar, true, 0⟩,
      ⟨"c", .tiny, false, 1⟩, ⟨"b", .long, true, 3⟩] :=
    inOrder_eq (by decide) (by decide)
  have hcolumns := columns_ofColumns 7 "a" "shop" cs
  have hprimary := primaryKey_ofColumns 7 "a" "shop" cs
  rw [horder] at hcolumns hprimary
  have ht : t = ⟨7, "a", "shop", _, _⟩ := congrArg₂ (Table.mk 7 "a" "shop") hcolumns hprimary
  refine ⟨hdiffer, cs.reverse_perm, hsame, ?_, hrow, hx, hy, hkey x y hx hy, ?_⟩
  · rw [ht]
    decide +kernel
  · rw [hy.key, ht]
    decide +kernel

end Table

end ChangeFeed
