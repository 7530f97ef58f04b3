import ChangeFeed.Proofs.Source.Handover
import Mathlib.Data.List.Nodup

/-!
# Images of rows

An event has the values of its rows by place. The mutations that it is mapped to have them by name.

**Rows** (`LogEvent.rows`). The images of each row of an event as lists of values, in the order in
which they came to be.

**Images** (`Row.Pairs`). An image has a cell for each column that has a value at its own place, and
no other cells. Of the cells of one name the last one counts (`Row.cell?_ofValues`). So as long as
the columns of the table differ in their names, nothing is lost when the cells are put under the
names (`Row.pairs_ofValues`), and an image has the columns of the table just if it has a value for
each of them (`Row.columnMap_ofValues_iff`).

**Changes** (`RowMutation.ComesOf`). What a mutation says about a row of an event, the verdict of
the check of schemas with it.

Main result: `maps_every_row`.
-/

namespace ChangeFeed

/-! ## Names that differ -/

/-- What stands under names that differ. -/
theorem NameMap.get?_ofList_iff {α : Type} {es : List (String × α)} (h : (es.map (·.1)).Nodup)
    {k : String} {v : α} : (ofList es).get? k = some v ↔ (k, v) ∈ es := by
  rw [get?_ofList, Option.map_eq_some_iff]
  constructor
  · rintro ⟨e, he, rfl⟩
    have hk : e.1 = k := by simpa using List.find?_some he
    exact hk ▸ List.mem_reverse.1 (List.mem_of_find?_eq_some he)
  · intro hmem
    cases hfind : es.reverse.find? (·.1 == k) with
    | none =>
      have hnone := List.find?_eq_none.1 hfind (k, v) (List.mem_reverse.2 hmem)
      exact absurd (beq_self_eq_true k) hnone
    | some e =>
      have hk : e.1 = k := by simpa using List.find?_some hfind
      have he := List.mem_reverse.1 (List.mem_of_find?_eq_some hfind)
      exact ⟨e, rfl, congrArg Prod.snd (List.inj_on_of_nodup_map h he hmem hk)⟩

namespace Table

/-- The columns of the table differ in their names. -/
def NamesDiffer (t : Table) : Prop := (t.columns.map (·.name)).Nodup

instance (t : Table) : Decidable t.NamesDiffer := inferInstanceAs (Decidable (List.Nodup _))

theorem get?_columnMap_iff {t : Table} (h : t.NamesDiffer) {n : String} {c : Column} :
    t.columnMap.get? n = some c ↔ c ∈ t.columns ∧ c.name = n := by
  have hnames : ((t.columns.map fun c => (c.name, c)).map (·.1)).Nodup := by rwa [List.map_map]
  rw [columnMap, NameMap.get?_ofList_iff hnames, List.mem_map]
  constructor
  · rintro ⟨d, hd, hdc⟩
    cases hdc
    exact ⟨hd, rfl⟩
  · rintro ⟨hc, rfl⟩
    exact ⟨c, hc, rfl⟩

end Table

/-! ## Images -/

/-- The last element that passes a test. -/
theorem find?_reverse_eq_some_iff {α : Type} {p : α → Bool} {l : List α} {a : α} :
    l.reverse.find? p = some a ↔ p a = true ∧
      ∃ k : Nat, l[k]? = some a ∧ ∀ (j : Nat) b, l[j]? = some b → p b = true → j ≤ k := by
  rw [List.find?_eq_some_iff_append]
  refine and_congr_right fun _ => ?_
  constructor
  · rintro ⟨as, bs, hl, hlater⟩
    obtain rfl : l = bs.reverse ++ a :: as.reverse := by
      rw [← List.reverse_inj, hl]
      simp
    refine ⟨bs.reverse.length, by simp, ?_⟩
    intro j b hj hb
    -- What stands after the element is at the front when the list is read backwards.
    by_contra hlt
    obtain ⟨i, rfl⟩ := Nat.exists_eq_add_of_lt (Nat.lt_of_not_le hlt)
    have hmem : b ∈ as := by
      rw [List.getElem?_append_right (by omega), Nat.add_assoc, Nat.add_sub_cancel_left,
        List.getElem?_cons_succ] at hj
      exact List.mem_reverse.1 (List.mem_of_getElem? hj)
    simpa [hb] using hlater b hmem
  · rintro ⟨k, hk, hlast⟩
    obtain ⟨hlt, hka⟩ := List.getElem?_eq_some_iff.1 hk
    refine ⟨(l.drop (k + 1)).reverse, (l.take k).reverse, ?_, ?_⟩
    · rw [← hka, ← List.reverse_inj]
      simp
    · intro b hb
      obtain ⟨i, hi⟩ := List.mem_iff_getElem?.1 (List.mem_reverse.1 hb)
      rw [List.getElem?_drop] at hi
      by_contra hp
      have hle := hlast _ b hi (by simpa using hp)
      omega

namespace Row

/-- The row pairs the columns of the table with the values at their places, and holds nothing
else. Columns after the last value and values after the last column are left out. -/
structure Pairs (r : Row) (t : Table) (vs : List Value) : Prop where
  table : r.table = t
  cells : ∀ n c, r.cell? n = some c ↔
    ∃ k : Nat, t.columns[k]? = some c.column ∧ vs[k]? = some c.value ∧ c.column.name = n

variable {t : Table} {vs : List Value}

theorem getElem?_zip_iff {cs : List Column} {k : Nat} {x : Cell} :
    ((cs.zip vs).map fun p => Cell.mk p.1 p.2)[k]? = some x ↔
      cs[k]? = some x.column ∧ vs[k]? = some x.value := by
  rw [List.getElem?_map, Option.map_eq_some_iff]
  constructor
  · rintro ⟨p, hp, rfl⟩
    exact List.getElem?_zip_eq_some.1 hp
  · intro hx
    exact ⟨(x.column, x.value), List.getElem?_zip_eq_some.2 hx, rfl⟩

/-- The last cell of a name stands under it. -/
theorem cell?_ofCells (t : Table) (xs : List Cell) (n : String) :
    (ofCells t xs).cell? n = xs.reverse.find? (·.column.name == n) := by
  rw [cell?, ofCells, NameMap.get?_ofList, ← List.map_reverse, List.find?_map, Option.map_map]
  exact Option.map_id_apply

/-- Values are paired with columns by place, and the last pair of a name counts. -/
theorem cell?_ofValues {n : String} {x : Cell} :
    (ofValues t vs).cell? n = some x ↔ x.column.name = n ∧
      ∃ k : Nat, (t.columns[k]? = some x.column ∧ vs[k]? = some x.value) ∧
        ∀ (j : Nat) d, t.columns[j]? = some d → d.name = n → j < vs.length → j ≤ k := by
  rw [ofValues, cell?_ofCells, find?_reverse_eq_some_iff]
  simp only [getElem?_zip_iff, beq_iff_eq]
  refine and_congr_right fun _ => exists_congr fun k => and_congr_right fun _ => ?_
  constructor
  · intro hlast j d hd hn hj
    exact hlast j ⟨d, vs[j]⟩ ⟨hd, List.getElem?_eq_getElem hj⟩ hn
  · intro hlast j y hy hn
    exact hlast j y.column hy.1 hn (List.getElem?_eq_some_iff.1 hy.2).1

theorem pairs_ofValues (h : t.NamesDiffer) (vs : List Value) : (ofValues t vs).Pairs t vs where
  table := rfl
  cells n c := by
    rw [cell?_ofValues]
    constructor
    · rintro ⟨hname, k, ⟨hcolumn, hvalue⟩, -⟩
      exact ⟨k, hcolumn, hvalue, hname⟩
    · rintro ⟨k, hcolumn, hvalue, rfl⟩
      refine ⟨rfl, k, ⟨hcolumn, hvalue⟩, ?_⟩
      -- No other column has the name.
      intro j d hd hname _
      have hlt : k < (t.columns.map Column.name).length := by
        rw [List.length_map]
        exact (List.getElem?_eq_some_iff.1 hcolumn).1
      have hkj : k = j := by
        rw [← List.getElem?_inj hlt h, List.getElem?_map, List.getElem?_map, hcolumn, hd,
          Option.map_some, Option.map_some, hname]
      omega

/-- An image has the columns of the table if and only if it has a value for each of them. -/
theorem columnMap_ofValues_iff (h : t.NamesDiffer) (vs : List Value) :
    (ofValues t vs).columnMap = t.columnMap ↔ t.columns.length ≤ vs.length := by
  have hcells := (pairs_ofValues h vs).cells
  have hget : ∀ n c, (ofValues t vs).columnMap.get? n = some c ↔
      ∃ k : Nat, k < vs.length ∧ t.columns[k]? = some c ∧ c.name = n := by
    intro n c
    rw [columnMap, NameMap.get?_map, Option.map_eq_some_iff]
    constructor
    · rintro ⟨d, hd, rfl⟩
      obtain ⟨k, hcolumn, hvalue, hn⟩ := (hcells n d).1 hd
      exact ⟨k, (List.getElem?_eq_some_iff.1 hvalue).1, hcolumn, hn⟩
    · rintro ⟨k, hk, hcolumn, hn⟩
      exact ⟨⟨c, vs[k]⟩, (hcells n _).2 ⟨k, hcolumn, List.getElem?_eq_getElem hk, hn⟩, rfl⟩
  constructor
  · intro heq
    by_contra hshort
    -- The first column without a value is in one of the maps only.
    have hlt : vs.length < t.columns.length := Nat.lt_of_not_le hshort
    have hthere := (Table.get?_columnMap_iff h).2
      ⟨List.getElem_mem hlt, rfl⟩
    rw [← heq, hget] at hthere
    obtain ⟨k, hk, hcolumn, -⟩ := hthere
    have hnodup : t.columns.Nodup := List.Nodup.of_map _ h
    rw [← List.getElem?_eq_getElem hlt,
      List.getElem?_inj (Nat.lt_trans hk hlt) hnodup] at hcolumn
    exact Nat.ne_of_lt hk hcolumn
  · intro hle
    refine NameMap.ext_get? fun n => Option.ext fun c => ?_
    rw [hget, Table.get?_columnMap_iff h, List.mem_iff_getElem?]
    constructor
    · rintro ⟨k, -, hcolumn, hn⟩
      exact ⟨⟨k, hcolumn⟩, hn⟩
    · rintro ⟨⟨k, hcolumn⟩, hn⟩
      exact ⟨k, Nat.lt_of_lt_of_le (List.getElem?_eq_some_iff.1 hcolumn).1 hle, hcolumn, hn⟩

end Row

/-! ## The change of a row -/

namespace LogEvent

/-- What the event does to each of its rows. -/
def rowKind : LogEvent → MutationKind
  | writeRows .. => .insert
  | updateRows .. => .update
  | deleteRows .. => .delete
  | _ => .invalid

/-- The values of the images of each row, in the order in which the images came to be. -/
def rows : LogEvent → List (List (List Value))
  | writeRows _ _ rs | deleteRows _ _ rs => rs.map fun vs => [vs]
  | updateRows _ _ rs => rs.map fun r => [r.1, r.2]
  | _ => []

end LogEvent

/-- The mutation is about the row at a place of an event, whose images have the given values. The
check of schemas complains about it if an image has fewer values than the table has columns. -/
structure RowMutation.ComesOf (x : RowMutation) (t : Table) (e : LogEvent) (i : Nat)
    (values : List (List Value)) : Prop where
  kind : x.kind = e.rowKind
  place : x.context.rowPosition.toInt = i
  stamp : x.context.stamp = ⟨e.id, e.header.timestamp⟩
  serverId : x.context.serverId = e.header.serverId
  position : x.context.position = e.position
  table : x.context.table = t
  images : List.Forall₂ (fun r vs => Row.Pairs r t vs) x.change.images values
  changed : ∀ p, x.previous? = some p → x.changed? = some (p.changedColumns x.row)
  reported : (Mutation.row x).conforms = false ↔ ∃ vs ∈ values, vs.length < t.columns.length

theorem Mutation.conforms_row_eq_false_iff {t : Table} (h : t.NamesDiffer) {x : RowMutation}
    {values : List (List Value)} (htable : x.context.table = t)
    (himages : x.change.images = values.map (Row.ofValues t)) :
    (Mutation.row x).conforms = false ↔ ∃ vs ∈ values, vs.length < t.columns.length := by
  rw [conforms, ← Bool.not_eq_true, x.conforms_iff, himages, htable]
  simp only [List.forall_mem_map, Row.columnMap_ofValues_iff h, not_forall, exists_prop, Nat.not_le]

namespace Mapper

variable {m : Mapper} {e : LogEvent} {id : Int64} {t : Table} {α : Type}
  {make : Table → RowContext → α → RowMutation} {rs : List α}

theorem rows_of_cached (hcached : (m.cache.get id).1 = some t) (h : EventHeader) :
    (m.rows h id make rs).1 =
      .ok (rs.zipIdx.map fun r => .row (make t (m.context h t r.2) r.1)) := by
  unfold rows
  rcases hget : m.cache.get id with ⟨t?, cache⟩
  obtain rfl : t? = some t := (congrArg Prod.fst hget).symm.trans hcached
  rfl

/-- The rows of an event are mapped one by one, whatever kind of event it is. What a kind makes of
its row has the context that it is given, the images of the row and the columns in which they
differ. -/
theorem rows_comesOf (hcached : (m.cache.get id).1 = some t) (hnames : t.NamesDiffer)
    {f : α → List (List Value)} (hrows : e.rows = rs.map f)
    (hcount : (e.rows.length : Int) ≤ Int32.maxValue.toInt)
    (hmake : ∀ c r, (make t c r).context = c ∧ (make t c r).kind = e.rowKind ∧
      (make t c r).change.images = (f r).map (Row.ofValues t) ∧
      ∀ p, (make t c r).previous? = some p →
        (make t c r).changed? = some (p.changedColumns (make t c r).row)) :
    ∃ ms, (m.rows e.header id make rs).1 = .ok ms ∧ ms.length = e.rows.length ∧
      ∀ (i : Nat) values, e.rows[i]? = some values → ∃ x, ms[i]? = some (.row x) ∧
        x.ComesOf t e i values := by
  refine ⟨_, rows_of_cached hcached e.header, by simp [hrows], fun i values hi => ?_⟩
  have hlt := (List.getElem?_eq_some_iff.1 hi).1
  have hmax : Int32.maxValue.toInt = 2147483647 := rfl
  have hplace : i < 2147483648 := by omega
  rw [hrows, List.getElem?_map, Option.map_eq_some_iff] at hi
  obtain ⟨r, hr, rfl⟩ := hi
  obtain ⟨hcontext, hkind, himages, hchanged⟩ := hmake (m.context e.header t i) r
  refine ⟨make t (m.context e.header t i) r, ?_, ?_⟩
  · rw [List.getElem?_map, List.getElem?_zipIdx, hr, Nat.zero_add]
    rfl
  · have htable : (make t (m.context e.header t i) r).context.table = t := by rw [hcontext]; rfl
    refine ⟨hkind, ?_, by rw [hcontext]; rfl, by rw [hcontext]; rfl, by rw [hcontext]; rfl, htable,
      ?_, hchanged, Mutation.conforms_row_eq_false_iff hnames htable himages⟩
    · rw [hcontext]
      exact Int32.toInt_ofNat_of_lt hplace
    · rw [himages, List.forall₂_map_left_iff, List.forall₂_same]
      exact fun vs _ => Row.pairs_ofValues hnames vs

/-- **Every row is mapped.** An event with rows, fewer than 2³¹, is of a table that is cached and
whose columns differ in their names. It is mapped to one mutation for each row, in the order of
the rows. Each is of the kind of the event, names the place of its row and carries the id, the time,
the server and the position of the event. Its images pair the columns of the table with the values
at their places; an update has the columns in which its two images differ; and the check of schemas
complains about exactly the mutations with an image that has fewer values than the table has
columns. -/
theorem maps_every_row (m : Mapper) {e : LogEvent} {id : Int64} {t : Table}
    (hrow : e.isRowEvent = true) (hid : e.tableId? = some id)
    (hcached : (m.cache.get id).1 = some t) (hnames : t.NamesDiffer)
    (hcount : (e.rows.length : Int) ≤ Int32.maxValue.toInt) :
    ∃ ms, (m.map e).1 = .ok ms ∧ ms.length = e.rows.length ∧
      ∀ (i : Nat) values, e.rows[i]? = some values → ∃ x, ms[i]? = some (.row x) ∧
        x.ComesOf t e i values := by
  cases e with
  | writeRows h i rs =>
    obtain rfl := Option.some.inj hid
    exact rows_comesOf hcached hnames rfl hcount fun c r => ⟨rfl, rfl, rfl, nofun⟩
  | updateRows h i rs =>
    obtain rfl := Option.some.inj hid
    refine rows_comesOf hcached hnames rfl hcount fun c r => ⟨rfl, rfl, rfl, fun p hp => ?_⟩
    obtain rfl := Option.some.inj hp
    rfl
  | deleteRows h i rs =>
    obtain rfl := Option.some.inj hid
    exact rows_comesOf hcached hnames rfl hcount fun c r => ⟨rfl, rfl, rfl, nofun⟩
  | _ => cases hrow

/-- The columns are not in the order of their names. The first row has a value too many in its new
image, the second one a value too few. -/
theorem maps_every_row_short :
    let t : Table := ⟨7, "a", "shop", [⟨"y", .varChar, false, 0⟩, ⟨"x", .long, true, 1⟩], ["x"]⟩
    let h : EventHeader := ⟨5, 50, 3, .plain "bin.1" 5 9⟩
    let e : LogEvent := .updateRows h 7
      [([.string "b", .long 1], [.string "c", .long 1, .null]), ([.null, .long 2], [.null])]
    let m := ((new default (.ofCapacity 4)).map (.tableMap h t)).2
    ∃ x y, (m.map e).1 = .ok [.row x, .row y] ∧ x.ComesOf t e 0
        [[.string "b", .long 1], [.string "c", .long 1, .null]] ∧
      y.ComesOf t e 1 [[.null, .long 2], [.null]] ∧
      (Mutation.row x).conforms = true ∧ (Mutation.row y).conforms = false := by
  intro t h e m
  have hrow : e.isRowEvent = true := rfl
  have hid : e.tableId? = some 7 := rfl
  have hcached : (m.cache.get 7).1 = some t := by decide +kernel
  obtain ⟨ms, hok, hlength, hrows⟩ := maps_every_row m hrow hid hcached (by decide) (by decide)
  obtain ⟨x, hx, hfirst⟩ := hrows 0 _ rfl
  obtain ⟨y, hy, hsecond⟩ := hrows 1 _ rfl
  obtain ⟨a, b, rfl⟩ := List.length_eq_two.1 hlength
  obtain rfl := Option.some.inj hx
  obtain rfl := Option.some.inj hy
  refine ⟨x, y, hok, hfirst, hsecond, ?_, hsecond.reported.2 (by decide)⟩
  rw [← Bool.not_eq_false, hfirst.reported]
  decide

end Mapper

end ChangeFeed
