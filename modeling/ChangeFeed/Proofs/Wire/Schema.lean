import ChangeFeed.Proofs.Json.Faithful
import ChangeFeed.Wire.Schema

/-!
# Schemas and rows come back from JSON

Tables and everything in them come back from their JSON form. A value comes back when it is no
floating-point number, and a row comes back when its values do. The null value is written without
content, all other values are cases with content.

Main results: `faithful_value` and `faithful_row`.
-/

namespace ChangeFeed

open JsonForm

/-! ## Tables -/

instance : Lossless ColumnType where
  faithful t := by
    refine ⟨.string t.name, ?_⟩
    show (JsonTree.ofString t.name).plainCase?.bind _ = _
    rw [plainCase?_ofString, Option.bind_some, t.ofName?_name]

instance : Lossless Column where
  faithful c := by
    refine .of_record rfl (fun _ => rfl) rfl (by decide) (by simp) ?_
    simp [Record.need]

instance : Lossless Table where
  faithful t := by
    refine .of_record rfl (fun _ => rfl) rfl (by decide) (by simp) ?_
    simp [Record.need]

/-! ## Values -/

namespace Value

theorem ofTree?_ofCase (name : String) (t : JsonTree) :
    ofTree? (.ofCase name t) = ofCase? name t := by
  rw [ofTree?, variant?_ofCase]

/-- A value with content comes back when the content does. -/
theorem faithful_of_content {α : Type} [JsonForm α] [Lossless α] {v : Value} {name : String}
    {a : α} {make : α → Value} (htree : v.toTree = .ofCase name (JsonForm.toTree a))
    (hread : ∀ t, ofCase? name t = (JsonForm.ofTree? t).map make) (hv : make a = v) :
    Faithful v :=
  .of_case htree (Lossless.faithful a) ((ofTree?_ofCase _ _).trans (hread _)) hv

end Value

theorem faithful_value {v : Value} (h : v.isExact = true) : Faithful v := by
  cases v with
  | null =>
    refine ⟨.string "Null", ?_⟩
    show Value.ofTree? (.ofString "Null") = _
    rw [Value.ofTree?, variant?_ofString]
    rfl
  | float a => cases h
  | double a => cases h
  | _ => exact Value.faithful_of_content rfl (fun _ => rfl) rfl

/-! ## Rows -/

namespace Row

/-- No cell of the row holds a floating-point number. -/
def Exact (r : Row) : Prop := ∀ e ∈ r.cells.entries, e.2.value.isExact = true

instance (r : Row) : Decidable r.Exact := inferInstanceAs (Decidable (∀ e ∈ _, _))

end Row

theorem faithful_cell {c : Cell} (h : c.value.isExact = true) : Faithful c := by
  have hv := faithful_value h
  refine .of_record rfl (fun _ => rfl) rfl (by decide) (by simp [hv.written]) ?_
  simp [Record.need, hv.reads]

theorem faithful_row {r : Row} (h : r.Exact) : Faithful r := by
  have hc : Faithful r.cells := faithful_nameMap fun e he => faithful_cell (h e he)
  refine .of_record rfl (fun _ => rfl) rfl (by decide) (by simp [hc.written]) ?_
  simp [Record.need, hc.reads]

instance : Lossless NameSet where
  faithful s := by
    refine ⟨written_toTree s.names, ?_⟩
    show (JsonForm.ofTree? (JsonForm.toTree s.names)).bind _ = _
    rw [ofTree?_toTree, Option.bind_some]
    have hentries : s.names.map (fun n => (n, ())) = s.entries := by
      rw [NameMap.names, List.map_map]
      exact List.map_id _
    show some (NameSet.ofNames s.names) = some s
    rw [NameSet.ofNames, hentries, NameMap.ofList_entries]

end ChangeFeed
