import ChangeFeed.Destination.Codec
import ChangeFeed.Proofs.Gtid.Reading
import ChangeFeed.Proofs.Wire.Schema
import ChangeFeed.Wire.Event

/-!
# Mutations and events come back from JSON

**Portable values** (`Portable`). The transaction ids of every position were read from a text, and
no value is a floating-point number. Nothing else is asked for: names and texts are of any
characters, numbers take all values of their width, and optional fields may be there or not.

**Positions.** A set of transaction ids is written as its text. That text reads as the set because
what was read from a text is in the spelling in which it is written. So whatever position is read is
portable (`LogPosition.portable_of_ofTree?`).

Main result: `comes_back_from_json`.
-/

namespace ChangeFeed

open JsonForm

/-! ## Parts of what is read -/

section Parts

variable {α : Type} [JsonForm α] {t : JsonTree}

theorem ofTree?_of_option {a : α} (h : ofTree? t = some (some a)) : ofTree? t = some a := by
  have hmap (h : (ofTree? t).map some = some (some a)) : ofTree? t = some a := by
    obtain ⟨b, hb, hba⟩ := Option.map_eq_some_iff.1 h
    rw [hb, hba]
  cases t with
  | null => cases h
  | _ => exact hmap h

theorem exists_of_ofTree?_list {as : List α} (h : ofTree? t = some as) :
    ∀ a ∈ as, ∃ u, ofTree? u = some a := by
  cases t with
  | arr ts => exact exists_of_mapM h
  | _ => cases h

theorem GtidSet.exists_of_ofTree? {s : GtidSet} (h : ofTree? t = some s) :
    ∃ text, GtidSet.parse text = .ok s := by
  obtain ⟨text, -, htext⟩ := Option.bind_eq_some_iff.1 h
  refine ⟨text, ?_⟩
  cases hparse : GtidSet.parse text with
  | error e =>
    rw [hparse] at htext
    cases htext
  | ok s' =>
    rw [hparse] at htext
    rw [Option.some.inj htext]

end Parts

/-! ## Positions -/

instance : Lossless Interval where
  faithful i := by
    refine .of_record rfl (fun _ => rfl) rfl (by decide) (by simp) ?_
    simp [Record.need]

theorem faithful_gtidSet {s : GtidSet} (h : s.Legible) : Faithful s where
  written := .string s.render
  reads := by
    show (JsonForm.ofTree? (JsonForm.toTree s.render)).bind _ = _
    rw [ofTree?_toTree, Option.bind_some, GtidSet.parse_render h]
    rfl

namespace LogPosition

/-- The transaction ids of the position, if it has any, were read from a text. -/
def Portable (p : LogPosition) : Prop :=
  ∀ s, p.gtids = some s → ∃ text, GtidSet.parse text = .ok s

end LogPosition

theorem faithful_position {p : LogPosition} (h : p.Portable) : Faithful p := by
  have hgtids : Faithful p.gtids := by
    refine faithful_option (fun s hs => ?_) (fun _ => JsonTree.noConfusion)
    obtain ⟨text, htext⟩ := h s hs
    exact faithful_gtidSet (GtidSet.legible_parse htext)
  have hserver : Faithful p.server :=
    faithful_option (fun s _ => Lossless.faithful s) (fun _ => JsonTree.noConfusion)
  refine .of_record rfl (fun _ => rfl) rfl (by decide)
    (by simp [hgtids.written, hserver.written]) ?_
  simp [Record.need, Record.getOr, hgtids.reads, hserver.reads]

/-- Whatever position is read is portable. -/
theorem LogPosition.portable_of_ofTree? {t : JsonTree} {p : LogPosition} (h : ofTree? t = some p) :
    p.Portable := by
  simp only [ofTree?, bind, Option.bind_eq_some_iff] at h
  obtain ⟨r, -, file, -, position, -, next, -, gtids, hgtids, server, -, hp⟩ := h
  cases hp
  intro s hs
  obtain rfl : gtids = some s := hs
  unfold Record.getOr at hgtids
  split at hgtids
  · exact GtidSet.exists_of_ofTree? (ofTree?_of_option hgtids)
  · cases hgtids

/-! ## Mutations -/

instance : Lossless MutationKind where
  faithful k := by
    refine ⟨.string k.name, ?_⟩
    show (JsonTree.ofString k.name).plainCase?.bind _ = _
    rw [plainCase?_ofString, Option.bind_some]
    cases k <;> decide

instance : Lossless Stamp where
  faithful s := by
    refine .of_record rfl (fun _ => rfl) rfl (by decide) (by simp) ?_
    simp [Record.need]

instance : Lossless DataSource where
  faithful s := by
    refine .of_record rfl (fun _ => rfl) rfl (by decide) (by simp) ?_
    simp [Record.need]

instance : Lossless RawMutation where
  faithful m := by
    refine .of_record rfl (fun _ => rfl) rfl (by decide) (by simp) ?_
    simp [Record.need]

theorem faithful_transaction {x : Transaction} (h : x.position.Portable) : Faithful x := by
  have hposition := faithful_position h
  have hgtid : Faithful x.gtid :=
    faithful_option (fun s _ => Lossless.faithful s) (fun _ => JsonTree.noConfusion)
  refine .of_record rfl (fun _ => rfl) rfl (by decide)
    (by simp [hposition.written, hgtid.written]) ?_
  simp [Record.need, Record.maybe, hposition.reads, hgtid.reads]

namespace RowContext

/-- The transaction ids of the context's positions were read from texts. -/
structure Portable (c : RowContext) : Prop where
  position : c.position.Portable
  transaction : ∀ x, c.transaction = some x → x.position.Portable

end RowContext

theorem faithful_context {c : RowContext} (h : c.Portable) : Faithful c := by
  have hposition := faithful_position h.position
  have htransaction : Faithful c.transaction :=
    faithful_option (fun x hx => faithful_transaction (h.transaction x hx))
      (fun _ => JsonTree.noConfusion)
  refine .of_record rfl (fun _ => rfl) rfl (by decide)
    (by simp [hposition.written, htransaction.written]) ?_
  simp [Record.need, Record.maybe, hposition.reads, htransaction.reads]

namespace RowChange

theorem ofTree?_update (t : JsonTree) :
    (JsonForm.ofTree? (.ofCase "Update" t) : Option RowChange) = do
      let r ← Record.ofTree? ["previous", "row", "updated_columns"] t
      return .update (← r.need "previous") (← r.need "row") (← r.need "updated_columns") := by
  simp [JsonForm.ofTree?]

end RowChange

theorem faithful_change {c : RowChange} (h : ∀ r ∈ c.images, r.Exact) : Faithful c := by
  cases c with
  | insert r =>
    have hr := faithful_row (h r List.mem_cons_self)
    exact .of_case rfl hr (by simp [JsonForm.ofTree?]) rfl
  | update p r changed =>
    have hp := faithful_row (h p List.mem_cons_self)
    have hr := faithful_row (h r (List.mem_cons_of_mem _ List.mem_cons_self))
    refine .of_case_record rfl RowChange.ofTree?_update rfl (by decide)
      (by simp [hp.written, hr.written]) ?_
    simp [Record.need, hp.reads, hr.reads]
  | delete r =>
    have hr := faithful_row (h r List.mem_cons_self)
    exact .of_case rfl hr (by simp [JsonForm.ofTree?]) rfl

theorem faithful_rowMutation {m : RowMutation} (hc : m.context.Portable)
    (hr : ∀ r ∈ m.change.images, r.Exact) : Faithful m := by
  have hcontext := faithful_context hc
  have hchange := faithful_change hr
  refine .of_record rfl (fun _ => rfl) rfl (by decide)
    (by simp [hcontext.written, hchange.written]) ?_
  simp [Record.need, hcontext.reads, hchange.reads]

namespace Mutation

/-- The transaction ids of the mutation's positions were read from texts, and its rows hold no
floating-point numbers. -/
def Portable : Mutation → Prop
  | row m => m.context.Portable ∧ ∀ r ∈ m.change.images, r.Exact
  | raw _ => True

end Mutation

theorem faithful_mutation {m : Mutation} (h : m.Portable) : Faithful m := by
  cases m with
  | row m =>
    have hm := faithful_rowMutation h.1 h.2
    exact .of_case rfl hm (by simp [JsonForm.ofTree?]) rfl
  | raw m =>
    exact .of_case rfl (Lossless.faithful m) (by simp [JsonForm.ofTree?]) rfl

/-! ## Events -/

theorem faithful_header {h : EventHeader} (hp : h.position.Portable) : Faithful h := by
  have hposition := faithful_position hp
  refine .of_record rfl (fun _ => rfl) rfl (by decide) (by simp [hposition.written]) ?_
  simp [Record.need, hposition.reads]

/-- None of the values is a floating-point number. -/
def ExactValues (vs : List Value) : Prop := ∀ v ∈ vs, v.isExact = true

theorem faithful_values {vs : List Value} (h : ExactValues vs) : Faithful vs :=
  faithful_list fun v hv => faithful_value (h v hv)

namespace LogEvent

/-- The values of an event, one list for each image of a row. -/
def images : LogEvent → List (List Value)
  | writeRows _ _ rows | deleteRows _ _ rows => rows
  | updateRows _ _ rows => rows.flatMap fun r => [r.1, r.2]
  | _ => []

/-- The transaction ids of the event's position were read from a text, and its rows hold no
floating-point numbers. -/
structure Portable (e : LogEvent) : Prop where
  position : e.position.Portable
  exact : ∀ vs ∈ e.images, ExactValues vs

theorem ofTree?_ofCase (name : String) (t : JsonTree) :
    (JsonForm.ofTree? (.ofCase name t) : Option LogEvent) = ofCase? name t := by
  simp only [JsonForm.ofTree?, variant?_ofCase]

/-- An event with rows comes back when its rows do. -/
theorem faithful_rows {α : Type} [JsonForm α] {e : LogEvent} {name : String} {h : EventHeader}
    {i : Int64} {rows : α} {make : EventHeader → Int64 → α → LogEvent}
    (htree : e.toTree = rowsTree name h i rows) (hread : ∀ t, ofCase? name t = ofRows? make t)
    (he : make h i rows = e) (hh : Faithful h) (hrows : Faithful rows) : Faithful e := by
  refine .of_case_record htree (fun t => (ofTree?_ofCase name t).trans (hread t)) rfl (by decide)
    (by simp [hh.written, hrows.written]) ?_
  simp [Record.need, hh.reads, hrows.reads, he]

/-- An event with a header and one more field comes back. -/
theorem faithful_pair {α : Type} [JsonForm α] [Lossless α] {e : LogEvent} {name field : String}
    {h : EventHeader} {a : α} {make : EventHeader → α → LogEvent}
    (htree : e.toTree = .ofCase name (.ofFields
      [("header", JsonForm.toTree h), (field, JsonForm.toTree a)]))
    (hread : ∀ t, ofCase? name t = ofPair? make field t) (he : make h a = e)
    (hne : field ≠ "header") (hh : Faithful h) : Faithful e := by
  refine .of_case_record htree (fun t => (ofTree?_ofCase name t).trans (hread t)) rfl
    (by simp [hne.symm]) (by simp [hh.written]) ?_
  simp [Record.need, hh.reads, hne, he]

end LogEvent

theorem faithful_event {e : LogEvent} (h : e.Portable) : Faithful e := by
  have hh := faithful_header h.position
  have hexact := h.exact
  cases e with
  | tableMap header t => exact LogEvent.faithful_pair rfl (fun _ => rfl) rfl (by decide) hh
  | writeRows header i rows =>
    have hrows : Faithful rows := faithful_list fun vs hvs => faithful_values (hexact vs hvs)
    exact LogEvent.faithful_rows rfl (fun _ => rfl) rfl hh hrows
  | updateRows header i rows =>
    have hrows : Faithful rows := by
      refine faithful_list fun p hp => ?_
      have himages : ∀ vs ∈ [p.1, p.2], Faithful vs := fun vs hvs =>
        faithful_values (hexact vs (List.mem_flatMap.2 ⟨p, hp, hvs⟩))
      exact (himages p.1 List.mem_cons_self).pair
        (himages p.2 (List.mem_cons_of_mem _ List.mem_cons_self))
    exact LogEvent.faithful_rows rfl (fun _ => rfl) rfl hh hrows
  | deleteRows header i rows =>
    have hrows : Faithful rows := faithful_list fun vs hvs => faithful_values (hexact vs hvs)
    exact LogEvent.faithful_rows rfl (fun _ => rfl) rfl hh hrows
  | query header db sql =>
    have hheader : Faithful header := hh
    refine .of_case_record rfl (fun t => LogEvent.ofTree?_ofCase "Query" t) rfl (by decide)
      (by simp [hheader.written]) ?_
    simp [Record.need, hheader.reads]
  | xid header n => exact LogEvent.faithful_pair rfl (fun _ => rfl) rfl (by decide) hh
  | gtid header g => exact LogEvent.faithful_pair rfl (fun _ => rfl) rfl (by decide) hh

/-! ## Coming back -/

/-- **What is written is read back.** The codec encodes every portable mutation and decodes the
bytes as the same mutation, and every portable event is read from its bytes and from its text. -/
theorem comes_back_from_json :
    (∀ m : Mutation, m.Portable →
      ∃ bytes, jsonCodec.encode m = .ok bytes ∧ jsonCodec.decode bytes = .ok m) ∧
    ∀ e : LogEvent, e.Portable →
      JsonForm.read? (JsonForm.write e) = some e ∧ JsonForm.parse? (JsonForm.text e) = some e := by
  refine ⟨fun m hm => ⟨JsonForm.write m, rfl, ?_⟩, fun e he => ?_⟩
  · simp only [jsonCodec, (faithful_mutation hm).read?_write]
  · exact ⟨(faithful_event he).read?_write, (faithful_event he).parse?_text⟩

/-- Control characters, quotes, characters of four bytes, the smallest and the largest numbers and
transaction ids in a spelling of their own. -/
theorem comes_back_from_json_extremes :
    let ids : GtidSet := ⟨⟨[("ab", [⟨1, 18446744073709551615⟩]), ("ef", [⟨7, 7⟩])], by decide⟩⟩
    let position : LogPosition :=
      ⟨"log\"\\\x00\x1f.7", 18446744073709551615, 0, some ids, some "é😀"⟩
    let column : Column := ⟨"a\tb", .json, true, -2147483648⟩
    let table : Table := ⟨-9223372036854775808, "t\n", "д", [column], ["a\tb"]⟩
    let row (v : Value) : Row := Row.ofValues table [v]
    let context : RowContext := ⟨⟨9223372036854775807, -1⟩, ⟨"", 65535, "/"⟩, position, table,
      4294967295, some ⟨0, 0, position, some "\x7f"⟩, 0⟩
    let m : Mutation :=
      .row (.update context (row .null) (row (.unsignedLong 18446744073709551615)))
    let e : LogEvent := .updateRows ⟨0, -9223372036854775808, 0, position⟩ 7
      [([.string "\"", .binary [0, 255]], [.long (-9223372036854775808)])]
    (m.Portable ∧ e.Portable) ∧
      (∃ bytes, jsonCodec.encode m = .ok bytes ∧ jsonCodec.decode bytes = .ok m) ∧
      JsonForm.read? (JsonForm.write e) = some e ∧ JsonForm.parse? (JsonForm.text e) = some e := by
  intro ids position column table row context m e
  have hids : GtidSet.parse " eF: 07,\n,AB:1-18446744073709551615" = .ok ids := by
    decide +kernel
  have hposition : position.Portable :=
    fun s hs => ⟨_, hids.trans (congrArg _ (Option.some.inj hs))⟩
  have hm : m.Portable := by
    refine ⟨⟨hposition, fun x hx => ?_⟩, by decide +kernel⟩
    obtain rfl := Option.some.inj hx
    exact hposition
  have he : e.Portable := ⟨hposition, by unfold ExactValues; decide +kernel⟩
  exact ⟨⟨hm, he⟩, comes_back_from_json.1 m hm, comes_back_from_json.2 e he⟩

end ChangeFeed
