import ChangeFeed.Proofs.Gtid.Reading
import ChangeFeed.Proofs.Wire.RoundTrip
import Mathlib

/-!
# Sets of transaction ids come back from their texts

**Runs** (`Composed`). The sets that are built from the empty set and from texts by putting in ids,
intervals and other such sets, with UUIDs in which none of the characters stands that the text of a
set is cut at (`Uncut`). The UUIDs may be spelled in any way. All of these sets are legible.

Main result: `comes_back_from_text`. The text of such a set and its JSON form are read as the set.
-/

namespace ChangeFeed

/-- Neither a comma nor a colon nor a line feed is in the text. -/
structure Uncut (cs : List Char) : Prop where
  plain : Plain cs
  oneLine : '\n' ∉ cs

namespace GtidSet

/-- The sets that the operations build, with UUIDs that no text is cut at. -/
inductive Composed : GtidSet → Prop where
  | empty : Composed empty
  | parsed {text : String} {s : GtidSet} (h : parse text = .ok s) : Composed s
  | gtid {s : GtidSet} (hs : Composed s) {uuid : String} (hu : Uncut uuid.toList) (n : UInt64) :
      Composed (s.addGtid uuid n).2
  | interval {s : GtidSet} (hs : Composed s) {uuid : String} (hu : Uncut uuid.toList)
      {i : Interval} (hi : i.start ≤ i.stop) : Composed (s.addInterval uuid i)
  | union {s t : GtidSet} (hs : Composed s) (ht : Composed t) : Composed (s.union t)

theorem Composed.legible {s : GtidSet} (h : Composed s) : s.Legible := by
  induction h with
  | empty => exact legible_empty
  | parsed h => exact legible_parse h
  | gtid _ hu n ih => exact legible_addGtid ih hu.plain hu.oneLine n
  | interval _ hu hi ih => exact legible_addInterval ih hu.plain hu.oneLine hi
  | union _ _ ihs iht => exact legible_union ihs iht

/-- **Sets of transaction ids come back from their texts.** The text of a set is read as that set,
which has the same text again, and so are the bytes and the text of its JSON form. -/
theorem comes_back_from_text {s : GtidSet} (h : Composed s) :
    parse s.render = .ok s ∧
    JsonForm.read? (JsonForm.write s) = some s ∧ JsonForm.parse? (JsonForm.text s) = some s := by
  have hfaithful := faithful_gtidSet h.legible
  exact ⟨parse_render h.legible, hfaithful.read?_write, hfaithful.parse?_text⟩

/-- A capital letter that becomes two characters, a blank within a UUID and one without characters,
and ranges that grow together up to the largest id. -/
theorem comes_back_from_text_spaced :
    let t : GtidSet := ⟨⟨[("", [⟨7, 7⟩]), ("a b", [⟨1, 3⟩])], by decide⟩⟩
    let s := ((empty.addInterval " A B\t" ⟨4, 18446744073709551614⟩).union t).addInterval
      " \u0130" ⟨0, 0⟩
    let r := (s.addGtid "a B" 18446744073709551615).2
    Composed r ∧ r.render = ":7,a b:1-18446744073709551615,i\u0307:0" ∧
      parse r.render = .ok r ∧ JsonForm.read? (JsonForm.write r) = some r ∧
      JsonForm.parse? (JsonForm.text r) = some r := by
  intro t s r
  have hread : parse " A b: 2-3 :1,\n : 07" = .ok t := by cbv
  have ht : Composed t := .parsed hread
  have hs : Composed s :=
    ((Composed.empty.interval ⟨⟨by decide, by decide⟩, by decide⟩ (by decide)).union ht).interval
      ⟨⟨by decide, by decide⟩, by decide⟩ (by decide)
  have hr : Composed r := hs.gtid ⟨⟨by decide, by decide⟩, by decide⟩ _
  exact ⟨hr, by cbv, comes_back_from_text hr⟩

end GtidSet

end ChangeFeed
