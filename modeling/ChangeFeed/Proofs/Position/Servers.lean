import ChangeFeed.Proofs.Gtid.Spelling
import ChangeFeed.Proofs.Position.Order
import ChangeFeed.Proofs.Wire.RoundTrip
import ChangeFeed.Source.Filter

/-!
# Positions of one server

**One server** (`OneServer`). Two positions name one server when their texts for it are the same
trimmed and in lower case.

**By place** (`ByPlace`). Positions of one server are to go by their places: in the order of
positions, and in the filter that a source resumes with.

**Spellings** (`Usual`). The order and the filter compare the texts as they stand. A position that
is tagged names its server in the usual spelling (`usual_tagged`), so all such positions go by
place. A position that is read from JSON names it as it is written there.

Main result: `one_server_by_place`, with `two_spellings_two_servers` for a spelling that is not
usual.
-/

namespace ChangeFeed

namespace LogPosition

variable {p q : LogPosition}

/-! ## Spellings -/

/-- The positions name one server, in whatever spelling. -/
def OneServer (p q : LogPosition) : Prop :=
  ∃ u v, p.server = some u ∧ q.server = some v ∧ normalUuid u.toList = normalUuid v.toList

/-- The server of the position, if there is one, is named in the usual spelling. -/
def Usual (p : LogPosition) : Prop :=
  ∀ u, p.server = some u → normalUuid u.toList = u.toList

theorem usual_tagged (p : LogPosition) (gtids : Option GtidSet) (server : Option String) :
    (p.tagged gtids server).Usual := by
  intro u hu
  obtain ⟨v, -, rfl⟩ := Option.map_eq_some_iff.1 hu
  rw [String.toList_ofList, normalUuid_normalUuid]

/-- In the usual spelling one server has one text. -/
theorem OneServer.server_eq (h : OneServer p q) (hp : p.Usual) (hq : q.Usual) :
    p.server = q.server := by
  obtain ⟨u, v, hu, hv, huv⟩ := h
  rw [hp u hu, hq v hv] at huv
  rw [hu, hv, String.toList_injective huv]

/-! ## Places -/

/-- The positions go by their places: the order of positions is that of the places, and a filter
that resumed from the first position holds back rows at the second one just if they are before. -/
structure ByPlace (p q : LogPosition) : Prop where
  lt_iff : p.compareTo q = .lt ↔ p.Before q
  gt_iff : p.compareTo q = .gt ↔ q.Before p
  held_iff : ∀ e : LogEvent, e.isRowEvent = true → e.position = q →
    ((DuplicateFilter.mk p).passes e = false ↔ q.Before p)

theorem byPlace_of_server {u : String} (hp : p.server = some u) (hq : q.server = some u) :
    p.ByPlace q where
  lt_iff := by rw [compareTo_of_server hp hq, compareOffsets_eq_lt_iff_before]
  gt_iff := by rw [compareTo_of_server hp hq, compareOffsets_eq_gt_iff_before]
  held_iff := by
    rintro e hrow rfl
    rw [DuplicateFilter.passes_eq_false_iff, and_iff_right hrow, and_iff_right (hq.trans hp.symm),
      compareTo_of_server hq hp, compareOffsets_eq_lt_iff_before]

/-- Positions that do not name their server alike go by their places when nothing is to be held back
and transactions do not hide which one is further on. -/
theorem byPlace_iff_of_ne (h : p.server ≠ q.server) :
    p.ByPlace q ↔ ¬q.Before p ∧ (p.Before q → p.sameProgress q = false) := by
  have hsame : p.sameServer q = false :=
    sameServer_eq_false fun u hu => h (hu.1.trans hu.2.symm)
  have hverdict : p.compareTo q = if p.sameProgress q = true then .eq else p.compareOffsets q := by
    rw [compareTo, hsame, if_neg Bool.false_ne_true]
  -- The filter holds nothing back that is of another server, as far as it can tell.
  have hpasses : ∀ e : LogEvent, e.position = q → (DuplicateFilter.mk p).passes e = true := by
    rintro e rfl
    rw [← Bool.not_eq_false, DuplicateFilter.passes_eq_false_iff]
    exact fun hheld => h hheld.2.1.symm
  constructor
  · intro hplace
    refine ⟨fun hbefore => ?_, fun hbefore => ?_⟩
    · have hheld := (hplace.held_iff (.writeRows ⟨0, 0, 0, q⟩ 0 []) rfl rfl).2 hbefore
      rw [hpasses _ rfl] at hheld
      cases hheld
    · refine Bool.eq_false_iff.2 fun hprogress => ?_
      have hlt := hplace.lt_iff.2 hbefore
      rw [hverdict, if_pos hprogress] at hlt
      cases hlt
  · rintro ⟨hnot, hhidden⟩
    have hlt : p.compareTo q = .lt ↔ p.Before q := by
      rw [hverdict, ← compareOffsets_eq_lt_iff_before]
      split
      · rename_i hprogress
        refine iff_of_false (by decide) fun hlt => ?_
        rw [hhidden (compareOffsets_eq_lt_iff_before.1 hlt)] at hprogress
        cases hprogress
      · rfl
    have hgt : p.compareTo q ≠ .gt := by
      rw [hverdict]
      split
      · decide
      · rwa [ne_eq, compareOffsets_eq_gt_iff_before]
    exact ⟨hlt, iff_of_false hgt hnot, fun e _ he =>
      iff_of_false (Bool.not_eq_false _ ▸ hpasses e he) hnot⟩

/-! ## Positions of one server -/

/-- **When positions of one server go by their places.** Positions that spell their server alike do,
and so do all positions that name it in the usual spelling, as tagged positions do. Positions in two
spellings do exactly if the second one is not before the first one, and transactions do not hide
that it is further on. What was written of a position is read in the spelling in which it was
written. -/
theorem one_server_by_place (p q : LogPosition) (h : OneServer p q) :
    (p.ByPlace q ↔
      p.server = q.server ∨ ¬q.Before p ∧ (p.Before q → p.sameProgress q = false)) ∧
    (p.Usual → q.Usual → p.ByPlace q) ∧
    (∀ (r : LogPosition) gtids server, (r.tagged gtids server).Usual) ∧
    (p.Portable → JsonForm.parse? (JsonForm.text p) = some p) := by
  have halike : p.server = q.server → p.ByPlace q := by
    intro hserver
    obtain ⟨u, -, hu, -⟩ := h
    exact byPlace_of_server hu (hserver.symm.trans hu)
  refine ⟨?_, fun hp hq => halike (h.server_eq hp hq), usual_tagged,
    fun hp => (faithful_position hp).parse?_text⟩
  by_cases hserver : p.server = q.server
  · exact iff_of_true (halike hserver) (Or.inl hserver)
  · rw [byPlace_iff_of_ne hserver, or_iff_right hserver]

/-- A source is tagged with a UUID in capital letters and in white space, and resumes from what was
written of its position. Rows before that position are held back, though their transactions are
within those of the position. -/
theorem one_server_by_place_tagged :
    let few : GtidSet := ⟨⟨[("ab", [⟨1, 5⟩])], by decide⟩⟩
    let many : GtidSet := ⟨⟨[("ab", [⟨1, 9⟩])], by decide⟩⟩
    let p := (plain "mysql-bin.000002" 200 210).tagged (some many) (some " AB\t")
    let q := (plain "mysql-bin.000002" 100 110).tagged (some few) (some "Ab")
    JsonForm.parse? (JsonForm.text p) = some p ∧ OneServer p q ∧ p.ByPlace q ∧
      (DuplicateFilter.mk p).passes (.writeRows ⟨100, 0, 1, q⟩ 7 [[.null]]) = false := by
  intro few many p q
  have hone : OneServer p q := ⟨"ab", "ab", by decide +kernel, by decide +kernel, rfl⟩
  obtain ⟨-, husual, htagged, hjson⟩ := one_server_by_place p q hone
  have hplace : p.ByPlace q := husual (htagged _ _ _) (htagged _ _ _)
  have hbefore : q.Before p := Or.inr ⟨rfl, by decide⟩
  have hread : GtidSet.parse "ab:1-9" = .ok many := by decide +kernel
  have hp : p.Portable := fun s hs => ⟨_, hread.trans (congrArg _ (Option.some.inj hs))⟩
  exact ⟨hjson hp, hone, hplace, (hplace.held_iff _ rfl rfl).2 hbefore⟩

/-- A source is tagged with a UUID in capital letters, and a position that was read from JSON names
the same UUID in capital letters. Rows there are before and get through, and the order of the two
positions says that neither is further on. -/
theorem two_spellings_two_servers :
    let ids : GtidSet := ⟨⟨[("ab", [⟨1, 5⟩])], by decide⟩⟩
    let p := (plain "mysql-bin.000002" 200 210).tagged (some ids) (some "AB")
    let q : LogPosition := ⟨"mysql-bin.000002", 100, 110, some ids, some "AB"⟩
    JsonForm.parse? (r#"{"fileName":"mysql-bin.000002","position":100,"nextPosition":110,"# ++
        r#""gtidSet":"ab:1-5","serverUUID":"AB"}"#) = some q ∧
      OneServer p q ∧ q.Before p ∧ p.compareTo q = .eq ∧
      (DuplicateFilter.mk p).passes (.writeRows ⟨100, 0, 1, q⟩ 7 [[.null]]) = true ∧
      ¬p.ByPlace q := by
  intro ids p q
  have hone : OneServer p q := ⟨"ab", "AB", by decide +kernel, rfl, by decide +kernel⟩
  have hread : GtidSet.parse "ab:1-5" = .ok ids := by decide +kernel
  have hq : q.Portable := fun s hs => ⟨_, hread.trans (congrArg _ (Option.some.inj hs))⟩
  have htext : JsonForm.text q =
      r#"{"fileName":"mysql-bin.000002","position":100,"nextPosition":110,"# ++
        r#""gtidSet":"ab:1-5","serverUUID":"AB"}"# := by
    decide +kernel
  have hbefore : q.Before p := Or.inr ⟨rfl, by decide⟩
  have hpasses : (DuplicateFilter.mk p).passes (.writeRows ⟨100, 0, 1, q⟩ 7 [[.null]]) = true := by
    decide +kernel
  refine ⟨htext ▸ (faithful_position hq).parse?_text, hone, hbefore, by decide +kernel, hpasses,
    fun hplace => ?_⟩
  rw [(hplace.held_iff _ rfl rfl).2 hbefore] at hpasses
  cases hpasses

end LogPosition

end ChangeFeed
