import ChangeFeed.Mutation.Mapper
import Mathlib.Tactic.Common

/-!
# What a source is to bring over

A log says which rows changed, and a source is to bring over the changes of the tables it follows,
from its initial position on.

**Changes** (`rowChanges`). The changes of the rows of an event, given the table that they are rows
of. Which transaction they belong to is left out.

**Tables** (`lastMap`). The table of a number is the one that the last table map before gave it to.

**The duty** (`Duty.Owes`, `Duty.Done`). What is to be brought over, and when this is done up to a
position.
-/

namespace ChangeFeed

/-! ## Changes -/

/-- A row change without the transaction that it belongs to. -/
def RowMutation.detached (m : RowMutation) : RowMutation :=
  { m with context := { m.context with transaction := none } }

/-- The mutation is about a row change. -/
def Mutation.Tells (m : Mutation) (c : RowMutation) : Prop := ∃ r, m = .row r ∧ r.detached = c

/-- The changes of the rows of an event, in order. -/
def rowChanges (source : DataSource) (t : Table) (e : LogEvent) : List RowMutation :=
  let context := (Mapper.new source .default).context e.header t
  match e with
  | .writeRows _ _ rs => rs.zipIdx.map fun r => .insert (context r.2) (Row.ofValues t r.1)
  | .updateRows _ _ rs =>
    rs.zipIdx.map fun r => .update (context r.2) (Row.ofValues t r.1.1) (Row.ofValues t r.1.2)
  | .deleteRows _ _ rs => rs.zipIdx.map fun r => .delete (context r.2) (Row.ofValues t r.1)
  | _ => []

/-- One of these mutations is about the change. -/
def Published (ms : List Mutation) (c : RowMutation) : Prop := ∃ m ∈ ms, m.Tells c

theorem Published.mono {ms ns : List Mutation} {c : RowMutation} (h : Published ms c)
    (hsub : ms ⊆ ns) : Published ns c := by
  obtain ⟨m, hm, hc⟩ := h
  exact ⟨m, hsub hm, hc⟩

/-! ## Tables -/

/-- The table that the event gives a number to. -/
def LogEvent.maps? (id : Int64) : LogEvent → Option Table
  | .tableMap _ t => if t.id = id then some t else none
  | _ => none

/-- The last table map of a number among the first events of a log: its place and its table. -/
def lastMap (log : List LogEvent) (id : Int64) : Nat → Option (Nat × Table)
  | 0 => none
  | n + 1 =>
    match log[n]?.bind (·.maps? id) with
    | some t => some (n, t)
    | none => lastMap log id n

/-- Between the last table map and the end there is no other one. -/
theorem lastMap_spec {log : List LogEvent} {id : Int64} {n k : Nat} {t : Table}
    (h : lastMap log id n = some (k, t)) :
    k < n ∧ (∃ e, log[k]? = some e ∧ e.maps? id = some t) ∧
      ∀ i, k < i → i < n → ∀ e, log[i]? = some e → e.maps? id = none := by
  induction n with
  | zero => cases h
  | succ n ih =>
    unfold lastMap at h
    split at h
    · rename_i u hu
      cases h
      exact ⟨Nat.lt_succ_self _, Option.bind_eq_some_iff.1 hu, fun i hi hlt => by omega⟩
    · rename_i hn
      obtain ⟨hk, he, hlast⟩ := ih h
      refine ⟨Nat.lt_succ_of_lt hk, he, fun i hi hlt e hie => ?_⟩
      rcases Nat.lt_succ_iff_lt_or_eq.1 hlt with hlt | rfl
      · exact hlast i hi hlt e hie
      · exact Option.bind_eq_none_iff.1 hn e hie

/-! ## The duty -/

/-- What a source is to bring over: the changes in a log of the tables it follows, all tables if
there is none, from an initial position on. -/
structure Duty where
  log : List LogEvent
  tables : List String
  initial : LogPosition
  /-- Where the mutations say they come from. -/
  origin : DataSource

namespace Duty

/-- Is a table followed? -/
def follows (d : Duty) (t : Table) : Bool :=
  d.tables.isEmpty || (d.tables.map Text.trim).contains t.canonicalName

/-- The event at a place of the log holds the change of a row of a followed table. -/
def Owes (d : Duty) (i : Nat) (c : RowMutation) : Prop :=
  ∃ e id k t, d.log[i]? = some e ∧ e.tableId? = some id ∧ lastMap d.log id i = some (k, t) ∧
    d.follows t = true ∧ c ∈ rowChanges d.origin t e

/-- Every change that is to be brought over and lies before a position is as `P` says. -/
def Done (d : Duty) (P : RowMutation → Prop) (p : LogPosition) : Prop :=
  ∀ i e c, d.log[i]? = some e → d.Owes i c → d.initial.rank ≤ e.position.rank →
    e.position.rank < p.rank → P c

/-- The events of the log are in order of their positions. -/
def Ordered (d : Duty) : Prop :=
  d.log.Pairwise fun e e' => e.position.rank ≤ e'.position.rank

variable {d : Duty} {P Q : RowMutation → Prop} {p : LogPosition}

theorem Ordered.rank_le (h : d.Ordered) {i j : Nat} {e e' : LogEvent} (he : d.log[i]? = some e)
    (he' : d.log[j]? = some e') (hij : i < j) : e.position.rank ≤ e'.position.rank := by
  obtain ⟨hi, rfl⟩ := List.getElem?_eq_some_iff.1 he
  obtain ⟨hj, rfl⟩ := List.getElem?_eq_some_iff.1 he'
  exact List.pairwise_iff_getElem.1 h i j hi hj hij

theorem Ordered.lt_of_rank_lt (h : d.Ordered) {i j : Nat} {e e' : LogEvent}
    (he : d.log[i]? = some e) (he' : d.log[j]? = some e')
    (hlt : e.position.rank < e'.position.rank) : i < j := by
  by_contra hge
  rcases Nat.lt_or_eq_of_le (Nat.le_of_not_lt hge) with hji | rfl
  · exact absurd (h.rank_le he' he hji) (Nat.not_le_of_lt hlt)
  · obtain rfl := Option.some.inj (he.symm.trans he')
    exact absurd hlt (Nat.lt_irrefl _)

theorem done_initial (d : Duty) (P : RowMutation → Prop) : d.Done P d.initial := by
  intro i e c he hc hfrom hto
  exact absurd hto (Nat.not_lt_of_le hfrom)

theorem Done.mono (h : d.Done P p) (hPQ : ∀ c, P c → Q c) : d.Done Q p := by
  intro i e c he hc hfrom hto
  exact hPQ c (h i e c he hc hfrom hto)

end Duty

end ChangeFeed
