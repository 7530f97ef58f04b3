import ChangeFeed.Proofs.Destination.Delivery
import Mathlib.Data.List.Forall2

/-!
# Mutations of one entity

An entity is named by a table and the values of a primary key. An update carries two images of its
row and touches two entities if it changes the key, but it is kept in order under the key of the
last image alone.

**Keys** (`Row.SameKey`). Keys are the same if their values are, one by one. The text of a key, by
which mutations are kept in order, is then the same as well, unless a floating-point zero is part of
it: both zeros are one value and have two texts (`Row.SameKey.keyText?_eq`).

**Changes** (`RowMutation.Touches`). Two changes touch one entity if any image of the one has the
key of any image of the other. If both keep their keys, their last images have one key text
(`RowMutation.Touches.keyText?_eq`).

**Deliveries** (`Depot.deliveries`). What a destination publishes in the whole of its life, however
often it is opened. What a worker has published comes before all that it still has to publish
(`Depot.Ahead`).

Main results: `Depot.entity_in_order` for changes whose last images have one key, or that keep it;
`Depot.entity_out_of_order` for an update that changes the key.
-/

namespace ChangeFeed

/-! ## Keys -/

namespace FloatFormat

/-- Is the number a zero, of either sign? -/
def isZero (f : FloatFormat) (bits : Nat) : Bool :=
  match f.decode bits with
  | .finite _ m _ => m == 0
  | _ => false

/-- One number has one text, unless it is zero. -/
theorem display_of_same {f : FloatFormat} {a b : Nat} (h : f.same a b = true)
    (hz : f.isZero a = false) : f.display a = f.display b := by
  unfold same at h
  unfold isZero at hz
  unfold display
  cases ha : f.decode a <;> cases hb : f.decode b <;> simp_all

end FloatFormat

namespace Value

/-- Is the value a floating-point zero? -/
def isZero : Value → Bool
  | float a => FloatFormat.single.isZero a.bits.toNat
  | double a => FloatFormat.double.isZero a.bits.toNat
  | _ => false

/-- Are two values the same, as numbers or bit by bit? -/
def Alike (v w : Value) : Prop := v = w ∨ v.same w = true

instance (v w : Value) : Decidable (v.Alike w) := inferInstanceAs (Decidable (_ ∨ _))

/-- Values that are alike have the same text, unless they are floating-point zeros. -/
theorem Alike.display_eq {v w : Value} (h : v.Alike w) (hz : v.isZero = false) :
    v.display = w.display := by
  rcases h with rfl | h
  · rfl
  · by_cases he : v.isExact = true
    · rw [(same_iff he).1 h]
    · cases v with
      | float a =>
        cases w with
        | float b => exact congrArg String.ofList (FloatFormat.display_of_same h hz)
        | _ => simp [same] at h
      | double a =>
        cases w with
        | double b => exact congrArg String.ofList (FloatFormat.display_of_same h hz)
        | _ => simp [same] at h
      | _ => exact absurd rfl he

end Value

namespace Row

/-- The values of the primary key in declared order. A key column without a value counts as null. -/
def keyValues (r : Row) : List Value := r.table.primaryKey.map fun n => (r.value? n).getD .null

/-- Do two rows have the same values in their primary keys, one by one? -/
def SameKey (a b : Row) : Prop := List.Forall₂ Value.Alike a.keyValues b.keyValues

/-- Is no value of the primary key a floating-point zero? -/
def NoZeroKey (r : Row) : Prop := ∀ v ∈ r.keyValues, v.isZero = false

theorem SameKey.refl (r : Row) : r.SameKey r := List.forall₂_same.2 fun _ _ => Or.inl rfl

theorem keyText?_eq_of_texts {a b : Row}
    (h : a.keyValues.map Value.display = b.keyValues.map Value.display) :
    a.keyText? = b.keyText? := by
  have htext : ∀ r : Row, r.keyText? = if (r.keyValues.map Value.display).isEmpty then none
      else some (String.join (r.keyValues.map Value.display)) := by
    intro r
    unfold keyText? keyValues
    rw [List.map_map, List.isEmpty_map]
    rfl
  rw [htext a, htext b, h]

/-- One key has one text, if no zero is part of it. -/
theorem SameKey.keyText?_eq {a b : Row} (h : a.SameKey b) (hz : a.NoZeroKey) :
    a.keyText? = b.keyText? := by
  refine keyText?_eq_of_texts ?_
  unfold SameKey at h
  unfold NoZeroKey at hz
  generalize a.keyValues = vs at h hz
  generalize b.keyValues = ws at h
  induction h with
  | nil => rfl
  | cons hv _ ih =>
    rw [List.forall_mem_cons] at hz
    rw [List.map_cons, List.map_cons, hv.display_eq hz.1, ih hz.2]

end Row

/-! ## Changes -/

namespace RowMutation

variable {a b : RowMutation}

/-- Do two changes belong to one table? -/
def SameTable (a b : RowMutation) : Prop :=
  a.context.table.database = b.context.table.database ∧ a.context.table.name = b.context.table.name

/-- Do two changes touch one entity, by any of their images? -/
def Touches (a b : RowMutation) : Prop :=
  a.SameTable b ∧ ∃ r ∈ a.change.images, ∃ q ∈ b.change.images, r.SameKey q

/-- Do all images of the change have the key of the last one, and no zero in it? -/
def KeepsKey (m : RowMutation) : Prop := ∀ r ∈ m.change.images, r.SameKey m.row ∧ r.NoZeroKey

/-- The last images of changes that keep their keys have one key text, if the changes touch one
entity. -/
theorem Touches.keyText?_eq (h : a.Touches b) (ha : a.KeepsKey) (hb : b.KeepsKey) :
    a.row.keyText? = b.row.keyText? := by
  obtain ⟨-, r, hr, q, hq, hrq⟩ := h
  calc a.row.keyText?
      = r.keyText? := ((ha r hr).1.keyText?_eq (ha r hr).2).symm
    _ = q.keyText? := hrq.keyText?_eq (ha r hr).2
    _ = b.row.keyText? := (hb q hq).1.keyText?_eq (hb q hq).2

theorem Touches.key_eq (h : a.Touches b) (hk : a.row.keyText? = b.row.keyText?) :
    a.key = b.key := by
  obtain ⟨⟨hdatabase, hname⟩, -⟩ := h
  simp only [key, hdatabase, hname, hk]

end RowMutation

/-- The worker of a row change is one of the pool. -/
theorem Destination.route_row {ι : Type} (d : Destination ι) (hd : 0 < d.poolSize)
    (m : RowMutation) : ∃ i < d.poolSize, d.route (.row m) = .ok i := by
  unfold Destination.route
  by_cases h1 : d.poolSize = 1
  · rw [if_pos h1]
    exact ⟨0, hd, rfl⟩
  · rw [if_neg h1]
    exact ⟨d.workerOf m.key, Nat.mod_lt _ hd, rfl⟩

/-! ## Deliveries -/

namespace Depot

variable {ι : Type} {s s' : Depot ι}

/-- What a move publishes. -/
def delivery (s : Depot ι) : Move → List Dispatch
  | .answer i .accepted => (s.dest.atPublisher i).getD []
  | _ => []

/-- What moves publish one after the other. -/
def deliveries (s : Depot ι) : List Move → List Dispatch
  | [] => []
  | m :: ms => s.delivery m ++ (s.step m).deliveries ms

/-! ### What a change leaves as it is -/

theorem poolSize_step (hst : Step s s') : s'.dest.workers.length = s.dest.workers.length := by
  cases hst with
  | openFailed hs hn hr => exact length_startFrom hr
  | _ => simp [setWorker, note, Destination.stopAll]

theorem sent_step (hst : Step s s') : ∃ ms, s'.sent = s.sent ++ ms := by
  cases hst with
  | @enrolled i m ms hs => exact ⟨[m], rfl⟩
  | _ => exact ⟨[], (List.append_nil _).symm⟩

theorem unpublished_join_sublist (w : Worker) : w.join.unpublished.Sublist w.unpublished := by
  unfold Worker.join
  split
  · exact List.nil_sublist _
  · exact List.nil_sublist _
  · exact List.Sublist.refl _
  · exact List.Sublist.refl _

/-- One worker changes, and has nothing new to publish. -/
theorem unpublished_of_set {i : Nat} {w v : Worker} (hw : s.dest.workers[i]? = some w)
    (hv : v.unpublished ⊆ w.unpublished) :
    ∀ (j : Nat) (u : Worker), (s.dest.workers.set i v)[j]? = some u →
      ∀ y ∈ u.unpublished, ∃ w, s.dest.workers[j]? = some w ∧ y ∈ w.unpublished :=
  forall_getElem?_set (fun _ u hu _ hy => ⟨u, hu, hy⟩) fun _ hy => ⟨w, hw, hv hy⟩

/-- All workers change, and have nothing new to publish. -/
theorem unpublished_of_map {f : Worker → Worker}
    (hf : ∀ w, (f w).unpublished ⊆ w.unpublished) :
    ∀ (j : Nat) (u : Worker), (s.dest.workers.map f)[j]? = some u →
      ∀ y ∈ u.unpublished, ∃ w, s.dest.workers[j]? = some w ∧ y ∈ w.unpublished :=
  forall_getElem?_map fun _ w hw _ hy => ⟨w, hw, hf w hy⟩

/-- What a worker has to publish it had to publish before, or was just placed. -/
theorem unpublished_of_step (hst : Step s s') {i : Nat} {v : Worker}
    (hv : s'.dest.workers[i]? = some v) {y : Dispatch} (hy : y ∈ v.unpublished) :
    (∃ w, s.dest.workers[i]? = some w ∧ y ∈ w.unpublished) ∨ ∃ ms, s.caller = .placing i y ms := by
  cases hst with
  | same => exact Or.inl ⟨v, hv, hy⟩
  | called hs hc => exact Or.inl ⟨v, hv, hy⟩
  | asked hs => exact Or.inl ⟨v, hv, hy⟩
  | assigned hs hf hr => exact Or.inl ⟨v, hv, hy⟩
  | enrolled hs => exact Or.inl ⟨v, hv, hy⟩
  | turnedAway hs hw hq => exact Or.inl ⟨v, hv, hy⟩
  | closedIdle hs ht => exact Or.inl ⟨v, hv, hy⟩
  | @placed j x ms w hs hw hq =>
    have hplaced : ∀ (i : Nat) (v : Worker),
        (s.dest.workers.set j (w.push (.dispatch x)))[i]? = some v → ∀ y ∈ v.unpublished,
          (∃ w, s.dest.workers[i]? = some w ∧ y ∈ w.unpublished) ∨
            ∃ ms, s.caller = .placing i y ms := by
      -- Only the worker that takes the dispatch has more to publish.
      refine forall_getElem?_set (fun i v hv y hy => Or.inl ⟨v, hv, hy⟩) fun y hy => ?_
      rw [Worker.unpublished_push] at hy
      rcases List.mem_append.1 hy with hy | hy
      · exact Or.inl ⟨w, hw, hy⟩
      · obtain rfl := List.mem_singleton.1 hy
        exact Or.inr ⟨ms, hs⟩
    exact hplaced i v hv y hy
  | pulled hw hc hs hlt hq =>
    have hp := (Worker.isCollecting_iff.1 hc).2
    exact Or.inl (unpublished_of_set hw (Worker.unpublished_pulled hp hq ▸ .refl _) i v hv y hy)
  | heardStop hw hc hs hq =>
    exact Or.inl (unpublished_of_set hw (Worker.unpublished_heardStop hq ▸ .refl _) i v hv y hy)
  | gaveUp hw hc hb hf =>
    exact Or.inl (unpublished_of_set hw (Worker.unpublished_drop _) i v hv y hy)
  | took hw hc hb hf =>
    have hp := (Worker.isCollecting_iff.1 hc).2
    exact Or.inl (unpublished_of_set hw (Worker.unpublished_publishing hp ▸ .refl _) i v hv y hy)
  | accepted hw hp =>
    refine Or.inl (unpublished_of_set hw ?_ i v hv y hy)
    rw [Worker.unpublished_acknowledging]
    exact (Worker.queued_sublist _).subset
  | refused hw hp =>
    exact Or.inl (unpublished_of_set hw (Worker.unpublished_failing hp _ ▸ .refl _) i v hv y hy)
  | reported hw hp => exact Or.inl (unpublished_of_set hw (Worker.unpublished_drop _) i v hv y hy)
  | crashedIdle hw hc hb => exact Or.inl (unpublished_of_set hw (List.nil_subset _) i v hv y hy)
  | crashed hw hp => exact Or.inl (unpublished_of_set hw (List.nil_subset _) i v hv y hy)
  | confirmed hw hp =>
    refine Or.inl (unpublished_of_set hw ?_ i v hv y hy)
    rw [Worker.unpublished_acknowledging]
    exact (Worker.queued_sublist _).subset
  | finished hw hp => exact Or.inl (unpublished_of_set hw (Worker.unpublished_drop _) i v hv y hy)
  | @exited j w hw hc hs hb =>
    have hu : Worker.unpublished { w with status := .exited } ⊆ w.unpublished := List.Subset.refl _
    exact Or.inl (unpublished_of_set hw hu i v hv y hy)
  | opened hs hn hp =>
    exact Or.inl (unpublished_of_map (fun w => w.unpublished_start.subset) i v hv y hy)
  | openFailed hs hn hr =>
    obtain ⟨w, hw, rfl | ⟨-, rfl⟩⟩ := getElem?_startFrom hr hv
    · exact Or.inl ⟨v, hw, hy⟩
    · exact Or.inl ⟨w, hw, w.unpublished_start.subset hy⟩
  | toldToStop hs =>
    exact Or.inl (unpublished_of_map (fun w => w.unpublished_told ▸ .refl _) i v hv y hy)
  | closed hs hq ht =>
    exact Or.inl (unpublished_of_map (fun w => (unpublished_join_sublist w).subset) i v hv y hy)

/-- What is about to be placed was so before, or was just tracked. -/
theorem placing_of_step (hst : Step s s') {i : Nat} {x : Dispatch} {ms : List Mutation}
    (hc : s'.caller = .placing i x ms) :
    s.caller = .placing i x ms ∨ x.seq = s.dest.tracker.nextSeq := by
  cases hst with
  | enrolled hs =>
    cases hc
    exact Or.inr rfl
  | called hs hplain =>
    obtain rfl := hc
    cases hplain
  | _ => first | exact Or.inl hc | cases hc

/-! ### What was published and what still is to be -/

/-- These dispatches were published in order, and ahead of all that is under way. -/
structure Ahead (past : List Dispatch) (s : Depot ι) : Prop where
  known : ∀ x ∈ past, s.sent[x.seq]? = some x.mutation
  order : past.Pairwise fun x y => s.dest.route x.mutation = s.dest.route y.mutation → x.seq < y.seq
  held : ∀ (i : Nat) (w : Worker), s.dest.workers[i]? = some w → ∀ x ∈ past,
    s.dest.route x.mutation = .ok i → ∀ y ∈ w.unpublished, x.seq < y.seq
  placing : ∀ i y ms, s.caller = .placing i y ms → ∀ x ∈ past, x.seq < y.seq

theorem ahead_nil (s : Depot ι) : Ahead [] s := by
  constructor <;> simp

theorem ahead_step {past : List Dispatch} (hs : Sound s) (h : Ahead past s) (hst : Step s s') :
    Ahead past s' := by
  have hroute : s'.dest.route = s.dest.route := funext (route_eq (poolSize_step hst))
  obtain ⟨ms, hsent⟩ := sent_step hst
  refine ⟨fun x hx => ?_, ?_, fun i v hv x hx hr y hy => ?_, fun i y ms hc x hx => ?_⟩
  · have hk := h.known x hx
    rw [hsent, List.getElem?_append_left (List.getElem?_eq_some_iff.1 hk).1]
    exact hk
  · rw [hroute]
    exact h.order
  · rw [hroute] at hr
    rcases unpublished_of_step hst hv hy with ⟨w, hw, hy⟩ | ⟨ms, hc⟩
    · exact h.held i w hw x hx hr y hy
    · exact h.placing i y ms hc x hx
  · rcases placing_of_step hst hc with hc | hnext
    · exact h.placing i y ms hc x hx
    · rw [hnext, hs.tracked.next]
      exact (List.getElem?_eq_some_iff.1 (h.known x hx)).1

/-- A batch that a worker publishes goes ahead of what the worker holds besides. -/
theorem ahead_accepted {past : List Dispatch} (hs : Sound s) (h : Ahead past s) {i : Nat}
    {b : List Dispatch} (hb : s.dest.atPublisher i = some b) :
    Ahead (past ++ b) (s.answer i .accepted) := by
  obtain ⟨w, hw, hp, rfl⟩ := atPublisher_eq_some.1 hb
  have hstep := step_answer s i .accepted
  have hkept := ahead_step hs h hstep
  have hroute : (s.answer i .accepted).dest.route = s.dest.route :=
    funext (route_eq (poolSize_step hstep))
  have hworkers : (s.answer i .accepted).dest.workers =
      s.dest.workers.set i { w with phase := .acknowledging (w.batch.map (·.seq)) } := by
    simp only [answer, hb, Destination.answer, modify_eq hw]
  have hcaller : (s.answer i .accepted).caller = s.caller := by
    simp only [answer, hb]
  have hknown : ∀ x ∈ w.batch, s.Knows i x := fun x hx =>
    hs.numbered.held i w hw x (List.mem_append_left _ hx)
  obtain ⟨hbatch, -, hrest⟩ := List.pairwise_append.1 (hs.numbered.order i w hw)
  refine ⟨List.forall_mem_append.2 ⟨hkept.known, fun x hx => ?_⟩,
    List.pairwise_append.2 ⟨hkept.order, hbatch.imp ?_, fun x hx y hy hxy => ?_⟩,
    fun j v hv => List.forall_mem_append.2 ⟨hkept.held j v hv, fun x hx hr y hy => ?_⟩,
    fun j y ms hc => List.forall_mem_append.2 ⟨hkept.placing j y ms hc, fun x hx => ?_⟩⟩
  · obtain ⟨ms, hsent⟩ := sent_step hstep
    have hx' := (hknown x hx).1
    rw [hsent, List.getElem?_append_left (List.getElem?_eq_some_iff.1 hx').1]
    exact hx'
  · intro x y hlt _
    exact hlt
  · rw [hroute] at hxy
    -- What was published before is ahead of all that the worker held, the batch included.
    refine h.held i w hw x hx (hxy.trans (hknown y hy).2) y ?_
    rw [Worker.unpublished_of_publishing hp]
    exact List.mem_append_left _ hy
  · rw [hroute, (hknown x hx).2] at hr
    -- The same worker holds `y`, behind its batch.
    cases hr
    rw [hworkers, List.getElem?_set_self (List.getElem?_eq_some_iff.1 hw).1] at hv
    cases hv
    exact hrest x hx y hy
  · rw [hcaller] at hc
    exact (hs.numbered.placing j y ms hc).2 i w hw x (List.mem_append_left _ hx)

theorem ahead_move {past : List Dispatch} (hs : Sound s) (h : Ahead past s) (m : Move) :
    Ahead (past ++ s.delivery m) (s.step m) := by
  have hkept := ahead_step hs h (step_of_move s m)
  cases m with
  | answer i v =>
    cases v with
    | accepted =>
      show Ahead (past ++ (s.dest.atPublisher i).getD []) _
      cases hb : s.dest.atPublisher i with
      | none => exact (List.append_nil past).symm ▸ hkept
      | some b => exact ahead_accepted hs h hb
    | _ => exact (List.append_nil past).symm ▸ hkept
  | _ => exact (List.append_nil past).symm ▸ hkept

theorem ahead_run {past : List Dispatch} (hs : Sound s) (h : Ahead past s) (ms : List Move) :
    Ahead (past ++ s.deliveries ms) (s.run ms) := by
  induction ms generalizing s past with
  | nil => exact (List.append_nil past).symm ▸ h
  | cons m ms ih =>
    have hstep := ih (sound_step hs (step_of_move s m)) (ahead_move hs h m)
    rwa [List.append_assoc] at hstep

/-! ## The main results -/

theorem poolSize_run (s : Depot ι) (ms : List Move) :
    (s.run ms).dest.poolSize = s.dest.poolSize :=
  run_induction (P := fun s' => s'.dest.poolSize = s.dest.poolSize) rfl
    (fun h hst => (poolSize_step hst).trans h) ms

theorem poolSize_build {p : DestinationPlan} {d : Destination ι} (h : p.build = .ok d) :
    0 < d.poolSize ∧ d.poolSize = p.poolSize := by
  unfold DestinationPlan.build at h
  split at h
  · cases h
  · rename_i hn
    cases h
    simp only [Destination.poolSize, List.length_replicate, and_true]
    exact Nat.pos_of_ne_zero fun hz => hn (Or.inl hz)

/-- **Changes of one entity stay in order.** Two changes that touch one entity go to one worker if
their last images have one key, and so if both keep their keys. However a destination is built,
opened, worked and closed, of all that it ever publishes of them, what is published first was sent
first. With one worker this holds whatever their keys are. -/
theorem entity_in_order {p : DestinationPlan} {d : Destination ι} (h : p.build = .ok d)
    {a b : RowMutation} (hab : a.Touches b)
    (hk : p.poolSize = 1 ∨ a.row.keyText? = b.row.keyText? ∨ a.KeepsKey ∧ b.KeepsKey)
    (ms : List Move) :
    (∃ i < p.poolSize, ((start d).run ms).dest.route (.row a) = .ok i ∧
      ((start d).run ms).dest.route (.row b) = .ok i) ∧
    (∀ x ∈ (start d).deliveries ms, ((start d).run ms).sent[x.seq]? = some x.mutation) ∧
    ((start d).deliveries ms).Pairwise fun x y =>
      x.mutation ∈ [.row a, .row b] → y.mutation ∈ [.row a, .row b] → x.seq < y.seq := by
  obtain ⟨hpos, hsize⟩ := poolSize_build h
  have hrun : ((start d).run ms).dest.poolSize = p.poolSize := (poolSize_run _ ms).trans hsize
  have hone : ((start d).run ms).dest.route (.row a) = ((start d).run ms).dest.route (.row b) := by
    unfold Destination.route
    rw [hrun]
    rcases hk with h1 | hk | ⟨ha, hb⟩
    · rw [if_pos h1, if_pos h1]
    · simp only [Mutation.key, hab.key_eq hk]
    · simp only [Mutation.key, hab.key_eq (hab.keyText?_eq ha hb)]
  have hahead := ahead_run (sound_start h) (ahead_nil (start d)) ms
  refine ⟨?_, hahead.known, hahead.order.imp fun {x y} hlt hx hy => hlt ?_⟩
  · obtain ⟨i, hi, hr⟩ := ((start d).run ms).dest.route_row (by omega) a
    exact ⟨i, hrun ▸ hi, hr, hone ▸ hr⟩
  · have hroute : ∀ m ∈ [Mutation.row a, .row b],
        ((start d).run ms).dest.route m = ((start d).run ms).dest.route (.row a) := by
      intro m hm
      simp only [List.mem_cons, List.not_mem_nil, or_false] at hm
      rcases hm with rfl | rfl
      · rfl
      · exact hone.symm
    exact (hroute _ hx).trans (hroute _ hy).symm

/-- An insert and an update of one row. -/
theorem entity_in_order_update :
    let users : Table := ⟨7, "users", "test", [⟨"id", .longLong, true, 0⟩], ["id"]⟩
    let context : RowContext := ⟨⟨1, 1⟩, ⟨"", 0, ""⟩, default, users, 1, none, 0⟩
    let row := Row.ofValues users [.long 1]
    let a := RowMutation.insert context row
    let b := RowMutation.update context row row
    let plan : DestinationPlan := { name := "d", poolSize := 2 }
    ∃ d : Destination Unit, plan.build = .ok d ∧
      a.Touches b ∧ a.row.keyText? = b.row.keyText? ∧
        ∃ i < 2, d.route (.row a) = .ok i ∧ d.route (.row b) = .ok i :=
  ⟨_, rfl, ⟨⟨rfl, rfl⟩, _, .head _, _, .head _, .refl _⟩, rfl,
    (entity_in_order (p := { name := "d", poolSize := 2 }) rfl
      ⟨⟨rfl, rfl⟩, _, .head _, _, .head _, .refl _⟩ (Or.inr (Or.inl rfl)) []).1⟩

/-- An update that changes the key goes by its new key alone. The row is inserted by one worker and
updated by another, and nothing keeps the second from being faster. The zeros of both signs are one
value and go to two workers. -/
theorem entity_out_of_order :
    let users : Table := ⟨7, "users", "test", [⟨"id", .longLong, true, 0⟩], ["id"]⟩
    let context : RowContext := ⟨⟨1, 1⟩, ⟨"", 0, ""⟩, default, users, 1, none, 0⟩
    let row (v : Value) := Row.ofValues users [v]
    let a := RowMutation.insert context (row (.long 1))
    let b := RowMutation.update context (row (.long 1)) (row (.long 2))
    let plus := RowMutation.insert context (row (.double ⟨0⟩))
    let minus := RowMutation.delete context (row (.double ⟨0x8000000000000000⟩))
    ∃ d : Destination Unit, DestinationPlan.build { name := "d", poolSize := 2 } = .ok d ∧
      a.Touches b ∧ d.route (.row a) = .ok 0 ∧ d.route (.row b) = .ok 1 ∧
        (start d).deliveries [.send [.row a, .row b], .proceed, .proceed, .proceed, .proceed,
          .proceed, .proceed, .proceed, .openPool, .pull 1, .begin 1, .answer 1 .accepted, .pull 0,
          .begin 0, .answer 0 .accepted] = [⟨1, .row b⟩, ⟨0, .row a⟩] ∧
      plus.Touches minus ∧ d.route (.row plus) ≠ d.route (.row minus) :=
  ⟨_, rfl, ⟨⟨rfl, rfl⟩, _, .head _, _, .head _, .refl _⟩, by decide +kernel, by decide +kernel,
    by decide +kernel,
    ⟨⟨rfl, rfl⟩, _, .head _, _, .head _, .cons (Or.inr (by decide +kernel)) .nil⟩,
    by decide +kernel⟩

end Depot

end ChangeFeed
