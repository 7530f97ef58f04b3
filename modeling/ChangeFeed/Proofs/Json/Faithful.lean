import ChangeFeed.Data.Result
import ChangeFeed.Proofs.Json.Reading

/-!
# Faithful JSON forms

**Faithful values** (`JsonForm.Faithful`). The tree of the value is a written tree, and reading the
tree gives the value again. So the value comes back from its text.

**Lossless types** (`JsonForm.Lossless`). All values of the type are faithful: Booleans, texts,
whole numbers of every width, and lists of those.

**Records and cases** (`Faithful.of_record`, `Faithful.of_case`). A record comes back when its
fields do, a case when its content does.

Main results: `Faithful.read?_write` and `Faithful.parse?_text`.
-/

namespace ChangeFeed

open JsonTree

namespace JsonForm

variable {α β : Type} [JsonForm α] [JsonForm β]

/-- The value has a written tree, which reads as the value. -/
structure Faithful (a : α) : Prop where
  written : (toTree a).Written
  reads : ofTree? (toTree a) = some a

/-- The bytes of the value read as the value. -/
theorem Faithful.read?_write {a : α} (h : Faithful a) : read? (write a) = some a := by
  rw [read?, write, read?_render h.written, Option.bind_some, h.reads]

/-- The text of the value reads as the value. -/
theorem Faithful.parse?_text {a : α} (h : Faithful a) : parse? (text a) = some a := by
  rw [parse?, text, utf8_text h.written]
  exact h.read?_write

/-- All values of the type are faithful. -/
class Lossless (α : Type) [JsonForm α] : Prop where
  faithful (a : α) : Faithful a

@[simp] theorem written_toTree [Lossless α] (a : α) : (toTree a).Written :=
  (Lossless.faithful a).written

@[simp] theorem ofTree?_toTree [Lossless α] (a : α) : ofTree? (toTree a) = some a :=
  (Lossless.faithful a).reads

/-! ## Basic types -/

instance : Lossless Bool := ⟨fun b => ⟨.bool b, rfl⟩⟩

instance : Lossless String := ⟨fun s => ⟨.string s, Json.unquoted?_quoted s⟩⟩

theorem intBetween?_ofInt {low high n : Int} (h : low ≤ n ∧ n ≤ high) :
    (JsonTree.ofInt n).intBetween? low high = some n := by
  rw [JsonTree.ofInt, intBetween?, JsonNumeral.int?_ofInt]
  exact if_pos h

/-- A whole number within the range of its type comes back. -/
theorem Faithful.of_int {a : α} {n low high : Int} {f : Int → α} (htree : toTree a = .ofInt n)
    (hform : ∀ t : JsonTree, ofTree? t = (t.intBetween? low high).map f)
    (hn : low ≤ n ∧ n ≤ high) (ha : f n = a) : Faithful a where
  written := htree ▸ .int n
  reads := by rw [htree, hform, intBetween?_ofInt hn, Option.map_some, ha]

theorem nat_between {n k : Nat} (h : n < k) : 0 ≤ (n : Int) ∧ (n : Int) ≤ k - 1 := by omega

instance : Lossless UInt8 where
  faithful n := .of_int rfl (fun _ => rfl) (nat_between n.toNat_lt) (UInt8.ofNat_toNat ..)

instance : Lossless UInt16 where
  faithful n := .of_int rfl (fun _ => rfl) (nat_between n.toNat_lt) (UInt16.ofNat_toNat ..)

instance : Lossless UInt32 where
  faithful n := .of_int rfl (fun _ => rfl) (nat_between n.toNat_lt) (UInt32.ofNat_toNat ..)

instance : Lossless UInt64 where
  faithful n := .of_int rfl (fun _ => rfl) (nat_between n.toNat_lt) (UInt64.ofNat_toNat ..)

theorem int_between {n k : Int} (hlow : -k ≤ n) (hhigh : n < k) : -k ≤ n ∧ n ≤ k - 1 := by omega

instance : Lossless Int8 where
  faithful n := .of_int rfl (fun _ => rfl) (int_between n.le_toInt n.toInt_lt) (Int8.ofInt_toInt n)

instance : Lossless Int16 where
  faithful n := .of_int rfl (fun _ => rfl) (int_between n.le_toInt n.toInt_lt) (Int16.ofInt_toInt n)

instance : Lossless Int32 where
  faithful n := .of_int rfl (fun _ => rfl) (int_between n.le_toInt n.toInt_lt) (Int32.ofInt_toInt n)

instance : Lossless Int64 where
  faithful n := .of_int rfl (fun _ => rfl) (int_between n.le_toInt n.toInt_lt) (Int64.ofInt_toInt n)

/-! ## Composed types -/

theorem faithful_none : Faithful (none : Option α) := ⟨.null, rfl⟩

/-- A value that is there comes back unless its tree says that there is none. -/
theorem faithful_some {a : α} (h : Faithful a) (hne : toTree a ≠ .null) : Faithful (some a) where
  written := h.written
  reads := by
    have hform : ∀ t : JsonTree, t ≠ .null →
        (ofTree? t : Option (Option α)) = (ofTree? t : Option α).map some := by
      intro t ht
      cases t with
      | null => exact absurd rfl ht
      | _ => rfl
    exact (hform (toTree a) hne).trans (by rw [h.reads, Option.map_some])

theorem faithful_option {o : Option α} (h : ∀ a, o = some a → Faithful a)
    (hne : ∀ a : α, toTree a ≠ .null) : Faithful o := by
  cases o with
  | none => exact faithful_none
  | some a => exact faithful_some (h a rfl) (hne a)

theorem faithful_list {as : List α} (h : ∀ a ∈ as, Faithful a) : Faithful as where
  written := by
    refine .arr fun t ht => ?_
    obtain ⟨a, ha, rfl⟩ := List.mem_map.1 ht
    exact (h a ha).written
  reads := mapM_map fun a ha => (h a ha).reads

instance [Lossless α] : Lossless (List α) := ⟨fun _ => faithful_list fun a _ => Lossless.faithful a⟩

theorem Faithful.pair {a : α} {b : β} (ha : Faithful a) (hb : Faithful b) :
    Faithful (a, b) where
  written := by
    refine .arr fun t ht => ?_
    rcases List.mem_cons.1 ht with rfl | ht
    · exact ha.written
    · obtain rfl := List.mem_singleton.1 ht
      exact hb.written
  reads := by
    show (ofTree? (toTree a)).bind _ = _
    rw [ha.reads, Option.bind_some, hb.reads]
    rfl

/-! ## Records -/

theorem written_ofFields {fs : List (String × JsonTree)} (h : ∀ f ∈ fs, f.2.Written) :
    (ofFields fs).Written := by
  refine .obj (fun m hm => ?_) (fun m hm => ?_)
  · obtain ⟨f, -, rfl⟩ := List.mem_map.1 hm
    exact ⟨f.1, rfl⟩
  · obtain ⟨f, hf, rfl⟩ := List.mem_map.1 hm
    exact h f hf

theorem gather_ofFields {names : List String} {acc fs : List (String × JsonTree)}
    (hmem : ∀ f ∈ fs, f.1 ∈ names) (hnd : ((acc ++ fs).map (·.1)).Nodup) :
    Record.gather names acc (fs.map fun f => (Json.quoted f.1, f.2)) = some (acc ++ fs) := by
  induction fs generalizing acc with
  | nil => exact congrArg _ (List.append_nil acc).symm
  | cons f fs ih =>
    have hname : names.contains f.1 = true :=
      List.contains_iff_mem.2 (hmem f List.mem_cons_self)
    have hnew : (acc.lookup f.1).isSome = false := by
      refine Bool.eq_false_iff.2 fun hold => ?_
      obtain ⟨t, ht⟩ := Option.isSome_iff_exists.1 hold
      obtain ⟨l, r, rfl, -⟩ := List.lookup_eq_some_iff.1 ht
      simp [List.nodup_append] at hnd
    rw [List.map_cons, Record.gather, Json.unquoted?_quoted]
    simp only [hname, hnew, if_true, Bool.false_eq_true, if_false]
    rw [← List.singleton_append, ← List.append_assoc] at hnd
    have hrest := ih (fun g hg => hmem g (List.mem_cons_of_mem _ hg)) hnd
    rwa [List.append_assoc] at hrest

/-- An object with the fields of a record is read as those fields. -/
theorem record_ofFields {fs : List (String × JsonTree)} (hnd : (fs.map (·.1)).Nodup) :
    Record.ofTree? (fs.map (·.1)) (ofFields fs) = some ⟨true, fs⟩ := by
  have hmem : ∀ f ∈ fs, f.1 ∈ fs.map (·.1) := fun f hf => List.mem_map_of_mem hf
  have hgather : Record.gather (fs.map (·.1)) [] _ = _ := gather_ofFields hmem hnd
  rw [ofFields, Record.ofTree?, hgather]
  rfl

@[simp] theorem lookup_cons_of_ne {name other : String} (h : other ≠ name) (t : JsonTree)
    (fs : List (String × JsonTree)) : ((name, t) :: fs).lookup other = fs.lookup other := by
  rw [List.lookup_cons, beq_eq_false_iff_ne.2 h]

/-- A record comes back when it is made of its fields. -/
theorem Faithful.of_record {a : α} {fs : List (String × JsonTree)} {names : List String}
    {make : Record → Option α} (htree : toTree a = .ofFields fs)
    (hform : ∀ t, ofTree? t = (Record.ofTree? names t).bind make)
    (hnames : names = fs.map (·.1)) (hnd : names.Nodup)
    (hwritten : ∀ f ∈ fs, f.2.Written) (hmake : make ⟨true, fs⟩ = some a) : Faithful a where
  written := htree ▸ written_ofFields hwritten
  reads := by rw [htree, hform, hnames, record_ofFields (hnames ▸ hnd), Option.bind_some, hmake]

/-! ## Cases -/

theorem written_ofCase {name : String} {t : JsonTree} (h : t.Written) :
    (ofCase name t).Written :=
  written_ofFields fun _ hf => List.mem_singleton.1 hf ▸ h

@[simp] theorem variant?_ofCase (name : String) (t : JsonTree) :
    (ofCase name t).variant? = some (name, some t) := by
  simp [ofCase, ofFields, variant?]

@[simp] theorem variant?_ofString (s : String) : (ofString s).variant? = some (s, none) := by
  simp [ofString, variant?]

@[simp] theorem plainCase?_ofString (s : String) : (ofString s).plainCase? = some s := by
  simp [plainCase?]

/-- A case comes back when its content does. -/
theorem Faithful.of_case {a : α} {b : β} {name : String} {make : β → α}
    (htree : toTree a = .ofCase name (toTree b)) (hb : Faithful b)
    (hform : ofTree? (.ofCase name (toTree b)) = (ofTree? (toTree b)).map make)
    (ha : make b = a) : Faithful a where
  written := htree ▸ written_ofCase hb.written
  reads := by rw [htree, hform, hb.reads, Option.map_some, ha]

/-- A case whose content is a record comes back when it is made of its fields. -/
theorem Faithful.of_case_record {a : α} {name : String} {fs : List (String × JsonTree)}
    {names : List String} {make : Record → Option α}
    (htree : toTree a = .ofCase name (.ofFields fs))
    (hform : ∀ t, ofTree? (.ofCase name t) = (Record.ofTree? names t).bind make)
    (hnames : names = fs.map (·.1)) (hnd : names.Nodup)
    (hwritten : ∀ f ∈ fs, f.2.Written) (hmake : make ⟨true, fs⟩ = some a) : Faithful a where
  written := htree ▸ written_ofCase (written_ofFields hwritten)
  reads := by rw [htree, hform, hnames, record_ofFields (hnames ▸ hnd), Option.bind_some, hmake]

/-! ## Maps -/

theorem faithful_nameMap {m : NameMap α} (h : ∀ e ∈ m.entries, Faithful e.2) : Faithful m where
  written := by
    refine written_ofFields fun f hf => ?_
    obtain ⟨e, he, rfl⟩ := List.mem_map.1 hf
    exact (h e he).written
  reads := by
    -- What reads a member of the object.
    let read (e : List UInt8 × JsonTree) : Option (String × α) := do
      return (← Json.unquoted? e.1, ← ofTree? e.2)
    have hread : (m.entries.map fun e => (Json.quoted e.1, toTree e.2)).mapM read =
        some m.entries :=
      mapM_map fun e he => by simp [read, (h e he).reads]
    have hform : ofTree? (toTree m) =
        (((m.entries.map fun e => (e.1, toTree e.2)).map fun f =>
          (Json.quoted f.1, f.2)).mapM read).bind fun es => some (NameMap.ofList es) := rfl
    rw [hform, List.map_map]
    refine (congrArg (Option.bind · _) hread).trans ?_
    exact congrArg some (NameMap.ofList_entries m)

end JsonForm

end ChangeFeed
