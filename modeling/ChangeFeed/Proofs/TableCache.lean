import ChangeFeed.TableCache
import ChangeFeed.Proofs.Lru
import Mathlib.Data.List.Perm.Subperm

/-!
# What the cache of schemas keeps and finds

**Uses** (`TableCache.Use`, `TableCache.after`). What is done with a cache, and what any number of
uses lead to.

**The invariant** (`TableCache.Fits`). What is cached under a number was registered under it last,
and a name that is indexed is indexed at the number of the table that was registered under it last.
The index is not told when a number goes to another table, nor when a schema is forgotten, and it
forgets names in an order of its own.

Main results: `keeps_other_schemas`, `finds_last_named_iff` and `indexed_of_room`.
-/

namespace ChangeFeed

namespace TableCache

variable {c c' : TableCache} {n : Nat} {t u : Table} {id : Int64} {key : String}

/-! ## Registering a table -/

/-- The schemas that a table which comes back leaves cached: those of other numbers than the one
that its name stood for. -/
def withoutFormer (c : TableCache) (t : Table) : Lru Int64 Table :=
  match c.numbers.peek? t.canonicalName with
  | some old => if old = t.id then c.tables else c.tables.erase old
  | none => c.tables

theorem tables_register (c : TableCache) (t : Table) :
    (c.register t).tables = ((c.withoutFormer t).put t.id t).2 := by
  unfold register withoutFormer
  rewrite [← Lru.fst_put c.numbers t.canonicalName t.id]
  rfl

theorem numbers_register (c : TableCache) (t : Table) :
    (c.register t).numbers = (c.numbers.put t.canonicalName t.id).2 := rfl

theorem peek?_withoutFormer (hid : id ≠ t.id) :
    (c.withoutFormer t).peek? id =
      if c.numbers.peek? t.canonicalName = some id then none else c.tables.peek? id := by
  unfold withoutFormer
  cases h : c.numbers.peek? t.canonicalName with
  | none => rfl
  | some old =>
    by_cases hold : old = t.id
    · simp [hold, hid.symm]
    · simp only [hold, if_false, Lru.peek?_erase, Option.some.injEq, eq_comm]

theorem peek?_withoutFormer_self (c : TableCache) (t : Table) :
    (c.withoutFormer t).peek? t.id = c.tables.peek? t.id := by
  unfold withoutFormer
  split
  · split
    · rfl
    · rename_i hold
      rw [Lru.peek?_erase, if_neg (Ne.symm hold)]
  · rfl

theorem sound_withoutFormer (hc : c.tables.Sound n) (t : Table) : (c.withoutFormer t).Sound n := by
  unfold withoutFormer
  split
  · split
    · exact hc
    · exact hc.erase _
  · exact hc

/-- A cache that is full without the former schema had no former schema. -/
theorem withoutFormer_eq_self (hc : c.tables.Sound n) (h : (c.withoutFormer t).size = n) :
    c.withoutFormer t = c.tables := by
  unfold withoutFormer at h ⊢
  split at h
  · split at h
    · rw [if_pos ‹_›]
    · rw [if_neg ‹_›, hc.erase_eq_self h]
  · rfl

/-- The schema of another number stays, unless the name stood for this number, or the cache is full
and this schema is the oldest one. -/
theorem peek?_register (hc : c.tables.Sound n) (hid : id ≠ t.id)
    (hkey : c.numbers.peek? t.canonicalName ≠ some id) :
    (c.register t).tables.peek? id = c.tables.peek? id ∨
      (c.register t).tables.peek? id = none ∧ c.contains t.id = false ∧ c.size = n ∧
        c.tables.oldest? = some id := by
  have hleft : (c.withoutFormer t).peek? id = c.tables.peek? id := by
    rw [peek?_withoutFormer hid, if_neg hkey]
  rw [tables_register, Lru.peek?_put_of_ne (sound_withoutFormer hc t) hid, hleft]
  by_cases hfull : (c.withoutFormer t).peek? t.id = none ∧ (c.withoutFormer t).size = n ∧
      (c.withoutFormer t).oldest? = some id
  · refine Or.inr ⟨if_pos hfull, ?_⟩
    obtain ⟨hnew, hsize, hold⟩ := hfull
    rw [peek?_withoutFormer_self] at hnew
    -- It is still full, so no former schema made way.
    have hsame := withoutFormer_eq_self hc hsize
    rw [hsame] at hsize hold
    exact ⟨by simp [contains, Lru.contains, hnew], hsize, hold⟩
  · exact Or.inl (if_neg hfull)

/-- The schema of the number that the name stood for goes. -/
theorem peek?_register_former (hc : c.tables.Sound n) (hid : id ≠ t.id)
    (hkey : c.numbers.peek? t.canonicalName = some id) :
    (c.register t).tables.peek? id = none := by
  rw [tables_register, Lru.peek?_put_of_ne (sound_withoutFormer hc t) hid, peek?_withoutFormer hid,
    if_pos hkey, ite_self]

theorem fst_get (c : TableCache) (id : Int64) : (c.get id).1 = c.tables.peek? id :=
  Lru.fst_get _ _

theorem fst_getByName (c : TableCache) (database name : String) :
    (c.getByName database name).1 =
      (c.numbers.peek? (Table.canonicalNameOf database name)).bind c.tables.peek? := by
  have hget := Lru.fst_get c.numbers (Table.canonicalNameOf database name)
  unfold getByName
  split
  all_goals
    rename_i h
    rw [h] at hget
    rw [← hget]
  · exact Lru.fst_get _ _
  · rfl

@[simp] theorem peek?_numbers_getByName (c : TableCache) (database name key : String) :
    (c.getByName database name).2.numbers.peek? key = c.numbers.peek? key := by
  have hget := Lru.peek?_get c.numbers (Table.canonicalNameOf database name) key
  unfold getByName
  split
  all_goals
    rename_i h
    rw [h] at hget
    exact hget

/-! ## The cache in use -/

/-- What is done with a cache. -/
inductive Use where
  | register (t : Table)
  | get (id : Int64)
  | getByName (database name : String)
  | contains (id : Int64)
  | remove (id : Int64)
  | clear

/-- The cache after one use. -/
def use (c : TableCache) : Use → TableCache
  | .register t => c.register t
  | .get id => (c.get id).2
  | .getByName database name => (c.getByName database name).2
  | .contains _ => c
  | .remove id => (c.remove id).2
  | .clear => c.clear

/-- The cache that is asked to have a capacity, after it was used. -/
def after (n : Nat) (us : List Use) : TableCache := us.foldl use (ofCapacity n)

/-- How many entries a cache can have that is asked to have a capacity. -/
def roomFor (n : Nat) : Nat := if n = 0 then defaultCapacity else n

/-- The table that a use registers, if it does. -/
def Use.table? : Use → Option Table
  | .register t => some t
  | _ => none

/-- The tables that were registered, in order. -/
def registered (us : List Use) : List Table := us.filterMap Use.table?

/-- The table that was registered under a number last. -/
def lastNumbered (id : Int64) (us : List Use) : Option Table :=
  (registered us).reverse.find? (·.id == id)

/-- The table that was registered under a name last. -/
def lastNamed (key : String) (us : List Use) : Option Table :=
  (registered us).reverse.find? (·.canonicalName == key)

/-- The names that tables were registered under. -/
def names (us : List Use) : List String := ((registered us).map Table.canonicalName).dedup

variable {us : List Use}

theorem roomFor_pos (n : Nat) : 0 < roomFor n := by
  unfold roomFor defaultCapacity
  split <;> omega

theorem after_concat (n : Nat) (us : List Use) (u : Use) :
    after n (us ++ [u]) = (after n us).use u := by
  simp [after]

theorem registered_concat (us : List Use) (u : Use) :
    registered (us ++ [u]) = registered us ++ u.table?.toList := by
  cases h : u.table? <;> simp [registered, h]

theorem lastNumbered_register (id : Int64) (us : List Use) (t : Table) :
    lastNumbered id (us ++ [.register t]) = if t.id = id then some t else lastNumbered id us := by
  by_cases h : t.id = id <;> simp [lastNumbered, registered_concat, Use.table?, h]

theorem lastNamed_register (key : String) (us : List Use) (t : Table) :
    lastNamed key (us ++ [.register t]) =
      if t.canonicalName = key then some t else lastNamed key us := by
  by_cases h : t.canonicalName = key <;> simp [lastNamed, registered_concat, Use.table?, h]

theorem of_lastNumbered (h : lastNumbered id us = some t) : t ∈ registered us ∧ t.id = id := by
  refine ⟨List.mem_reverse.1 (List.mem_of_find?_eq_some h), ?_⟩
  simpa using List.find?_some h

theorem of_lastNamed (h : lastNamed key us = some t) :
    t ∈ registered us ∧ t.canonicalName = key := by
  refine ⟨List.mem_reverse.1 (List.mem_of_find?_eq_some h), ?_⟩
  simpa using List.find?_some h

/-- The first that meets a condition is the first that meets another one, if each of the two meets
both. -/
theorem find?_unique {α : Type} {p q : α → Bool} {xs : List α} {a b : α}
    (ha : xs.find? p = some a) (hb : xs.find? q = some b) (hqa : q a = true) (hpb : p b = true) :
    a = b := by
  induction xs with
  | nil => cases ha
  | cons x xs ih =>
    rw [List.find?_cons] at ha hb
    cases hp : p x <;> cases hq : q x <;> simp only [hp, hq] at ha hb
    · exact ih ha hb
    · cases hb
      rw [hp] at hpb
      cases hpb
    · cases ha
      rw [hq] at hqa
      cases hqa
    · exact Option.some.inj (ha.symm.trans hb)

/-- The last table of a number and the last one of a name are one if the first has the name and the
second the number. -/
theorem lastNumbered_eq_lastNamed (hu : lastNumbered id us = some u)
    (ht : lastNamed key us = some t) (hname : u.canonicalName = key) (hid : t.id = id) : u = t :=
  find?_unique hu ht (by simpa using hname) (by simpa using hid)

/-! ## What is cached and indexed -/

/-- How a cache stands after it was used. -/
structure Fits (n : Nat) (us : List Use) (c : TableCache) : Prop where
  tables : c.tables.Sound (roomFor n)
  numbers : c.numbers.Sound (roomFor n)
  /-- What is cached under a number was registered under it last. -/
  current : ∀ {id t}, c.tables.peek? id = some t → lastNumbered id us = some t
  /-- A name is indexed at the number that the last table of this name had. -/
  indexed : ∀ {key id}, c.numbers.peek? key = some id → ∃ t, lastNamed key us = some t ∧ t.id = id

theorem fits_ofCapacity (n : Nat) : Fits n [] (ofCapacity n) where
  tables := Lru.sound_empty (roomFor_pos n)
  numbers := Lru.sound_empty (roomFor_pos n)
  current h := by cases h
  indexed h := by cases h

/-- A use that puts nothing in keeps the cache as it should be. -/
theorem Fits.of_quiet (h : Fits n us c) {u : Use} (hu : u.table? = none)
    (ht : c'.tables.Sound (roomFor n)) (hn : c'.numbers.Sound (roomFor n))
    (htables : ∀ {id t}, c'.tables.peek? id = some t → c.tables.peek? id = some t)
    (hnumbers : ∀ {key id}, c'.numbers.peek? key = some id → c.numbers.peek? key = some id) :
    Fits n (us ++ [u]) c' := by
  have hsame : registered (us ++ [u]) = registered us := by
    rw [registered_concat, hu, Option.toList_none, List.append_nil]
  refine ⟨ht, hn, fun hc => ?_, fun hc => ?_⟩
  · rw [lastNumbered, hsame]
    exact h.current (htables hc)
  · rw [lastNamed, hsame]
    exact h.indexed (hnumbers hc)

theorem Fits.register (h : Fits n us c) (t : Table) :
    Fits n (us ++ [.register t]) (c.register t) := by
  refine ⟨?_, h.numbers.put _ _, fun {id u} hu => ?_, fun {key id} hid => ?_⟩
  · rw [tables_register]
    exact (sound_withoutFormer h.tables t).put _ _
  · rw [lastNumbered_register]
    rcases peek?_of_register hu with ⟨rfl, rfl⟩ | ⟨hne, hold⟩
    · rw [if_pos rfl]
    · rw [if_neg hne.symm]
      exact h.current hold
  · rw [lastNamed_register]
    rw [numbers_register] at hid
    by_cases hkey : key = t.canonicalName
    · subst hkey
      rw [Lru.peek?_put_self] at hid
      exact ⟨t, if_pos rfl, Option.some.inj hid⟩
    · rw [if_neg (Ne.symm hkey)]
      exact h.indexed (Lru.peek?_of_put hkey hid)

theorem Fits.getByName (h : Fits n us c) (database name : String) :
    Fits n (us ++ [.getByName database name]) (c.getByName database name).2 := by
  have hnumbers := h.numbers.get (Table.canonicalNameOf database name)
  refine h.of_quiet rfl ?_ ?_ (by simp) (by simp)
  all_goals
    unfold TableCache.getByName
    split
    all_goals
      rename_i hget
      rw [hget] at hnumbers
  · exact h.tables.get _
  · exact h.tables
  · exact hnumbers
  · exact hnumbers

theorem Fits.remove (h : Fits n us c) (id : Int64) :
    Fits n (us ++ [.remove id]) (c.remove id).2 := by
  unfold TableCache.remove
  split
  · exact h.of_quiet rfl h.tables h.numbers (·) (·)
  · refine h.of_quiet rfl (h.tables.erase id) ?_ Lru.peek?_of_erase ?_
    · split
      · exact h.numbers.erase _
      · exact h.numbers
    · intro key id' hid
      dsimp only at hid
      split at hid
      · exact Lru.peek?_of_erase hid
      · exact hid

theorem Fits.use (h : Fits n us c) (u : Use) : Fits n (us ++ [u]) (c.use u) := by
  cases u with
  | register t => exact h.register t
  | get id => exact h.of_quiet rfl (h.tables.get id) h.numbers (by simp [TableCache.use]) (·)
  | getByName database name => exact h.getByName database name
  | contains id => exact h.of_quiet rfl h.tables h.numbers (·) (·)
  | remove id => exact h.remove id
  | clear =>
    exact h.of_quiet rfl h.tables.clear h.numbers.clear (fun hc => by cases hc)
      (fun hc => by cases hc)

/-- However it was used, the cache is as it should be. -/
theorem fits_after (n : Nat) (us : List Use) : Fits n us (after n us) := by
  induction us using List.reverseRecOn with
  | nil => exact fits_ofCapacity n
  | append_singleton us u ih =>
    rw [after_concat]
    exact ih.use u

/-! ## Room for all names -/

/-- Every cached table is found by its name. -/
def Indexed (c : TableCache) : Prop :=
  ∀ id t, c.tables.peek? id = some t → c.numbers.peek? t.canonicalName = some id

theorem mem_names_iff : key ∈ names us ↔ ∃ t ∈ registered us, t.canonicalName = key := by
  simp [names]

theorem length_names_le (us : List Use) (u : Use) :
    (names us).length ≤ (names (us ++ [u])).length := by
  refine (List.subperm_of_subset (List.nodup_dedup _) fun key hkey => ?_).length_le
  obtain ⟨t, ht, rfl⟩ := mem_names_iff.1 hkey
  refine mem_names_iff.2 ⟨t, ?_, rfl⟩
  rw [registered_concat]
  exact List.mem_append_left _ ht

/-- The index has a place for a new name as long as all names fit in. -/
theorem Fits.size_numbers_lt (h : Fits n us c)
    (hroom : (names (us ++ [.register t])).length ≤ roomFor n)
    (hnew : c.numbers.peek? t.canonicalName = none) : c.numbers.size < roomFor n := by
  have hmem : ∀ key ∈ t.canonicalName :: c.numbers.entries.map (·.1),
      key ∈ names (us ++ [.register t]) := by
    intro key hkey
    rw [mem_names_iff, registered_concat]
    rcases List.mem_cons.1 hkey with rfl | hkey
    · exact ⟨t, by simp [Use.table?], rfl⟩
    · obtain ⟨id, hid⟩ := Option.ne_none_iff_exists'.1 (Lru.mem_keys_iff.1 hkey)
      obtain ⟨u, hu, -⟩ := h.indexed hid
      exact ⟨u, List.mem_append_left _ (of_lastNamed hu).1, (of_lastNamed hu).2⟩
  have hnodup : (t.canonicalName :: c.numbers.entries.map (·.1)).Nodup :=
    List.nodup_cons.2 ⟨fun hk => Lru.mem_keys_iff.1 hk hnew, h.numbers.distinct⟩
  have hle := (List.subperm_of_subset hnodup hmem).length_le
  simp only [List.length_cons, List.length_map] at hle
  exact Nat.lt_of_lt_of_le hle hroom

theorem Indexed.register (hi : c.Indexed) (h : Fits n us c)
    (hroom : (names (us ++ [.register t])).length ≤ roomFor n) : (c.register t).Indexed := by
  intro id u hu
  rw [numbers_register]
  rcases peek?_of_register hu with ⟨rfl, rfl⟩ | ⟨hne, hold⟩
  · exact Lru.peek?_put_self _ _ _
  · have hindex := hi id u hold
    -- A schema of the same name is indexed, so it made way.
    have hkey : u.canonicalName ≠ t.canonicalName := by
      intro hkey
      rw [peek?_register_former h.tables hne (hkey ▸ hindex)] at hu
      cases hu
    rw [Lru.peek?_put_of_ne h.numbers hkey, if_neg, hindex]
    rintro ⟨hnew, hfull, -⟩
    exact Nat.ne_of_lt (h.size_numbers_lt hroom hnew) hfull

theorem Indexed.remove (hi : c.Indexed) (id : Int64) : (c.remove id).2.Indexed := by
  intro id' u hu
  have hindex := hi id' u (peek?_of_remove hu)
  unfold TableCache.remove at hu ⊢
  split at hu
  · exact hindex
  · rename_i t ht
    simp only [Lru.peek?_erase] at hu
    have hne : id' ≠ id := fun h => by simp [h] at hu
    split
    · rename_i hid
      rw [Lru.peek?_erase, if_neg, hindex]
      intro hkey
      rw [← hkey, hindex] at hid
      exact hne (Option.some.inj hid)
    · exact hindex

theorem Indexed.use (hi : c.Indexed) (h : Fits n us c) (u : Use)
    (hroom : (names (us ++ [u])).length ≤ roomFor n) : (c.use u).Indexed := by
  cases u with
  | register t => exact hi.register h hroom
  | get id => exact fun id' t ht => hi id' t (by simpa [TableCache.use] using ht)
  | getByName database name =>
    intro id t ht
    simp only [TableCache.use, peek?_getByName, peek?_numbers_getByName] at ht ⊢
    exact hi id t ht
  | contains id => exact hi
  | remove id => exact hi.remove id
  | clear => exact fun id t ht => by cases ht

/-- While there is room for all names that tables were registered under, every cached table is found
by its name. -/
theorem indexed_of_room (hroom : (names us).length ≤ roomFor n) : (after n us).Indexed := by
  induction us using List.reverseRecOn with
  | nil => exact fun id t ht => by cases ht
  | append_singleton us u ih =>
    rw [after_concat]
    exact (ih (Nat.le_trans (length_names_le us u) hroom)).use (fits_after n us) u hroom

/-! ## Other tables' schemas -/

/-- A table that comes in leaves the schema of another number and name as it is, except that a full
cache forgets its oldest schema for a new number. It is dropped, however, if the index still has the
name at this number: then the table that was registered under the name last had the number before
the other one did. -/
theorem keeps_other_schemas (n : Nat) (us : List Use) (t : Table) {id : Int64} {u : Table}
    (hid : id ≠ t.id) (hu : ((after n us).get id).1 = some u)
    (hname : u.canonicalName ≠ t.canonicalName) :
    ((after n us).numbers.peek? t.canonicalName ≠ some id →
      (((after n us).register t).get id).1 = some u ∨
        (((after n us).register t).get id).1 = none ∧ (after n us).contains t.id = false ∧
          (after n us).size = roomFor n ∧ (after n us).tables.oldest? = some id) ∧
    ((after n us).numbers.peek? t.canonicalName = some id →
      (((after n us).register t).get id).1 = none ∧
        ∃ v, lastNamed t.canonicalName us = some v ∧ v.id = id ∧
          lastNumbered id us = some u ∧ u ≠ v) := by
  have h := fits_after n us
  simp only [fst_get] at hu ⊢
  refine ⟨fun hkey => ?_, fun hkey => ⟨peek?_register_former h.tables hid hkey, ?_⟩⟩
  · rw [← hu]
    exact peek?_register h.tables hid hkey
  · obtain ⟨v, hv, hvid⟩ := h.indexed hkey
    refine ⟨v, hv, hvid, h.current hu, ?_⟩
    rintro rfl
    exact hname (of_lastNamed hv).2

/-- A schema that was used stays when a new one makes a full cache forget. -/
theorem keeps_other_schemas_used :
    let a : Table := ⟨1, "a", "shop", [], []⟩
    let b : Table := ⟨2, "b", "shop", [], []⟩
    let c : Table := ⟨3, "c", "shop", [], []⟩
    let s := after 2 [.register a, .register b, .get 1]
    (1 : Int64) ≠ c.id ∧ (s.get 1).1 = some a ∧ a.canonicalName ≠ c.canonicalName ∧
      s.numbers.peek? c.canonicalName ≠ some 1 ∧ s.size = roomFor 2 ∧
      ((s.register c).get 1).1 = some a ∧ ((s.register c).get 2).1 = none := by
  intro a b c s
  have hid : (1 : Int64) ≠ c.id := by decide
  have hu : (s.get 1).1 = some a := by decide +kernel
  have hname : a.canonicalName ≠ c.canonicalName := by decide +kernel
  have hkey : s.numbers.peek? c.canonicalName ≠ some 1 := by decide +kernel
  have hkept := (keeps_other_schemas 2 [.register a, .register b, .get 1] c hid hu hname).1 hkey
  have hold : s.tables.oldest? ≠ some 1 := by decide +kernel
  exact ⟨hid, hu, hname, hkey, by decide +kernel, hkept.resolve_right fun h => hold h.2.2.2,
    by decide +kernel⟩

/-- A number goes from one name to another, and the first name comes back under a new number. The
schema of the other name goes, though there is room. -/
theorem drops_other_schema :
    let a : Table := ⟨1, "a", "shop", [], []⟩
    let b : Table := ⟨1, "b", "shop", [], []⟩
    let c : Table := ⟨2, "a", "shop", [], []⟩
    let s := after 10 [.register a, .register b]
    (1 : Int64) ≠ c.id ∧ (s.get 1).1 = some b ∧ b.canonicalName ≠ c.canonicalName ∧
      s.size < roomFor 10 ∧ ((s.register c).get 1).1 = none := by
  decide +kernel

/-! ## Looking up names -/

/-- The table that was registered under a name last, if it is cached under its number still. -/
def lastCached (n : Nat) (us : List Use) (key : String) : Option Table :=
  (lastNamed key us).filter fun t => decide (((after n us).get t.id).1 = some t)

/-- No number was given to tables of two names. -/
def OneName (us : List Use) : Prop :=
  ∀ t ∈ registered us, ∀ u ∈ registered us, t.id = u.id → t.canonicalName = u.canonicalName

instance (us : List Use) : Decidable (OneName us) :=
  inferInstanceAs (Decidable (∀ t ∈ registered us, ∀ u ∈ registered us,
    t.id = u.id → t.canonicalName = u.canonicalName))

theorem lastCached_of_lastNamed (ht : lastNamed key us = some t) :
    lastCached n us key = ((after n us).tables.peek? t.id).filter fun u => decide (u = t) := by
  cases hu : (after n us).tables.peek? t.id with
  | none => simp [lastCached, ht, fst_get, hu, Option.filter]
  | some u => by_cases hut : u = t <;> simp [lastCached, ht, fst_get, hu, hut, Option.filter]

/-- The index has a name at the number of the table that was registered under it last, or not at
all. -/
theorem numbers_of_lastNamed (ht : lastNamed key us = some t) :
    (after n us).numbers.peek? key = none ∨ (after n us).numbers.peek? key = some t.id := by
  cases hkey : (after n us).numbers.peek? key with
  | none => exact Or.inl rfl
  | some id =>
    obtain ⟨u, hu, rfl⟩ := (fits_after n us).indexed hkey
    rw [Option.some.inj (ht.symm.trans hu)]
    exact Or.inr rfl

/-- Look-ups by name are right exactly if a name is indexed just while the number of the table that
was registered under it last is its own. -/
theorem getByName_eq_lastCached_iff (n : Nat) (us : List Use) (database name : String) :
    ((after n us).getByName database name).1 =
        lastCached n us (Table.canonicalNameOf database name) ↔
      ∀ t, lastNamed (Table.canonicalNameOf database name) us = some t →
        (after n us).contains t.id = true →
        ((after n us).numbers.contains (Table.canonicalNameOf database name) = true ↔
          lastNumbered t.id us = some t) := by
  have h := fits_after n us
  rw [fst_getByName]
  cases ht : lastNamed (Table.canonicalNameOf database name) us with
  | none =>
    have hkey : (after n us).numbers.peek? (Table.canonicalNameOf database name) = none := by
      refine Option.eq_none_iff_forall_ne_some.2 fun id hid => ?_
      obtain ⟨u, hu, -⟩ := h.indexed hid
      rw [ht] at hu
      cases hu
    simp [lastCached, ht, hkey]
  | some t =>
    have hkey := numbers_of_lastNamed (n := n) ht
    rw [lastCached_of_lastNamed ht]
    cases hu : (after n us).tables.peek? t.id with
    | none => rcases hkey with hkey | hkey <;> simp [hkey, hu, contains, Lru.contains]
    | some u =>
      have hlast := h.current hu
      rcases hkey with hkey | hkey <;> by_cases hut : u = t <;>
        simp [hkey, hu, hlast, hut, contains, Lru.contains, Option.filter]

/-- A table that a name finds has this name just if it was registered under it last. -/
theorem canonicalName_of_getByName {database name : String}
    (h : ((after n us).getByName database name).1 = some u) :
    u.canonicalName = Table.canonicalNameOf database name ↔
      lastNamed (Table.canonicalNameOf database name) us = some u := by
  refine ⟨fun hname => ?_, fun hlast => (of_lastNamed hlast).2⟩
  rw [fst_getByName] at h
  obtain ⟨id, hid, hu⟩ := Option.bind_eq_some_iff.1 h
  obtain ⟨t, ht, htid⟩ := (fits_after n us).indexed hid
  rw [lastNumbered_eq_lastNamed ((fits_after n us).current hu) ht hname htid]
  exact ht

/-- With one name for each number, the number of the table that was registered under a name last is
its own still. -/
theorem OneName.lastNumbered (h : OneName us) (ht : lastNamed key us = some t)
    (hu : lastNumbered t.id us = some u) : u = t := by
  have hname := h u (of_lastNumbered hu).1 t (of_lastNamed ht).1 (of_lastNumbered hu).2
  exact lastNumbered_eq_lastNamed hu ht (hname.trans (of_lastNamed ht).2) rfl

/-- Where no number goes from one name to another and all names fit in, look-ups by name are
right. -/
theorem getByName_of_oneName (hone : OneName us) (hroom : (names us).length ≤ roomFor n)
    (database name : String) :
    ((after n us).getByName database name).1 =
      lastCached n us (Table.canonicalNameOf database name) := by
  refine (getByName_eq_lastCached_iff n us database name).2 fun t ht hcached => ?_
  obtain ⟨u, hu⟩ := Option.isSome_iff_exists.1 hcached
  have hlast := (fits_after n us).current hu
  obtain rfl := hone.lastNumbered ht hlast
  have hindex := indexed_of_room hroom u.id u hu
  rw [(of_lastNamed ht).2] at hindex
  simp [Lru.contains, hindex, hlast]

/-- A name finds the table that was registered under it last if this is cached still, and nothing
otherwise, exactly if the following holds while a table is cached under that table's number: the
name is indexed if and only if the number was not given away since. A table that is found has the
name just if it was registered under it last. Where no number goes from one name to another and all
names fit in, look-ups find what they should. -/
theorem finds_last_named_iff (n : Nat) (us : List Use) (database name : String) :
    (((after n us).getByName database name).1 =
        lastCached n us (Table.canonicalNameOf database name) ↔
      ∀ t, lastNamed (Table.canonicalNameOf database name) us = some t →
        (after n us).contains t.id = true →
        ((after n us).numbers.contains (Table.canonicalNameOf database name) = true ↔
          lastNumbered t.id us = some t)) ∧
    (∀ u, ((after n us).getByName database name).1 = some u →
      (u.canonicalName = Table.canonicalNameOf database name ↔
        lastNamed (Table.canonicalNameOf database name) us = some u)) ∧
    (OneName us → (names us).length ≤ roomFor n →
      ((after n us).getByName database name).1 =
        lastCached n us (Table.canonicalNameOf database name)) :=
  ⟨getByName_eq_lastCached_iff n us database name, fun _ => canonicalName_of_getByName,
    fun hone hroom => getByName_of_oneName hone hroom database name⟩

/-- A name is found after its table came back under another number, and after another table was
forgotten. -/
theorem finds_last_named_renumbered :
    let a : Table := ⟨1, "a", "shop", [], []⟩
    let b : Table := ⟨2, "b", "shop", [], []⟩
    let a' : Table := ⟨3, "a", "shop", [], []⟩
    let us : List Use := [.register a, .register b, .register a', .remove 2]
    OneName us ∧ (names us).length ≤ roomFor 2 ∧
      ((after 2 us).getByName "shop" "a").1 = some a' ∧
      ((after 2 us).getByName "shop" "b").1 = none := by
  intro a b a' us
  have hone : OneName us := by decide +kernel
  have hroom : (names us).length ≤ roomFor 2 := by decide +kernel
  have ha := (finds_last_named_iff 2 us "shop" "a").2.2 hone hroom
  have hb := (finds_last_named_iff 2 us "shop" "b").2.2 hone hroom
  exact ⟨hone, hroom, ha.trans (by decide +kernel), hb.trans (by decide +kernel)⟩

/-- A number goes from one name to another: the first name finds the table of the other one. A table
is looked up by its number: that makes the table a recent one, but not its name, which is forgotten
while the table is cached. -/
theorem finds_other_or_misses :
    let t (id : Int64) (name : String) : Table := ⟨id, name, "shop", [], []⟩
    let given : List Use := [.register (t 1 "a"), .register (t 1 "b")]
    let looked : List Use :=
      [.register (t 1 "a"), .register (t 2 "b"), .get 1, .register (t 3 "c")]
    let key := Table.canonicalNameOf "shop" "a"
    lastCached 10 given key = none ∧
      ((after 10 given).getByName "shop" "a").1 = some (t 1 "b") ∧ (t 1 "b").canonicalName ≠ key ∧
      lastCached 2 looked key = some (t 1 "a") ∧
      ((after 2 looked).getByName "shop" "a").1 = none := by
  decide +kernel

end TableCache

end ChangeFeed
