import ChangeFeed.Proofs.Progress.Files

/-!
# Files that nothing is in the way of

**Plain paths** (`FilePath.Plain`). A path of names that entries can have. It leads to the place of
its names if there are directories in front of it, and they can be made.

**Room** (`FileTree.Room`). No file stands where a path needs a directory, and no directory where it
needs a file. Plain paths that do not go through each other keep room for each other, so files at
such paths can always be read and written.

Main result: `untroubled_of_beside`.
-/

namespace ChangeFeed

namespace FilePath

/-- Steps that go from directory to directory by names that are not too long. -/
def Names (ns : List String) : Prop := ∀ n ∈ ns, n ≠ up ∧ n.utf8ByteSize ≤ maxName

instance (ns : List String) : Decidable (Names ns) :=
  inferInstanceAs (Decidable (∀ n ∈ ns, n ≠ up ∧ n.utf8ByteSize ≤ maxName))

/-- A path of names to the entry of the last one. -/
structure Plain (p : FilePath) : Prop where
  ending : p.ending = .step
  steps : p.steps ≠ []
  names : Names p.steps
  usable : p.isUsable = true

instance (p : FilePath) : Decidable p.Plain :=
  decidable_of_iff (p.ending = .step ∧ p.steps ≠ [] ∧ Names p.steps ∧ p.isUsable = true)
    ⟨fun ⟨he, hs, hn, hu⟩ => ⟨he, hs, hn, hu⟩, fun h => ⟨h.ending, h.steps, h.names, h.usable⟩⟩

/-- The path that goes along some steps. -/
abbrev along (ns : List String) : FilePath := ⟨ns, .step⟩

variable {p : FilePath} {ns : List String} {n : String}

theorem placeFrom_names (h : Names ns) (x : Place) : placeFrom x ns = x ++ ns := by
  induction ns generalizing x with
  | nil => exact (List.append_nil x).symm
  | cons n ns ih =>
    rw [placeFrom, if_neg (h n List.mem_cons_self).1,
      ih fun m hm => h m (List.mem_cons_of_mem _ hm), List.append_assoc, List.singleton_append]

theorem Plain.place (h : p.Plain) : p.place = p.steps := placeFrom_names h.names []

theorem Plain.exists_concat (h : p.Plain) : ∃ ns n, p = along (ns ++ [n]) := by
  obtain ⟨steps, ending⟩ := p
  obtain rfl : ending = .step := h.ending
  obtain rfl | ⟨ns, n, rfl⟩ := List.eq_nil_or_concat steps
  · exact absurd rfl h.steps
  · exact ⟨ns, n, by rw [List.concat_eq_append]⟩

theorem Plain.front (h : (along (ns ++ [n])).Plain) : Names ns := fun m hm =>
  h.names m (List.mem_append_left _ hm)

theorem Plain.last (h : (along (ns ++ [n])).Plain) : n ≠ up ∧ n.utf8ByteSize ≤ maxName :=
  h.names n (List.mem_append_right _ List.mem_cons_self)

theorem Plain.entry (h : (along (ns ++ [n])).Plain) :
    (along (ns ++ [n])).entry = (ns, some n) := by
  simp [FilePath.entry, h.last.1]

theorem parent_along (ns : List String) (n : String) : (along (ns ++ [n])).parent = along ns := by
  simp [parent]

/-- A path that is usable is so without its last step. -/
theorem isUsable_of_concat (h : (along (ns ++ [n])).isUsable = true) :
    (along ns).isUsable = true := by
  unfold isUsable render at h ⊢
  rw [Bool.and_eq_true, decide_eq_true_eq] at h ⊢
  obtain ⟨hall, hsize⟩ := h
  rw [List.all_append, Bool.and_eq_true] at hall
  refine ⟨hall.1, ?_⟩
  by_cases hns : ns = []
  · subst hns
    exact of_decide_eq_true rfl
  · simp only at hsize ⊢
    rw [String.intercalate_append_of_ne_nil hns (List.cons_ne_nil _ _),
      String.utf8ByteSize_append, String.utf8ByteSize_append] at hsize
    omega

/-- The draft of a file is in its directory. -/
theorem Plain.exists_draft (h : (along (ns ++ [n])).Plain) :
    ∃ n', (along (ns ++ [n])).draft = along (ns ++ [n']) := by
  unfold draft withExtension
  simp only [List.getLast?_concat, if_neg h.last.1, List.dropLast_concat]
  split
  · exact ⟨_, rfl⟩
  · exact ⟨_, rfl⟩

end FilePath

namespace FileTree

open FilePath

variable {t : FileTree} {ns : List String} {n : String}

/-! ## Where plain paths lead -/

/-- Everything in front of a directory is a directory. -/
theorem kindAt_above {x y : Place} (hx : x <+: y) (h : t.kindAt y = some .dir) :
    t.kindAt x = some .dir := by
  obtain ⟨z, rfl⟩ := hx
  by_cases hz : z = []
  · rwa [hz, List.append_nil] at h
  · exact kindAt_of_append h hz

theorem kindAt_eq_ite {y : Place} (h : t.kindAt y = some .dir) (x : Place) :
    t.kindAt x = if x <+: y then some .dir else t.kindAt x := by
  by_cases hx : x <+: y
  · rw [if_pos hx, kindAt_above hx h]
  · rw [if_neg hx]

theorem walk_of_dir (hns : Names ns) {x : Place} (h : t.kindAt (x ++ ns) = some .dir) :
    t.walk x ns = .ok (x ++ ns) := by
  induction ns generalizing x with
  | nil => rw [walk, List.append_nil]
  | cons n ns ih =>
    obtain ⟨hup, hlen⟩ := hns n List.mem_cons_self
    rw [← List.singleton_append, ← List.append_assoc] at h ⊢
    obtain ⟨es, hes⟩ := kindAt_eq_dir.1 (kindAt_above (List.prefix_append _ ns) h)
    rw [List.singleton_append, walk, if_neg hup, if_neg (Nat.not_lt.2 hlen), hes]
    exact ih (fun m hm => hns m (List.mem_cons_of_mem _ hm)) h

/-- A name that a directory does not have is missing. -/
theorem find_of_none {x : Place} (hx : t.kindAt x = some .dir)
    (h : t.kindAt (x ++ [n]) = none) : t.find (x ++ [n]) = .error .missing := by
  induction x generalizing t with
  | nil =>
    cases t with
    | file content => cases hx
    | dir es =>
      rw [List.nil_append, kindAt_cons_dir] at h
      rw [List.nil_append, find]
      cases hn : es.lookup n with
      | none => rfl
      | some u => simp [hn] at h
  | cons m x ih =>
    cases t with
    | file content => cases hx
    | dir es =>
      rw [kindAt_cons_dir] at hx
      rw [List.cons_append, kindAt_cons_dir] at h
      rw [List.cons_append, find]
      cases hm : es.lookup m with
      | none => rfl
      | some u =>
        rw [hm] at hx h
        exact ih hx h

/-- A path of names leads nowhere because a directory is missing, unless a file is in the way. -/
theorem walk_of_missing (hns : Names ns) {x : Place} (hx : t.kindAt x = some .dir)
    (hfree : ∀ y, y <+: ns → ∀ content, t.kindAt (x ++ y) ≠ some (.file content))
    (h : t.kindAt (x ++ ns) ≠ some .dir) : t.walk x ns = .error .missing := by
  induction ns generalizing x with
  | nil => exact absurd hx (List.append_nil x ▸ h)
  | cons n ns ih =>
    obtain ⟨hup, hlen⟩ := hns n List.mem_cons_self
    rw [walk, if_neg hup, if_neg (Nat.not_lt.2 hlen)]
    cases hk : t.kindAt (x ++ [n]) with
    | none => rw [find_of_none hx hk]
    | some k =>
      cases k with
      | file content => exact absurd hk (hfree [n] (List.prefix_append [n] ns) content)
      | dir =>
        obtain ⟨es, hes⟩ := kindAt_eq_dir.1 hk
        rw [hes]
        refine ih (fun m hm => hns m (List.mem_cons_of_mem _ hm)) hk (fun y hy content => ?_) ?_
        · rw [List.append_assoc]
          exact hfree (n :: y) (List.cons_prefix_cons.2 ⟨rfl, hy⟩) content
        · rwa [List.append_assoc]

/-- A plain path with all directories in front of it. -/
theorem locate_of_dir (hp : (along (ns ++ [n])).Plain) (h : t.kindAt ns = some .dir) :
    t.locate (along (ns ++ [n])) = .ok (ns, some n) := by
  have hwalk : t.walk [] ns = .ok ns := walk_of_dir hp.front h
  simp [locate, hp.usable, hp.entry, hwalk, hp.last.2]

/-- A plain path with a directory in front of it missing. -/
theorem locate_of_missing (hp : (along (ns ++ [n])).Plain) (ht : t.kindAt [] = some .dir)
    (hfree : ∀ x, x <+: ns → ∀ content, t.kindAt x ≠ some (.file content))
    (h : t.kindAt ns ≠ some .dir) : t.locate (along (ns ++ [n])) = .error .missing := by
  have hwalk : t.walk [] ns = .error .missing := walk_of_missing hp.front ht hfree h
  simp [locate, hp.usable, hp.entry, hwalk]

/-! ## Making directories -/

/-- The last directory of a plain path is there or can be made if those in front of it are there. -/
theorem makeDir_of_dir (hp : (along (ns ++ [n])).Plain) (h : t.kindAt ns = some .dir)
    (hfile : ∀ content, t.kindAt (ns ++ [n]) ≠ some (.file content)) :
    t.kindAt (ns ++ [n]) = some .dir ∧ t.makeDir (along (ns ++ [n])) = .error .present ∧
        t.isDir (along (ns ++ [n])) = true ∨
      ∃ t', t.makeDir (along (ns ++ [n])) = .ok t' := by
  unfold makeDir isDir lookup
  rw [locate_of_dir hp h]
  cases hk : t.kindAt (ns ++ [n]) with
  | none =>
    simp only [find_of_none h hk]
    exact Or.inr ⟨_, rfl⟩
  | some k =>
    cases k with
    | file content => exact absurd hk (hfile content)
    | dir =>
      obtain ⟨es, hes⟩ := kindAt_eq_dir.1 hk
      simp [hes]

/-- The directories of a plain path can be made, and nothing else is made. -/
theorem makeDirs_names (hns : Names ns) (husable : (along ns).isUsable = true)
    (ht : t.kindAt [] = some .dir)
    (hfree : ∀ x, x <+: ns → ∀ content, t.kindAt x ≠ some (.file content)) :
    ∃ t', t.makeDirs (along ns) = (.ok (), t') ∧
      ∀ x, t'.kindAt x = if x <+: ns then some .dir else t.kindAt x := by
  induction ns using List.reverseRecOn with
  | nil =>
    obtain ⟨es, hes⟩ := kindAt_eq_dir.1 ht
    have hlocate : t.locate (along []) = .ok ([], none) := by
      simp [locate, husable, entry, walk]
    have hmake : t.makeDir (along []) = .error .present := by rw [makeDir, hlocate]
    refine ⟨t, ?_, kindAt_eq_ite ht⟩
    rw [makeDirs, hmake]
    simp [unlessDir, isDir, lookup, hlocate, hes]
  | append_singleton ns n ih =>
    have hp : (along (ns ++ [n])).Plain := ⟨rfl, by simp, hns, husable⟩
    have hfile : ∀ content, t.kindAt (ns ++ [n]) ≠ some (.file content) :=
      hfree _ (List.prefix_refl _)
    have hfront : ∀ x, x <+: ns → ∀ content, t.kindAt x ≠ some (.file content) :=
      fun x hx => hfree x (hx.trans (List.prefix_append ns [n]))
    obtain ⟨t₁, hmade, hkind⟩ := ih hp.front (isUsable_of_concat husable) hfront
    -- The last directory is made once those in front of it are there.
    have hlast : ∀ t₂ t' : FileTree,
        (∀ x, t₂.kindAt x = if x <+: ns then some .dir else t.kindAt x) →
        t₂.makeDir (along (ns ++ [n])) = .ok t' →
        ∀ x, t'.kindAt x = if x <+: ns ++ [n] then some .dir else t.kindAt x := by
      intro t₂ t' hkind hmake x
      have hroot : t₂.kindAt [] = some .dir := by rw [hkind, if_pos List.nil_prefix]
      rw [(makeDir_eq_ok hroot hmake).2, hp.place, hkind]
      by_cases hx : x = ns ++ [n]
      · rw [if_pos hx, if_pos (hx ▸ List.prefix_refl _)]
      · simp [List.prefix_concat_iff, hx]
    by_cases hdir : t.kindAt ns = some .dir
    · rcases makeDir_of_dir hp hdir hfile with ⟨hthere, hmake, his⟩ | ⟨t', hmake⟩
      · refine ⟨t, ?_, kindAt_eq_ite hthere⟩
        rw [makeDirs, hmake]
        simp [unlessDir, his]
      · exact ⟨t', by rw [makeDirs, hmake], hlast t t' (kindAt_eq_ite hdir) hmake⟩
    · have hmissing : t.makeDir (along (ns ++ [n])) = .error .missing := by
        rw [makeDir, locate_of_missing hp ht hfront hdir]
      have hnew : t₁.kindAt (ns ++ [n]) = t.kindAt (ns ++ [n]) := by
        rw [hkind, if_neg fun h => absurd h.length_le (by simp)]
      have hdir₁ : t₁.kindAt ns = some .dir := by rw [hkind, if_pos (List.prefix_refl _)]
      rcases makeDir_of_dir hp hdir₁ (hnew ▸ hfile) with ⟨hthere, -, -⟩ | ⟨t', hmake⟩
      · exact absurd (kindAt_of_append (hnew ▸ hthere) (List.cons_ne_nil _ _)) hdir
      · refine ⟨t', ?_, hlast t₁ t' hkind hmake⟩
        rw [makeDirs, hmissing]
        simp [parent_along, hmade, hmake]

/-! ## Writing -/

theorem write_of_dir (hp : (along (ns ++ [n])).Plain) (h : t.kindAt ns = some .dir)
    (hdir : t.kindAt (ns ++ [n]) ≠ some .dir) (content : List UInt8) :
    ∃ t', t.write content (along (ns ++ [n])) = .ok t' := by
  unfold write
  rw [locate_of_dir hp h]
  simp only [ne_eq, not_true_eq_false, if_false]
  split
  · rename_i es hes
    exact absurd (kindAt_eq_dir.2 ⟨es, hes⟩) hdir
  · exact ⟨_, rfl⟩

theorem rename_of_ok {t₁ : FileTree} {old new : FilePath} {content : List UInt8}
    {y z : Place × Option String} (hread : t.read old = .ok content)
    (hwrite : t.write content new = .ok t₁) (hold : t₁.locate old = .ok y)
    (hnew : t₁.locate new = .ok z) : ∃ t', t.rename old new = .ok t' := by
  simp [rename, hread, hwrite, hold, hnew, bind, Except.bind, pure, Except.pure]

/-- Nothing is in the way of a file. -/
structure Room (p : FilePath) (t : FileTree) : Prop where
  /-- The directories in front of it are there or can be made. -/
  front : ∀ x, x <+: p.steps.dropLast → ∀ content, t.kindAt x ≠ some (.file content)
  here : t.kindAt p.steps ≠ some .dir
  draft : t.kindAt p.draft.steps ≠ some .dir

/-- A file that nothing is in the way of can be read, unless it is not there. -/
theorem eq_missing_of_room {p : FilePath} (hp : p.Plain) (ht : t.kindAt [] = some .dir)
    (hroom : Room p t) {e : FileFault} (h : t.read p = .error e) : e = .missing := by
  obtain ⟨ns, n, rfl⟩ := hp.exists_concat
  have hfront := hroom.front
  rw [List.dropLast_concat] at hfront
  unfold read lookup at h
  by_cases hdir : t.kindAt ns = some .dir
  · rw [locate_of_dir hp hdir] at h
    cases hk : t.kindAt (ns ++ [n]) with
    | none =>
      simp only [Option.toList_some, find_of_none hdir hk] at h
      exact (Except.error.inj h).symm
    | some k =>
      cases k with
      | dir => exact absurd hk hroom.here
      | file content =>
        rw [kindAt_eq_file] at hk
        simp [hk] at h
  · rw [locate_of_missing hp ht hfront hdir] at h
    exact (Except.error.inj h).symm

end FileTree

namespace Store

open FilePath FileTree

variable {p q point history : FilePath} {t t' : FileTree} {α : Type} [JsonForm α] {a : α}

/-- The tree after a file was written that nothing was in the way of. -/
def Written (p : FilePath) (content : List UInt8) (t t' : FileTree) : Prop :=
  ∀ x, t'.kindAt x = if x = p.steps then some (.file content)
    else if x = p.draft.steps then none
    else if x <+: p.steps.dropLast then some .dir
    else t.kindAt x

/-- A file that nothing is in the way of can be written. -/
theorem writeFile_of_room (hp : p.Plain) (hdraft : p.draft.Plain) (ht : t.kindAt [] = some .dir)
    (hroom : Room p t) (a : α) :
    ∃ t', writeFile p a t = (.ok (), t') ∧ Written p (JsonForm.write a) t t' := by
  obtain ⟨ns, n, rfl⟩ := hp.exists_concat
  obtain ⟨n', hd⟩ := hp.exists_draft
  have hfront := hroom.front
  have hfree := hroom.draft
  unfold Written
  rw [hd] at hdraft hfree ⊢
  rw [List.dropLast_concat] at hfront ⊢
  obtain ⟨t₁, hmade, hkind₁⟩ := makeDirs_names hp.front (isUsable_of_concat hp.usable) ht hfront
  have hroot₁ : t₁.kindAt [] = some .dir := by rw [hkind₁, if_pos List.nil_prefix]
  have hfront₁ : t₁.kindAt ns = some .dir := by rw [hkind₁, if_pos (List.prefix_refl _)]
  -- No name in the directory was changed.
  have hsame (m : String) : t₁.kindAt (ns ++ [m]) = t.kindAt (ns ++ [m]) := by
    rw [hkind₁, if_neg fun h => absurd h.length_le (by simp)]
  obtain ⟨t₂, hwrite₂⟩ := write_of_dir hdraft hfront₁ (hsame n' ▸ hfree) (JsonForm.write a)
  obtain ⟨hread₂, hg₂, -, hkind₂⟩ := write_eq_ok hroot₁ hwrite₂
  have hhere₂ : t₂.kindAt (ns ++ [n]) ≠ some .dir := by
    rw [hkind₂]
    split
    · exact nofun
    · rw [hsame]
      exact hroom.here
  obtain ⟨t₃, hwrite₃⟩ := write_of_dir hp (hg₂ _ hfront₁) hhere₂ (JsonForm.write a)
  have hfront₃ := (write_eq_ok (hg₂ _ hroot₁) hwrite₃).2.1 _ (hg₂ _ hfront₁)
  obtain ⟨t', hrename⟩ := rename_of_ok hread₂ hwrite₃ (locate_of_dir hdraft hfront₃)
    (locate_of_dir hp hfront₃)
  refine ⟨t', ?_, fun x => ?_⟩
  · have hd' : (along (ns ++ [n])).withExtension "tmp" = along (ns ++ [n']) := hd
    simp only [writeFile, parent_along, hmade, hd', hwrite₂, hrename]
  · obtain ⟨content, hread, -, -, hkind⟩ := rename_eq_ok (hg₂ _ hroot₁) hrename
    obtain rfl := Except.ok.inj (hread₂.symm.trans hread)
    rw [hkind, hp.place, hdraft.place]
    by_cases hx : x = (along (ns ++ [n'])).steps
    · rw [if_pos hx, if_pos hx]
    · rw [if_neg hx, if_neg hx, hkind₂, hdraft.place, if_neg hx, hkind₁]

/-- A path does not lead through a file or through the draft that it is written as. -/
def Passes (p q : FilePath) : Prop :=
  ¬ q.steps <+: p.steps.dropLast ∧ ¬ q.draft.steps <+: p.steps.dropLast

instance (p q : FilePath) : Decidable (Passes p q) :=
  inferInstanceAs (Decidable (¬ _ ∧ ¬ _))

/-- Two plain paths that do not lead through each other. -/
structure Beside (p q : FilePath) : Prop where
  left : p.Plain
  leftDraft : p.draft.Plain
  right : q.Plain
  rightDraft : q.draft.Plain
  passes : Passes p q
  passed : Passes q p

instance (p q : FilePath) : Decidable (Beside p q) :=
  decidable_of_iff
    (p.Plain ∧ p.draft.Plain ∧ q.Plain ∧ q.draft.Plain ∧ Passes p q ∧ Passes q p)
    ⟨fun ⟨hp, hpd, hq, hqd, hpq, hqp⟩ => ⟨hp, hpd, hq, hqd, hpq, hqp⟩,
      fun h => ⟨h.left, h.leftDraft, h.right, h.rightDraft, h.passes, h.passed⟩⟩

theorem passes_self (hp : p.Plain) : Passes p p := by
  obtain ⟨ns, n, rfl⟩ := hp.exists_concat
  obtain ⟨n', hd⟩ := hp.exists_draft
  unfold Passes
  rw [hd, List.dropLast_concat]
  exact ⟨fun h => absurd h.length_le (by simp), fun h => absurd h.length_le (by simp)⟩

theorem room_of_written {content : List UInt8} (hpq : Passes p q) (hqp : Passes q p)
    (h : Written p content t t') (hq : Room q t) : Room q t' where
  front := by
    intro x hx content
    rw [h]
    split
    · rename_i heq
      exact absurd (heq ▸ hx) hqp.1
    · split
      · exact nofun
      · split
        · exact nofun
        · exact hq.front x hx content
  here := by
    rw [h]
    split
    · exact nofun
    · split
      · exact nofun
      · rw [if_neg hpq.1]
        exact hq.here
  draft := by
    rw [h]
    split
    · exact nofun
    · split
      · exact nofun
      · rw [if_neg hpq.2]
        exact hq.draft

/-- Nothing is in the way of two files. -/
structure Clear (point history : FilePath) (t : FileTree) : Prop where
  root : t.kindAt [] = some .dir
  point : Room point t
  history : Room history t

/-- In an empty directory nothing is in the way of anything. -/
theorem clear_empty (h : Beside point history) : Clear point history .empty := by
  have hnone (x : Place) (hx : x ≠ []) : FileTree.empty.kindAt x = none := by
    cases x with
    | nil => exact absurd rfl hx
    | cons n ns => rfl
  have hroom {p : FilePath} (hp : p.Plain) (hd : p.draft.Plain) : Room p .empty := by
    refine ⟨fun x _ content => ?_, ?_, ?_⟩
    · cases x with
      | nil => exact nofun
      | cons n ns => exact nofun
    · rw [hnone _ hp.steps]
      exact nofun
    · rw [hnone _ hd.steps]
      exact nofun
  exact ⟨rfl, hroom h.left h.leftDraft, hroom h.right h.rightDraft⟩

theorem root_of_written {content : List UInt8} (hp : p.Plain) (hdraft : p.draft.Plain)
    (h : Written p content t t') : t'.kindAt [] = some .dir := by
  rw [h, if_neg (Ne.symm hp.steps), if_neg (Ne.symm hdraft.steps), if_pos List.nil_prefix]

/-- **Two files at plain paths can always be read and written**, unless there is something else in
the way, or one of the paths leads through a file. -/
theorem untroubled_of_beside (hb : Beside point history) :
    Untroubled point history (Clear point history) where
  root := fun _ h => h.root
  readPoint := fun _ h _ => eq_missing_of_room hb.left h.root h.point
  savePoint := by
    intro t a h
    obtain ⟨t', hwrite, hwritten⟩ := writeFile_of_room hb.left hb.leftDraft h.root h.point a
    refine ⟨t', hwrite, root_of_written hb.left hb.leftDraft hwritten, ?_, ?_⟩
    · exact room_of_written (passes_self hb.left) (passes_self hb.left) hwritten h.point
    · exact room_of_written hb.passes hb.passed hwritten h.history
  readHistory := fun _ h _ => eq_missing_of_room hb.right h.root h.history
  saveHistory := by
    intro t as h
    obtain ⟨t', hwrite, hwritten⟩ := writeFile_of_room hb.right hb.rightDraft h.root h.history as
    refine ⟨t', hwrite, root_of_written hb.right hb.rightDraft hwritten, ?_, ?_⟩
    · exact room_of_written hb.passed hb.passes hwritten h.point
    · exact room_of_written (passes_self hb.right) (passes_self hb.right) hwritten h.history

end Store

end ChangeFeed
