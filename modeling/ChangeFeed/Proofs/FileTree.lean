import ChangeFeed.Data.Result
import ChangeFeed.FileTree
import Mathlib.Tactic.Common

/-!
# What is at a place, and how files are replaced

**Kinds** (`FileTree.kindAt`). A place has a file with its content, a directory, or nothing.

**Paths** (`FilePath.place`). A path can lead to one place only, whatever there is on the way to it.
It still leads there when there are more directories.

Main results: `kindAt_put`, `kindAt_remove`, `locate_eq_ok` and `rename_eq_ok`.
-/

namespace ChangeFeed

namespace FilePath

/-- The place that some steps lead to from another one. -/
def placeFrom : Place → List String → Place
  | x, [] => x
  | x, n :: ns => if n = up then placeFrom x.dropLast ns else placeFrom (x ++ [n]) ns

/-- The place that a path leads to if it leads anywhere. -/
def place (p : FilePath) : Place := placeFrom [] p.steps

theorem placeFrom_append (x : Place) (ns ms : List String) :
    placeFrom x (ns ++ ms) = placeFrom (placeFrom x ns) ms := by
  induction ns generalizing x with
  | nil => rfl
  | cons n ns ih =>
    rw [List.cons_append, placeFrom, placeFrom]
    split
    · exact ih _
    · exact ih _

end FilePath

namespace FileTree

/-! ## Kinds -/

/-- What an entry is. -/
inductive Kind where
  | file (content : List UInt8)
  | dir
  deriving DecidableEq

/-- What a tree is. -/
def kind : FileTree → Kind
  | .file content => .file content
  | .dir _ => .dir

/-- What is at a place. -/
def kindAt (x : Place) (t : FileTree) : Option Kind :=
  match t.find x with
  | .ok u => some u.kind
  | .error _ => none

@[simp] theorem kindAt_nil (t : FileTree) : t.kindAt [] = some t.kind := rfl

@[simp] theorem kindAt_cons_file (n : String) (ns : Place) (content : List UInt8) :
    (FileTree.file content).kindAt (n :: ns) = none := rfl

theorem kindAt_cons_dir (n : String) (ns : Place) (es : List (String × FileTree)) :
    (FileTree.dir es).kindAt (n :: ns) = (es.lookup n).bind (kindAt ns) := by
  unfold kindAt
  rw [find]
  cases es.lookup n with
  | none => rfl
  | some t => rfl

theorem kindAt_eq_dir {x : Place} {t : FileTree} :
    t.kindAt x = some .dir ↔ ∃ es, t.find x = .ok (.dir es) := by
  unfold kindAt
  cases t.find x with
  | error e => simp
  | ok u => cases u <;> simp [kind]

theorem kindAt_eq_file {x : Place} {t : FileTree} {content : List UInt8} :
    t.kindAt x = some (.file content) ↔ t.find x = .ok (.file content) := by
  unfold kindAt
  cases t.find x with
  | error e => simp
  | ok u => cases u <;> simp [kind]

/-- Whatever is in front of an entry is a directory. -/
theorem kindAt_of_append {x y : Place} {t : FileTree} {k : Kind} (h : t.kindAt (x ++ y) = some k)
    (hy : y ≠ []) : t.kindAt x = some .dir := by
  induction x generalizing t with
  | nil =>
    cases t with
    | dir es => rfl
    | file content =>
      cases y with
      | nil => exact absurd rfl hy
      | cons n ns => cases h
  | cons n ns ih =>
    cases t with
    | file content => cases h
    | dir es =>
      rw [List.cons_append, kindAt_cons_dir] at h
      rw [kindAt_cons_dir]
      cases hn : es.lookup n with
      | none =>
        rw [hn] at h
        cases h
      | some u =>
        rw [hn] at h
        exact ih h

/-! ## Putting and removing -/

theorem lookup_cons_eq_ite (m : String) (e : String × FileTree) (es : List (String × FileTree)) :
    (e :: es).lookup m = if m = e.1 then some e.2 else es.lookup m := by
  rw [List.lookup_cons]
  by_cases h : m = e.1
  · rw [if_pos h, beq_iff_eq.2 h]
  · rw [if_neg h, beq_eq_false_iff_ne.2 h]

theorem lookup_putEntry (n m : String) (t : FileTree) (es : List (String × FileTree)) :
    (putEntry n t es).lookup m = if m = n then some t else es.lookup m := by
  induction es with
  | nil => exact lookup_cons_eq_ite m (n, t) []
  | cons e es ih =>
    rw [putEntry]
    by_cases he : e.1 = n
    · rw [if_pos he, lookup_cons_eq_ite, lookup_cons_eq_ite, he]
      by_cases h : m = n
      · simp [h]
      · simp [h]
    · rw [if_neg he, lookup_cons_eq_ite, lookup_cons_eq_ite, ih]
      by_cases h : m = n
      · simp [h, Ne.symm he]
      · simp [h]

/-- An entry without anything below it is put in a directory, where no directory is. -/
theorem kindAt_put {d : Place} {n : String} {t u : FileTree} (hd : t.kindAt d = some .dir)
    (hn : t.kindAt (d ++ [n]) ≠ some .dir) (hu : ∀ m ms, u.kindAt (m :: ms) = none) (x : Place) :
    (t.put (d ++ [n]) u).kindAt x = if x = d ++ [n] then some u.kind else t.kindAt x := by
  induction d generalizing t x with
  | nil =>
    cases t with
    | file content => cases hd
    | dir es =>
      rw [List.nil_append, put, put]
      cases x with
      | nil => rfl
      | cons m ms =>
        rw [kindAt_cons_dir, lookup_putEntry]
        by_cases hm : m = n
        · subst hm
          rw [if_pos rfl, Option.bind_some]
          cases ms with
          | nil => simp
          | cons m' ms =>
            -- The place is no directory, so nothing was below it.
            have hbelow : (FileTree.dir es).kindAt (m :: m' :: ms) = none := by
              by_contra hne
              obtain ⟨k, hk⟩ := Option.ne_none_iff_exists'.1 hne
              exact hn (kindAt_of_append (x := [m]) hk (List.cons_ne_nil _ _))
            simp [hu, hbelow]
        · rw [if_neg hm, ← kindAt_cons_dir]
          simp [hm]
  | cons k ds ih =>
    cases t with
    | file content => cases hd
    | dir es =>
      rw [kindAt_cons_dir] at hd
      cases hk : es.lookup k with
      | none =>
        rw [hk] at hd
        cases hd
      | some v =>
        rw [hk] at hd
        have hv : v.kindAt (ds ++ [n]) ≠ some .dir := by
          rwa [List.cons_append, kindAt_cons_dir, hk] at hn
        rw [List.cons_append, put, hk]
        cases x with
        | nil => rfl
        | cons m ms =>
          rw [kindAt_cons_dir, kindAt_cons_dir, lookup_putEntry]
          by_cases hm : m = k
          · subst hm
            rw [if_pos rfl, hk, Option.bind_some, Option.bind_some, Option.getD_some, ih hd hv]
            simp
          · rw [if_neg hm]
            simp [hm]

theorem lookup_filter_bne {n m : String} (es : List (String × FileTree)) :
    (es.filter fun e => e.1 != n).lookup m = if m = n then none else es.lookup m := by
  induction es with
  | nil => simp
  | cons e es ih =>
    rw [List.filter_cons, lookup_cons_eq_ite]
    by_cases he : e.1 = n
    · rw [if_neg (by simp [he]), ih, he]
      by_cases hm : m = n
      · simp [hm]
      · simp [hm]
    · rw [if_pos (by simp [he]), lookup_cons_eq_ite, ih]
      by_cases hm : m = n
      · simp [hm, Ne.symm he]
      · simp [hm]

/-- A file is taken away. -/
theorem kindAt_remove {y : Place} {t : FileTree} {content : List UInt8}
    (h : t.kindAt y = some (.file content)) (hy : y ≠ []) (x : Place) :
    (t.remove y).kindAt x = if x = y then none else t.kindAt x := by
  induction y generalizing t x with
  | nil => exact absurd rfl hy
  | cons n ns ih =>
    cases t with
    | file content => cases h
    | dir es =>
      rw [kindAt_cons_dir] at h
      cases hn : es.lookup n with
      | none =>
        rw [hn] at h
        cases h
      | some u =>
        rw [hn, Option.bind_some] at h
        cases x with
        | nil =>
          cases ns with
          | nil => rfl
          | cons m ms =>
            simp only [remove, hn]
            rfl
        | cons m ms =>
          cases ns with
          | nil =>
            rw [remove, kindAt_cons_dir, lookup_filter_bne, kindAt_cons_dir]
            by_cases hm : m = n
            · subst hm
              rw [if_pos rfl, hn]
              cases u with
              | dir _ => cases h
              | file _ => cases ms <;> simp
            · simp [hm]
          | cons m' ms' =>
            simp only [remove, hn]
            rw [kindAt_cons_dir, lookup_putEntry, kindAt_cons_dir]
            by_cases hm : m = n
            · subst hm
              rw [if_pos rfl, hn, Option.bind_some, Option.bind_some,
                ih h (List.cons_ne_nil _ _)]
              simp
            · simp [hm]

/-! ## Paths -/

/-- Where there was a directory, there is one. -/
def Grows (t t' : FileTree) : Prop := ∀ x, t.kindAt x = some .dir → t'.kindAt x = some .dir

theorem kindAt_dropLast {x : Place} {t : FileTree} (h : t.kindAt x = some .dir) :
    t.kindAt x.dropLast = some .dir := by
  obtain rfl | ⟨y, n, rfl⟩ := List.eq_nil_or_concat x
  · exact h
  · rw [List.concat_eq_append] at h ⊢
    rw [List.dropLast_concat]
    exact kindAt_of_append h (List.cons_ne_nil _ _)

theorem walk_eq_ok {t : FileTree} {x r : Place} {ns : List String} (h : t.walk x ns = .ok r)
    (hx : t.kindAt x = some .dir) : FilePath.placeFrom x ns = r ∧ t.kindAt r = some .dir := by
  induction ns generalizing x with
  | nil =>
    cases h
    exact ⟨rfl, hx⟩
  | cons n ns ih =>
    rw [walk] at h
    rw [FilePath.placeFrom]
    by_cases hn : n = FilePath.up
    · rw [if_pos hn] at h ⊢
      exact ih h (kindAt_dropLast hx)
    · rw [if_neg hn] at h ⊢
      split at h
      · cases h
      · split at h
        · rename_i es hfind
          exact ih h (kindAt_eq_dir.2 ⟨es, hfind⟩)
        · cases h
        · cases h

/-- A path that leads somewhere leads there when there are more directories. -/
theorem walk_grows {t t' : FileTree} (hg : Grows t t') {x r : Place} {ns : List String}
    (h : t.walk x ns = .ok r) : t'.walk x ns = .ok r := by
  induction ns generalizing x with
  | nil => exact h
  | cons n ns ih =>
    rw [walk] at h ⊢
    by_cases hn : n = FilePath.up
    · rw [if_pos hn] at h ⊢
      exact ih h
    · rw [if_neg hn] at h ⊢
      split at h
      · cases h
      · rename_i hlong
        rw [if_neg hlong]
        split at h
        · rename_i es hfind
          obtain ⟨es', hfind'⟩ := kindAt_eq_dir.1 (hg _ (kindAt_eq_dir.2 ⟨es, hfind⟩))
          rw [hfind']
          exact ih h
        · cases h
        · cases h

theorem placeFrom_entry (p : FilePath) :
    FilePath.placeFrom [] p.entry.1 ++ p.entry.2.toList = p.place := by
  unfold FilePath.entry FilePath.place
  split
  · exact List.append_nil _
  · split
    · rename_i hlast
      rw [List.getLast?_eq_none_iff.1 hlast]
      rfl
    · rename_i n hlast
      by_cases hn : n = FilePath.up
      · rw [if_pos hn]
        exact List.append_nil _
      · obtain ⟨ns, hns⟩ := List.getLast?_eq_some_iff.1 hlast
        rw [if_neg hn, hns, List.dropLast_concat, FilePath.placeFrom_append]
        simp [FilePath.placeFrom, hn]

/-- A path leads to its place, from a directory that is in front of it or is there itself. -/
theorem locate_eq_ok {t : FileTree} (ht : t.kindAt [] = some .dir) {p : FilePath} {d : Place}
    {n? : Option String} (h : t.locate p = .ok (d, n?)) :
    d ++ n?.toList = p.place ∧ t.kindAt d = some .dir := by
  unfold locate at h
  split at h
  · cases h
  · split at h
    · cases h
    · rename_i r hwalk
      split at h
      · cases h
      · cases h
        obtain ⟨hr, hdir⟩ := walk_eq_ok hwalk ht
        exact ⟨hr ▸ placeFrom_entry p, hdir⟩

theorem locate_grows {t t' : FileTree} (hg : Grows t t') {p : FilePath} {y : Place × Option String}
    (h : t.locate p = .ok y) : t'.locate p = .ok y := by
  unfold locate at h ⊢
  split at h
  · cases h
  · rename_i husable
    rw [if_neg husable]
    split at h
    · cases h
    · rename_i r hwalk
      rw [walk_grows hg hwalk]
      exact h

/-! ## Reading and writing -/

theorem read_eq_ok {t : FileTree} (ht : t.kindAt [] = some .dir) {p : FilePath}
    {content : List UInt8} : t.read p = .ok content ↔ (∃ y, t.locate p = .ok y) ∧
      p.ending = .step ∧ t.kindAt p.place = some (.file content) := by
  unfold read lookup
  cases hl : t.locate p with
  | error e => simp
  | ok y =>
    obtain ⟨d, n?⟩ := y
    rw [kindAt_eq_file, ← (locate_eq_ok ht hl).1]
    simp only
    cases t.find (d ++ n?.toList) with
    | error e => simp
    | ok u =>
      cases u with
      | dir es => simp
      | file c =>
        by_cases hp : p.ending = .step
        · simp [hp]
        · simp [hp]

/-- What was read before is read again if the file is still there. -/
theorem read_grows {t t' : FileTree} (ht : t.kindAt [] = some .dir) (hg : Grows t t')
    {p : FilePath} {c c' : List UInt8} (h : t.read p = .ok c)
    (hfile : t'.kindAt p.place = some (.file c')) : t'.read p = .ok c' := by
  obtain ⟨⟨y, hl⟩, hp, -⟩ := (read_eq_ok ht).1 h
  exact (read_eq_ok (hg [] ht)).2 ⟨⟨y, locate_grows hg hl⟩, hp, hfile⟩

theorem write_eq_ok {t t' : FileTree} (ht : t.kindAt [] = some .dir) {p : FilePath}
    {content : List UInt8} (h : t.write content p = .ok t') :
    t'.read p = .ok content ∧ Grows t t' ∧ p.place ≠ [] ∧
      ∀ x, t'.kindAt x = if x = p.place then some (.file content) else t.kindAt x := by
  unfold write at h
  split at h
  · cases h
  · cases h
  · rename_i d n hl
    split at h
    · cases h
    · rename_i hp
      have hput : (∀ es, t.find (d ++ [n]) ≠ .ok (.dir es)) ∧
          t' = t.put (d ++ [n]) (.file content) := by
        split at h
        · cases h
        · rename_i hfile
          cases h
          exact ⟨hfile, rfl⟩
      obtain ⟨hnone, rfl⟩ := hput
      obtain ⟨hplace, hd⟩ := locate_eq_ok ht hl
      have hplace : d ++ [n] = p.place := hplace
      have hdir : t.kindAt (d ++ [n]) ≠ some .dir := fun hdir => by
        obtain ⟨es, hes⟩ := kindAt_eq_dir.1 hdir
        exact hnone es hes
      have hkind := kindAt_put hd hdir (u := .file content) fun _ _ => rfl
      have hg : Grows t (t.put (d ++ [n]) (.file content)) := by
        intro x hx
        have hne : x ≠ d ++ [n] := fun h' => hdir (h' ▸ hx)
        rw [hkind, if_neg hne]
        exact hx
      rw [← hplace]
      refine ⟨(read_eq_ok (hg [] ht)).2 ⟨⟨_, locate_grows hg hl⟩, Decidable.not_not.1 hp, ?_⟩, hg,
        by simp, hkind⟩
      rw [← hplace, hkind, if_pos rfl]
      rfl

/-- A file is moved. -/
theorem rename_eq_ok {t t' : FileTree} (ht : t.kindAt [] = some .dir) {old new : FilePath}
    (h : t.rename old new = .ok t') : ∃ content, t.read old = .ok content ∧
      t'.read new = .ok content ∧ Grows t t' ∧ ∀ x, t'.kindAt x =
        if x = new.place then some (.file content)
        else if x = old.place then none
        else t.kindAt x := by
  unfold rename at h
  obtain ⟨content, hread, h⟩ := bind_eq_ok.1 h
  obtain ⟨t₁, hwrite, h⟩ := bind_eq_ok.1 h
  obtain ⟨⟨a, m?⟩, hold, h⟩ := bind_eq_ok.1 h
  obtain ⟨⟨b, n?⟩, hnew, h⟩ := bind_eq_ok.1 h
  cases h
  obtain ⟨hread', hg, hne, hkind⟩ := write_eq_ok ht hwrite
  have hroot := hg [] ht
  obtain ⟨hold, -⟩ := locate_eq_ok hroot hold
  obtain ⟨hnew, -⟩ := locate_eq_ok hroot hnew
  obtain ⟨-, -, hfile⟩ := (read_eq_ok ht).1 hread
  refine ⟨content, hread, ?_⟩
  simp only [hold, hnew]
  -- A file that is moved to where it is stays there.
  by_cases hsame : old.place = new.place
  · rw [if_pos hsame]
    refine ⟨hread', hg, fun x => ?_⟩
    rw [hkind, hsame]
    by_cases hx : x = new.place
    · rw [if_pos hx, if_pos hx]
    · rw [if_neg hx, if_neg hx, if_neg hx]
  · rw [if_neg hsame]
    have hthere : t₁.kindAt old.place = some (.file content) := by
      rw [hkind, if_neg hsame]
      exact hfile
    have hold_ne : old.place ≠ [] := fun h' => by
      rw [h', ht] at hfile
      cases hfile
    have hremove := kindAt_remove hthere hold_ne
    have hg' : Grows t₁ (t₁.remove old.place) := by
      intro x hx
      have hne : x ≠ old.place := fun h' => by
        rw [h', hthere] at hx
        cases hx
      rw [hremove, if_neg hne]
      exact hx
    refine ⟨read_grows hroot hg' hread' ?_, fun x hx => hg' x (hg x hx), fun x => ?_⟩
    · rw [hremove, if_neg (Ne.symm hsame), hkind, if_pos rfl]
    · rw [hremove, hkind]
      by_cases hx : x = new.place
      · rw [if_pos hx, if_pos hx, if_neg fun h' => hsame (h'.symm.trans hx)]
      · rw [if_neg hx, if_neg hx]

/-! ## Making directories -/

theorem makeDir_eq_ok {t t' : FileTree} (ht : t.kindAt [] = some .dir) {p : FilePath}
    (h : t.makeDir p = .ok t') : t.kindAt p.place = none ∧
      ∀ x, t'.kindAt x = if x = p.place then some .dir else t.kindAt x := by
  unfold makeDir at h
  split at h
  · cases h
  · cases h
  · rename_i d n hl
    split at h
    · cases h
    · rename_i e hfind
      cases h
      obtain ⟨hplace, hd⟩ := locate_eq_ok ht hl
      have hplace : d ++ [n] = p.place := hplace
      have hnone : t.kindAt (d ++ [n]) = none := by rw [kindAt, hfind]
      rw [← hplace]
      refine ⟨hnone, kindAt_put hd ?_ fun _ _ => rfl⟩
      rw [hnone]
      exact (Option.some_ne_none Kind.dir).symm

/-- There are more directories and the same files. -/
structure Extends (t t' : FileTree) : Prop where
  dirs : Grows t t'
  files : ∀ x content, t'.kindAt x = some (.file content) ↔ t.kindAt x = some (.file content)

theorem Extends.refl (t : FileTree) : Extends t t := ⟨fun _ h => h, fun _ _ => Iff.rfl⟩

theorem Extends.trans {t₁ t₂ t₃ : FileTree} (h : Extends t₁ t₂) (h' : Extends t₂ t₃) :
    Extends t₁ t₃ :=
  ⟨fun x hx => h'.dirs x (h.dirs x hx), fun x c => (h'.files x c).trans (h.files x c)⟩

theorem extends_makeDir {t t' : FileTree} (ht : t.kindAt [] = some .dir) {p : FilePath}
    (h : t.makeDir p = .ok t') : Extends t t' := by
  obtain ⟨hnone, hkind⟩ := makeDir_eq_ok ht h
  constructor
  · intro x hx
    rw [hkind, hx, ite_self]
  · intro x content
    rw [hkind]
    by_cases hx : x = p.place
    · simp [hx, hnone]
    · rw [if_neg hx]

/-- Whether it succeeds or not, making directories leaves the files alone. -/
theorem extends_makeDirs (p : FilePath) {t : FileTree} (ht : t.kindAt [] = some .dir) :
    Extends t (t.makeDirs p).2 := by
  fun_induction makeDirs p t with
  | case1 p t' hmake => exact extends_makeDir ht hmake
  | case2 => exact .refl t
  | case3 p _ _ e t₁ hparent ih =>
    rw [hparent] at ih
    exact ih
  | case4 p _ _ t₁ hparent t₂ hmake ih =>
    rw [hparent] at ih
    exact ih.trans (extends_makeDir (ih.dirs [] ht) hmake)
  | case5 p _ _ t₁ hparent e _ ih =>
    rw [hparent] at ih
    exact ih
  | case6 => exact .refl t

end FileTree

end ChangeFeed
