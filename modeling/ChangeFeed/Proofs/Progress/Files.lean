import ChangeFeed.Progress.Store
import ChangeFeed.Proofs.FileTree
import ChangeFeed.Proofs.Wire.RoundTrip

/-!
# Progress in files

**Ids.** A point is written to a file without its id, so it is read as one that no mutation made. A
point that was read is not changed by that any more (`ResumePoint.of_mem_read?`).

**Stores side by side** (`Store.Mirrors`). One store mirrors another when what they hold stays in a
relation under which they answer the same, and neither fails.

**Forgetting** (`Store.forgetful`). Progress in memory that is given back without the ids. Files
that can be read and written (`Store.Untroubled`) are no different from it, unless they are in each
other's way (`FilePath.Apart`).

Main result: `mirrors_files`.
-/

namespace ChangeFeed

open JsonForm

namespace ResumePoint

/-- The point without the id of its mutation. -/
def forget (p : ResumePoint) : ResumePoint := { p with id := noId }

theorem faithful_forget {p : ResumePoint} (h : p.position.Portable) : Faithful p.forget := by
  have hposition : Faithful p.forget.position := faithful_position h
  refine .of_record rfl (fun _ => rfl) rfl (by decide) (by simp [hposition.written]) ?_
  simp [Record.need, hposition.reads]
  rfl

/-- The id is lost in a file, and nothing else. -/
theorem read?_write {p : ResumePoint} (h : p.position.Portable) :
    read? (write p) = some p.forget :=
  (faithful_forget h).read?_write

theorem read?_write_list {ps : List ResumePoint} (h : ∀ p ∈ ps, p.position.Portable) :
    read? (write ps) = some (ps.map forget) := by
  have hwrite : write ps = write (ps.map forget) := by
    have htree : (toTree ps : JsonTree) = toTree (ps.map forget) :=
      congrArg JsonTree.arr (List.map_map (g := toTree) (f := forget)).symm
    rw [write, write, htree]
  rw [hwrite]
  refine (faithful_list fun q hq => ?_).read?_write
  obtain ⟨p, hp, rfl⟩ := List.mem_map.1 hq
  exact faithful_forget (h p hp)

/-- Whatever is in a file can be written, and is the same when it is read again. -/
theorem of_mem_read? {bytes : List UInt8} {ps : List ResumePoint} (h : read? bytes = some ps) :
    ∀ p ∈ ps, p.position.Portable ∧ p.forget = p := by
  intro p hp
  obtain ⟨tree, -, htree⟩ := Option.bind_eq_some_iff.1 h
  obtain ⟨t, ht⟩ := exists_of_ofTree?_list htree p hp
  simp only [ofTree?, bind, Option.bind_eq_some_iff] at ht
  obtain ⟨r, -, offset, -, timestamp, -, position, hposition, heq⟩ := ht
  cases heq
  obtain ⟨u, -, hu⟩ := Option.bind_eq_some_iff.1 hposition
  exact ⟨LogPosition.portable_of_ofTree? hu, rfl⟩

end ResumePoint

namespace FilePath

/-- Where a file is written before it is moved. -/
def draft (p : FilePath) : FilePath := p.withExtension "tmp"

/-- Two files, neither of which is written where the other one is. -/
structure Apart (p q : FilePath) : Prop where
  files : p.place ≠ q.place
  left : p.draft.place ≠ q.place
  right : q.draft.place ≠ p.place

instance (p q : FilePath) : Decidable (p.Apart q) :=
  decidable_of_iff (p.place ≠ q.place ∧ p.draft.place ≠ q.place ∧ q.draft.place ≠ p.place)
    ⟨fun ⟨hf, hl, hr⟩ => ⟨hf, hl, hr⟩, fun h => ⟨h.files, h.left, h.right⟩⟩

end FilePath

namespace Store

variable {α β σ τ : Type} [JsonForm α] [JsonForm β]

/-! ## One file -/

/-- A file that was written can be read, and the files elsewhere are the same. -/
theorem writeFile_eq_ok {t t' : FileTree} (ht : t.kindAt [] = some .dir) {p : FilePath} {a : α}
    (h : writeFile p a t = (.ok (), t')) : t'.read p = .ok (write a) ∧ t.Grows t' ∧
      ∀ x, x ≠ p.place → x ≠ p.draft.place → ∀ content,
        t'.kindAt x = some (.file content) ↔ t.kindAt x = some (.file content) := by
  unfold writeFile at h
  simp only at h
  split at h
  · cases h
  · rename_i t₁ hdirs
    have hextends := FileTree.extends_makeDirs p.parent ht
    rw [hdirs] at hextends
    split at h
    · cases h
    · rename_i t₂ hwrite
      split at h
      · cases h
      · rename_i t₃ hrename
        cases h
        have ht₁ := hextends.dirs [] ht
        obtain ⟨hread, hg, -, hkind⟩ := FileTree.write_eq_ok ht₁ hwrite
        obtain ⟨content, hread', hfinal, hg', hkind'⟩ :=
          FileTree.rename_eq_ok (hg [] ht₁) hrename
        obtain rfl : write a = content := Except.ok.inj (hread.symm.trans hread')
        refine ⟨hfinal, fun x hx => hg' x (hg x (hextends.dirs x hx)), fun x hp hd content => ?_⟩
        have hd : x ≠ (p.withExtension "tmp").place := hd
        rw [hkind', if_neg hp, if_neg hd, hkind, if_neg hd, hextends.files]

/-- The file at a path has the JSON text of a value. If there is no value, there is no file. -/
def Holds (p : FilePath) (t : FileTree) : Option α → Prop
  | none => ∀ content, t.kindAt p.place ≠ some (.file content)
  | some a => t.read p = .ok (write a)

/-- A file is read, or is not there, as long as nothing else goes wrong. -/
theorem readFile_of_holds {t : FileTree} (back : α → α) (ht : t.kindAt [] = some .dir)
    {p : FilePath} (hfail : ∀ e, t.read p = .error e → e = .missing) {a? : Option α}
    (h : Holds p t a?) (hback : ∀ a, a? = some a → read? (write a) = some (back a)) :
    readFile p t = .ok (a?.map back) := by
  unfold readFile
  cases a? with
  | some a =>
    have hread : t.read p = .ok (write a) := h
    simp [hread, hback a rfl]
  | none =>
    cases hread : t.read p with
    | ok content => exact absurd ((FileTree.read_eq_ok ht).1 hread).2.2 (h content)
    | error e =>
      obtain rfl := hfail e hread
      rfl

/-- A file that is written elsewhere leaves this one as it is. -/
theorem Holds.of_writeFile {t t' : FileTree} (ht : t.kindAt [] = some .dir) {p q : FilePath}
    {a : α} (h : writeFile p a t = (.ok (), t')) (hfiles : p.place ≠ q.place)
    (hdraft : p.draft.place ≠ q.place) {b? : Option β} (hq : Holds q t b?) : Holds q t' b? := by
  obtain ⟨-, hg, hsame⟩ := writeFile_eq_ok ht h
  have hsame := hsame q.place (Ne.symm hfiles) (Ne.symm hdraft)
  cases b? with
  | none => exact fun content hfile => hq content ((hsame content).1 hfile)
  | some b =>
    have hfile := ((FileTree.read_eq_ok ht).1 hq).2.2
    exact FileTree.read_grows ht hg hq ((hsame _).2 hfile)

/-! ## Stores side by side -/

/-- Whenever one store holds a `t` and the other one a `u` in a relation, both answer the same, and
both can save what is `Fit`. -/
structure Mirrors (store : Store σ) (other : Store τ) (R : σ → τ → Prop)
    (Fit : ResumePoint → Prop) : Prop where
  readPoint : ∀ t u, R t u → ∃ p?, store.readPoint t = .ok p? ∧ other.readPoint u = .ok p? ∧
    ∀ p, p? = some p → Fit p
  savePoint : ∀ t u p, R t u → Fit p → ∃ t' u', store.savePoint p t = (.ok (), t') ∧
    other.savePoint p u = (.ok (), u') ∧ R t' u'
  readHistory : ∀ t u, R t u → ∃ ps, store.readHistory t = .ok ps ∧ other.readHistory u = .ok ps ∧
    ∀ p ∈ ps, Fit p
  saveHistory : ∀ t u ps, R t u → (∀ p ∈ ps, Fit p) → ∃ t' u',
    store.saveHistory ps t = (.ok (), t') ∧ other.saveHistory ps u = (.ok (), u') ∧ R t' u'

/-- Progress in memory that is given back without ids. -/
def forgetful : Store Memory where
  readPoint m := .ok (m.point.map ResumePoint.forget)
  savePoint := memory.savePoint
  readHistory m := .ok (m.history.map ResumePoint.forget)
  saveHistory := memory.saveHistory

/-- Two files in a tree that is `Sound` can be read unless they are not there, and they can be
written, which leads to another such tree. -/
structure Untroubled (point history : FilePath) (Sound : FileTree → Prop) : Prop where
  root : ∀ t, Sound t → t.kindAt [] = some .dir
  readPoint : ∀ t, Sound t → ∀ e, t.read point = .error e → e = .missing
  savePoint : ∀ t p, Sound t → ∃ t', (files point history).savePoint p t = (.ok (), t') ∧ Sound t'
  readHistory : ∀ t, Sound t → ∀ e, t.read history = .error e → e = .missing
  saveHistory : ∀ t ps, Sound t →
    ∃ t', (files point history).saveHistory ps t = (.ok (), t') ∧ Sound t'

variable {point history : FilePath} {Sound : FileTree → Prop}

/-- The files hold what is in memory. -/
structure Reflects (point history : FilePath) (Sound : FileTree → Prop) (t : FileTree)
    (m : Memory) : Prop where
  sound : Sound t
  point : Holds point t m.point
  history : ∃ ps? : Option (List ResumePoint), Holds history t ps? ∧ m.history = ps?.getD []
  portablePoint : ∀ p, m.point = some p → p.position.Portable
  portableHistory : ∀ p ∈ m.history, p.position.Portable

/-- Files that are not there are as good as an empty memory. -/
theorem reflects_empty {t : FileTree} (ht : Sound t)
    (hpoint : ∀ content, t.kindAt point.place ≠ some (.file content))
    (hhistory : ∀ content, t.kindAt history.place ≠ some (.file content)) :
    Reflects point history Sound t .empty where
  sound := ht
  point := hpoint
  history := ⟨none, hhistory, rfl⟩
  portablePoint := by exact nofun
  portableHistory := by exact nofun

/-- **Files forget ids and nothing else.** -/
theorem mirrors_files (hfs : Untroubled point history Sound) (hapart : point.Apart history) :
    (files point history).Mirrors forgetful (Reflects point history Sound)
      (·.position.Portable) where
  readPoint := by
    intro t m h
    refine ⟨m.point.map .forget, ?_, rfl, fun p hp => ?_⟩
    · exact readFile_of_holds .forget (hfs.root t h.sound) (hfs.readPoint t h.sound) h.point
        fun p hp => ResumePoint.read?_write (h.portablePoint p hp)
    · obtain ⟨q, hq, rfl⟩ := Option.map_eq_some_iff.1 hp
      exact h.portablePoint q hq
  savePoint := by
    intro t m p h hp
    obtain ⟨t', hsave, hsound⟩ := hfs.savePoint t p h.sound
    have hroot := hfs.root t h.sound
    obtain ⟨ps?, hps, heq⟩ := h.history
    refine ⟨t', { m with point := some p }, hsave, rfl, hsound, ?_, ⟨ps?, ?_, heq⟩, ?_,
      h.portableHistory⟩
    · exact (writeFile_eq_ok hroot hsave).1
    · exact hps.of_writeFile hroot hsave hapart.files hapart.left
    · rintro q ⟨⟩
      exact hp
  readHistory := by
    intro t m h
    obtain ⟨ps?, hps, heq⟩ := h.history
    refine ⟨m.history.map .forget, ?_, rfl, fun p hp => ?_⟩
    · have hread := readFile_of_holds (.map .forget) (hfs.root t h.sound)
        (hfs.readHistory t h.sound) hps fun ps hps? => ResumePoint.read?_write_list fun p hp =>
          h.portableHistory p (by rwa [heq, hps?])
      show (readFile history t).map _ = _
      rw [hread, heq]
      cases ps? with
      | none => rfl
      | some ps => rfl
    · obtain ⟨q, hq, rfl⟩ := List.mem_map.1 hp
      exact h.portableHistory q hq
  saveHistory := by
    intro t m ps h hps
    obtain ⟨t', hsave, hsound⟩ := hfs.saveHistory t ps h.sound
    have hroot := hfs.root t h.sound
    refine ⟨t', { m with history := ps }, hsave, rfl, hsound, ?_, ⟨some ps, ?_, rfl⟩,
      h.portablePoint, hps⟩
    · exact h.point.of_writeFile hroot hsave (Ne.symm hapart.files) hapart.right
    · exact (writeFile_eq_ok hroot hsave).1

end Store

end ChangeFeed
