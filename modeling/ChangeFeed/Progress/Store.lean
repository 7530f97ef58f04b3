import ChangeFeed.FileTree
import ChangeFeed.Wire.ResumePoint

/-!
# Where progress is kept

A store holds the resume point of a source and the history of its resume points.

* `Store`: what can be asked of it. `σ` is what it holds; a call may fail.
* `Store.memory`: both in memory;
* `Store.files`: each in a JSON file. A file is written under another name first and then moved, so
  none is ever half written.
* `Store.faulty`: another store, some of whose calls fail.
-/

namespace ChangeFeed

/-- A keeper of progress that holds a `σ`. -/
structure Store (σ : Type) where
  readPoint : σ → Except Error (Option ResumePoint)
  savePoint : ResumePoint → σ → Except Error Unit × σ
  readHistory : σ → Except Error (List ResumePoint)
  saveHistory : List ResumePoint → σ → Except Error Unit × σ

/-- Progress in memory. -/
structure Memory where
  point : Option ResumePoint
  history : List ResumePoint
  deriving DecidableEq, Inhabited

namespace Memory

/-- No progress. -/
def empty : Memory := ⟨none, []⟩

end Memory

namespace Store

/-- The store that keeps progress in memory. -/
def memory : Store Memory where
  readPoint m := .ok m.point
  savePoint p m := (.ok (), { m with point := some p })
  readHistory m := .ok m.history
  saveHistory ps m := (.ok (), { m with history := ps })

/-! ## Files -/

/-- The failure of a store that a file is the cause of. -/
def fileError (p : FilePath) : Error := .store p.render

/-- The value in a JSON file, if the file is there. -/
def readFile {α : Type} [JsonForm α] (p : FilePath) (t : FileTree) : Except Error (Option α) :=
  match t.read p with
  | .error .missing => .ok none
  | .error _ => .error (fileError p)
  | .ok bytes =>
    match JsonForm.read? bytes with
    | some a => .ok (some a)
    | none => .error (fileError p)

/-- Writes a JSON file: under a name of its own first, then under the name it is read by. What was
done before a failure stays done. -/
def writeFile {α : Type} [JsonForm α] (p : FilePath) (a : α) (t : FileTree) :
    Except Error Unit × FileTree :=
  let draft := p.withExtension "tmp"
  match t.makeDirs p.parent with
  | (.error _, t) => (.error (fileError p), t)
  | (.ok (), t) =>
    match t.write (JsonForm.write a) draft with
    | .error _ => (.error (fileError p), t)
    | .ok t =>
      match t.rename draft p with
      | .error _ => (.error (fileError p), t)
      | .ok t => (.ok (), t)

/-- The store that keeps progress in two files. -/
def files (point history : FilePath) : Store FileTree where
  readPoint := readFile point
  savePoint := writeFile point
  readHistory t := (readFile history t).map fun ps? => ps?.getD []
  saveHistory := writeFile history

/-! ## Faults -/

/-- Which calls of a store fail. -/
structure Faults where
  readPoint : Bool := false
  savePoint : Bool := false
  readHistory : Bool := false
  saveHistory : Bool := false
  deriving DecidableEq, Repr, Inhabited

/-- The failure of a call that is made to fail. -/
def fault : Error := .store "out of order"

/-- A store some of whose calls fail and then do nothing. -/
def faulty {σ : Type} (s : Store σ) : Store (Faults × σ) where
  readPoint x := if x.1.readPoint then .error fault else s.readPoint x.2
  savePoint p x :=
    if x.1.savePoint then (.error fault, x)
    else
      let r := s.savePoint p x.2
      (r.1, x.1, r.2)
  readHistory x := if x.1.readHistory then .error fault else s.readHistory x.2
  saveHistory ps x :=
    if x.1.saveHistory then (.error fault, x)
    else
      let r := s.saveHistory ps x.2
      (r.1, x.1, r.2)

end Store

end ChangeFeed
