import ChangeFeed.Text.Pieces

/-!
# Paths of files

A path as it is written: steps with slashes between them, each of them a name or two dots, which
lead to the directory above. A single dot is no step, and neither is nothing.

* `FilePath.parse`, `FilePath.under`: the path of a text, from the root or from a directory;
* `FilePath.parent`, `FilePath.withExtension`: other paths made of one, by its text alone;
* `FilePath.entry`: the directories a path goes through, and the entry it looks for at their end.
-/

namespace ChangeFeed

/-- What the text of a path ends in. -/
inductive PathEnd where
  /-- A name, or two dots. -/
  | step
  | slash
  /-- A single dot, with or without a slash after it. -/
  | dot
  deriving DecidableEq, Repr, Inhabited

/-- A path. -/
structure FilePath where
  steps : List String
  ending : PathEnd := .step
  deriving DecidableEq, Repr, Inhabited

namespace FilePath

/-- The step to the directory above. -/
def up : String := ".."

/-- The longest name of an entry, in bytes. -/
def maxName : Nat := 255

/-- The longest path, in bytes. -/
def maxPath : Nat := 4095

/-- The path of a text. -/
def parse (s : String) : FilePath :=
  let parts := (Text.pieces '/' s.toList).map String.ofList
  let given := parts.filter (· != "")
  { steps := given.filter (· != ".")
    ending :=
      if given.getLast? = some "." then .dot
      else if parts.getLast? = some "" then .slash
      else .step }

/-- The path of a text, seen from a directory unless it begins at the root. -/
def under (dir : FilePath) (s : String) : FilePath :=
  let p := parse s
  if s.startsWith "/" then p else { p with steps := dir.steps ++ p.steps }

/-- The text of a path. -/
def render (p : FilePath) : String := "/".intercalate p.steps

/-- May the path be asked for at all? A path with a null character or one that is too long may not.
-/
def isUsable (p : FilePath) : Bool :=
  p.steps.all (fun n => !n.toList.contains '\x00') && decide (p.render.utf8ByteSize ≤ maxPath)

/-- The path without its last step. -/
def parent (p : FilePath) : FilePath := ⟨p.steps.dropLast, .step⟩

/-- A name with another extension. The extension is what follows the last dot, if something stands
in front of that dot. -/
def nameWithExtension (extension name : String) : String :=
  match Text.cutLast? '.' name.toList with
  | some (c :: stem, _) => String.ofList (c :: stem) ++ "." ++ extension
  | _ => name ++ "." ++ extension

/-- Is nothing but two dots left of a name once its extension is taken away? -/
def leavesDots (name : String) : Bool :=
  match Text.cutLast? '.' name.toList with
  | some (['.'], _ :: _) => true
  | _ => false

/-- The path with another extension of its last name. Where it ends in two dots it stays as it is; a
name at the end of the text that two dots are left of becomes these two dots. -/
def withExtension (extension : String) (p : FilePath) : FilePath :=
  match p.steps.getLast? with
  | none => p
  | some n =>
    if n = up then p
    else if p.ending = .step && leavesDots n then ⟨p.steps.dropLast ++ [up], .step⟩
    else ⟨p.steps.dropLast ++ [nameWithExtension extension n], .step⟩

/-- The steps that have to be directories, and the name to look for in the last of them. There is no
such name if the path stands for that directory itself. -/
def entry (p : FilePath) : List String × Option String :=
  if p.ending = .dot then (p.steps, none)
  else
    match p.steps.getLast? with
    | none => ([], none)
    | some n => if n = up then (p.steps, none) else (p.steps.dropLast, some n)

theorem length_parent_lt (p : FilePath) (h : p.steps ≠ []) :
    p.parent.steps.length < p.steps.length := by
  have := List.length_pos_iff.mpr h
  simp only [parent, List.length_dropLast]
  omega

end FilePath

end ChangeFeed
