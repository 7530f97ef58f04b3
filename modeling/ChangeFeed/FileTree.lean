import ChangeFeed.FilePath

/-!
# Files and directories

A directory with all that is in it, as a value, and the operations on it that keeping progress in
files needs.

**Places.** `Place`: the names that lead from the root to an entry. `find`, `put`, `remove` look at
what is at a place and change it.

**Paths.** `locate`: the place a path leads to. Every step but the last has to be a directory.

**Operations.** `read`, `makeDir`, `makeDirs`, `write`, `rename`: they take paths, and each fails
where it does not fit what is there.
-/

namespace ChangeFeed

/-- A file or a directory. -/
inductive FileTree where
  | file (content : List UInt8)
  | dir (entries : List (String × FileTree))

/-- Why there is nothing to be had at a path, or nothing to be put there. -/
inductive FileFault where
  | missing
  /-- Something is there already. -/
  | present
  | notDirectory
  | isDirectory
  /-- The path or a name in it is too long, or holds a null character. -/
  | badPath
  deriving DecidableEq, Repr

/-- A place in a tree: the names of the entries on the way to it. -/
abbrev Place := List String

namespace FileTree

/-- The empty directory. -/
def empty : FileTree := .dir []

instance : Inhabited FileTree := ⟨empty⟩

/-! ## Places -/

/-- Sets an entry, in its place if it is there and at the end if not. -/
def putEntry (n : String) (t : FileTree) : List (String × FileTree) → List (String × FileTree)
  | [] => [(n, t)]
  | e :: es => if e.1 = n then (n, t) :: es else e :: putEntry n t es

/-- What is at a place. -/
def find : Place → FileTree → Except FileFault FileTree
  | [], t => .ok t
  | _ :: _, .file _ => .error .notDirectory
  | n :: ns, .dir es =>
    match es.lookup n with
    | some t => find ns t
    | none => .error .missing

/-- The tree with something else at a place. -/
def put : Place → FileTree → FileTree → FileTree
  | [], _, x => x
  | _ :: _, .file content, _ => .file content
  | n :: ns, .dir es, x => .dir (putEntry n (put ns ((es.lookup n).getD empty) x) es)

/-- Takes away what is at a place, if something is. -/
def remove : Place → FileTree → FileTree
  | _, .file content => .file content
  | [], t => t
  | [n], .dir es => .dir (es.filter fun e => e.1 != n)
  | n :: ns, .dir es =>
    match es.lookup n with
    | some t => .dir (putEntry n (remove ns t) es)
    | none => .dir es

/-! ## Paths -/

/-- The place of the directory that some steps lead to from the one at `place`. Above the root there
is nothing but the root. -/
def walk (t : FileTree) : Place → List String → Except FileFault Place
  | place, [] => .ok place
  | place, n :: ns =>
    if n = FilePath.up then walk t place.dropLast ns
    else if FilePath.maxName < n.utf8ByteSize then .error .badPath
    else
      match t.find (place ++ [n]) with
      | .ok (.dir _) => walk t (place ++ [n]) ns
      | .ok (.file _) => .error .notDirectory
      | .error e => .error e

/-- Where a path leads: to a directory, and to a name in it unless it stands for the directory. -/
def locate (p : FilePath) (t : FileTree) : Except FileFault (Place × Option String) :=
  if !p.isUsable then .error .badPath
  else
    match t.walk [] p.entry.1 with
    | .error e => .error e
    | .ok place =>
      if p.entry.2.any fun n => decide (FilePath.maxName < n.utf8ByteSize) then .error .badPath
      else .ok (place, p.entry.2)

/-- What is at a path. -/
def lookup (p : FilePath) (t : FileTree) : Except FileFault FileTree :=
  match t.locate p with
  | .ok (place, n?) => t.find (place ++ n?.toList)
  | .error e => .error e

/-- Is a directory at the path? -/
def isDir (p : FilePath) (t : FileTree) : Bool :=
  match t.lookup p with
  | .ok (.dir _) => true
  | _ => false

/-! ## Operations -/

/-- The content of a file. -/
def read (p : FilePath) (t : FileTree) : Except FileFault (List UInt8) :=
  match t.lookup p with
  | .ok (.file content) => if p.ending = .step then .ok content else .error .notDirectory
  | .ok (.dir _) => .error .isDirectory
  | .error e => .error e

/-- Makes a directory. Those in front of it have to be there. -/
def makeDir (p : FilePath) (t : FileTree) : Except FileFault FileTree :=
  match t.locate p with
  | .error e => .error e
  | .ok (_, none) => .error .present
  | .ok (place, some n) =>
    match t.find (place ++ [n]) with
    | .ok _ => .error .present
    | .error _ => .ok (t.put (place ++ [n]) empty)

/-- A failure to make a directory is none if the directory is there. -/
def unlessDir (p : FilePath) (e : FileFault) (t : FileTree) : Except FileFault Unit :=
  if t.isDir p then .ok () else .error e

/-- Makes the directories of a path that are missing, the first ones first. What was made before a
failure stays. -/
def makeDirs (p : FilePath) (t : FileTree) : Except FileFault Unit × FileTree :=
  match t.makeDir p with
  | .ok t => (.ok (), t)
  | .error .missing =>
    if _ : p.steps = [] then (.error .missing, t)
    else
      match makeDirs p.parent t with
      | (.error e, t) => (.error e, t)
      | (.ok (), t) =>
        match t.makeDir p with
        | .ok t => (.ok (), t)
        | .error e => (t.unlessDir p e, t)
  | .error e => (t.unlessDir p e, t)
termination_by p.steps.length
decreasing_by exact p.length_parent_lt ‹_›

/-- Writes a file, over the one that may be there. The directories in front of it have to be there.
-/
def write (content : List UInt8) (p : FilePath) (t : FileTree) : Except FileFault FileTree :=
  match t.locate p with
  | .error e => .error e
  | .ok (_, none) => .error .isDirectory
  | .ok (place, some n) =>
    if p.ending ≠ .step then .error .isDirectory
    else
      match t.find (place ++ [n]) with
      | .ok (.dir _) => .error .isDirectory
      | _ => .ok (t.put (place ++ [n]) (.file content))

/-- Moves a file over the one that may be at its new path. -/
def rename (old new : FilePath) (t : FileTree) : Except FileFault FileTree := do
  let content ← t.read old
  let t ← t.write content new
  let (a, m?) ← t.locate old
  let (b, n?) ← t.locate new
  return if a ++ m?.toList = b ++ n?.toList then t else t.remove (a ++ m?.toList)

/-! ## Listing -/

mutual

/-- The paths of all entries, a slash at the end of those of directories. `at` is the path in front
of them. -/
def paths (at' : String) : FileTree → List String
  | .file _ => []
  | .dir es => entryPaths at' es

/-- The paths of the entries of a directory and of all in them. -/
def entryPaths (at' : String) : List (String × FileTree) → List String
  | [] => []
  | (n, .file _) :: es => (at' ++ n) :: entryPaths at' es
  | (n, .dir inner) :: es =>
    (at' ++ n ++ "/") :: (entryPaths (at' ++ n ++ "/") inner ++ entryPaths at' es)

end

/-- The paths of all entries in order. -/
def listing (t : FileTree) : List String := (paths "" t).mergeSort fun a b => decide (a ≤ b)

end FileTree

end ChangeFeed
