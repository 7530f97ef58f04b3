import ChangeFeed.Number.Binary

/-!
# TOML documents as trees

A value of a TOML document, and the rules by which tables are put together from headers, dotted keys
and inline tables.

* `Toml`: a value. A table knows how it came to be, because that says who may still add to it.
* `Members.insert?`: a key, dotted or not, with its value;
* `Members.open?`, `Members.openRow?`: a table header `[a.b]` and a header `[[a.b]]` for one more
  table of a list.
-/

namespace ChangeFeed

/-- How a table came to be. -/
inductive Standing where
  /-- On the way of a header to another table. -/
  | implied
  /-- On the way of a dotted key to its value. -/
  | dotted
  /-- By a header of its own, or as the whole document. -/
  | headed
  /-- Between braces. -/
  | inline
  deriving DecidableEq, Repr

/-- A value of a TOML document. -/
inductive Toml where
  | text (s : String)
  | whole (n : Int)
  | float (x : Binary64)
  | flag (b : Bool)
  /-- A date, a time of day, or both, as written. -/
  | moment (written : List Char)
  | list (items : List Toml)
  | table (standing : Standing) (members : List (String × Toml))
  /-- The tables of headers in double brackets, in order. -/
  | rows (tables : List (List (String × Toml)))

/-- What a table holds, in the order it was written. -/
abbrev Members := List (String × Toml)

namespace Members

/-- Sets a member, in its place if it is there and at the end if not. -/
def put (k : String) (t : Toml) : Members → Members
  | [] => [(k, t)]
  | m :: ms => if m.1 = k then (k, t) :: ms else m :: put k t ms

/-- Changes the table at the end of a path. The tables missing on the way are made with standing
`fresh`; `enter` says which of the others may be gone through. A list of tables stands for its last
one. -/
def change? (fresh : Standing) (enter : Standing → Bool)
    (f : Standing → Members → Option Members) : List String → Standing → Members → Option Members
  | [], s, ms => f s ms
  | k :: ks, _, ms =>
    match ms.lookup k with
    | none => (change? fresh enter f ks fresh []).map fun inner => ms.put k (.table fresh inner)
    | some (.table s inner) =>
      if enter s then (change? fresh enter f ks s inner).map fun inner => ms.put k (.table s inner)
      else none
    | some (.rows tables) =>
      match tables.getLast? with
      | some row =>
        (change? fresh enter f ks .headed row).map fun row =>
          ms.put k (.rows (tables.dropLast ++ [row]))
      | none => none
    | some _ => none

/-- Adds a member that is not there yet. -/
def add? (k : String) (t : Toml) (ms : Members) : Option Members :=
  if (ms.lookup k).isSome then none else some (ms ++ [(k, t)])

/-- Adds a value under a key after the dotted keys in front of it. A dotted key goes only through
tables that no header and no brace made, and ends only in a table that dotted keys made. -/
def insert? (path : List String) (key : String) (value : Toml) :
    Standing → Members → Option Members :=
  change? .dotted (fun s => s == .implied || s == .dotted)
    (fun s ms => if path.isEmpty || s == .dotted then ms.add? key value else none) path

/-- May a header go through the table? -/
def passable (s : Standing) : Bool := s != .inline

/-- The table of a header. It is new, or headers of inner tables have implied it. -/
def open? (path : List String) (key : String) : Members → Option Members :=
  change? .implied passable
    (fun _ ms =>
      match ms.lookup key with
      | none => some (ms ++ [(key, .table .headed [])])
      | some (.table .implied inner) => some (ms.put key (.table .headed inner))
      | some _ => none)
    path .headed

/-- One more table of the list of a header. -/
def openRow? (path : List String) (key : String) : Members → Option Members :=
  change? .implied passable
    (fun _ ms =>
      match ms.lookup key with
      | none => some (ms ++ [(key, .rows [[]])])
      | some (.rows tables) => some (ms.put key (.rows (tables ++ [[]])))
      | some _ => none)
    path .headed

/-- Adds a value under a key of the table that the last header opened. -/
def insertUnder? (header path : List String) (key : String) (value : Toml) :
    Members → Option Members :=
  change? .implied passable (insert? path key value) header .headed

end Members

end ChangeFeed
