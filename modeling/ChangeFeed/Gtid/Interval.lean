import ChangeFeed.Text.Numeral

/-!
# Intervals of transaction ids

A closed interval `[start, end]` of 64-bit transaction ids, and the normal form of a list of
intervals: sorted, with intervals that overlap or follow each other directly merged.

**Operations.** `contains`, `covers`, `touches`; `collapse`, the normal form; `add`, one more
interval in a normal form; `total`, how many ids a list of intervals holds, up to the largest word.
-/

namespace ChangeFeed

/-- A closed interval of transaction ids. Nothing forces `start ≤ stop`. -/
structure Interval where
  start : UInt64
  stop : UInt64
  deriving DecidableEq, Repr, Inhabited, Hashable

namespace Interval

/-- The interval of one id. -/
def single (n : UInt64) : Interval := ⟨n, n⟩

/-- The text of an interval: the id alone, or both ends with a dash between them. -/
def render (i : Interval) : List Char :=
  if i.start = i.stop then Text.digits i.start.toNat
  else Text.digits i.start.toNat ++ '-' :: Text.digits i.stop.toNat

/-- Is the id in the interval? -/
def contains (i : Interval) (n : UInt64) : Bool :=
  decide (i.start ≤ n) && decide (n ≤ i.stop)

/-- Does `j` lie within `i`, end by end? -/
def covers (i j : Interval) : Bool :=
  decide (i.start ≤ j.start) && decide (j.stop ≤ i.stop)

/-- The next id; the largest is its own next. -/
def next (n : UInt64) : UInt64 :=
  if n = UInt64.ofNat (UInt64.size - 1) then n else n + 1

/-- Intervals that overlap or follow each other directly can be merged into one. -/
def touches (i j : Interval) : Bool :=
  decide (j.start ≤ next i.stop) && decide (i.start ≤ next j.stop)

/-- The order by start, then by end. -/
def cmp (i j : Interval) : Ordering :=
  (compare i.start j.start).then (compare i.stop j.stop)

/-- Not after, in the order by start, then by end. -/
def le (i j : Interval) : Bool :=
  (cmp i j).isLE

/-- Merges each interval of a sorted list into the one before it when they touch. `last` is the
interval that is still growing. -/
def mergeFrom (last : Interval) : List Interval → List Interval
  | [] => [last]
  | i :: is =>
    if last.touches i then mergeFrom ⟨last.start, max last.stop i.stop⟩ is
    else last :: mergeFrom i is

/-- Merges the neighbours of a sorted list that touch. -/
def merge : List Interval → List Interval
  | [] => []
  | i :: is => mergeFrom i is

/-- The normal form of a list of intervals. -/
def collapse (is : List Interval) : List Interval :=
  merge (is.mergeSort le)

/-- The normal form with one more interval. -/
def add (is : List Interval) (i : Interval) : List Interval :=
  collapse (is ++ [i])

/-- The sum, or the largest word when the sum is larger. -/
def addUpTo (a b : UInt64) : UInt64 :=
  if UInt64.size ≤ a.toNat + b.toNat then UInt64.ofNat (UInt64.size - 1) else a + b

/-- How many ids an interval holds, up to the largest word. -/
def size (i : Interval) : UInt64 :=
  addUpTo (i.stop - i.start) 1

/-- How many ids the intervals hold together, up to the largest word. -/
def total (is : List Interval) : UInt64 :=
  is.foldl (fun t i => addUpTo t i.size) 0

end Interval

end ChangeFeed
