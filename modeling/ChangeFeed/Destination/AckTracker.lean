/-!
# Tracking acknowledgements

Items are dispatched under rising numbers and acknowledged in any order. The last item that is known
to be safe is the one up to which every dispatch was acknowledged, or is no longer waited for.

* `AckTracker.register`: a dispatch and its number;
* `ack`, `cancel`: a dispatch that arrived, and one that will not;
* `discard`: nothing is waited for any more.
-/

namespace ChangeFeed

/-- A dispatch that is waited for, itself or one before it. -/
structure PendingAck (α : Type) where
  seq : Nat
  item : α
  acked : Bool
  deriving DecidableEq, Repr

/-- The dispatches that are waited for in order of their numbers, and the last safe item. -/
structure AckTracker (α : Type) where
  nextSeq : Nat
  pending : List (PendingAck α)
  last : Option α
  deriving DecidableEq, Repr

namespace AckTracker

variable {α : Type}

/-- The tracker before the first dispatch. -/
def empty : AckTracker α := ⟨0, [], none⟩

instance : Inhabited (AckTracker α) := ⟨empty⟩

/-- What is left of the dispatches after the acknowledged ones in front, and the last safe item. -/
def settle : List (PendingAck α) → Option α → List (PendingAck α) × Option α
  | [], last => ([], last)
  | p :: ps, last => if p.acked then settle ps (some p.item) else (p :: ps, last)

/-- Takes the acknowledged dispatches in front away. -/
def advance (t : AckTracker α) : AckTracker α :=
  let (pending, last) := settle t.pending t.last
  { t with pending, last }

/-- A new dispatch and its number. -/
def register (a : α) (t : AckTracker α) : Nat × AckTracker α :=
  (t.nextSeq, { t with nextSeq := t.nextSeq + 1, pending := t.pending ++ [⟨t.nextSeq, a, false⟩] })

/-- Is a dispatch among the pending ones? -/
def isPending (seq : Nat) (t : AckTracker α) : Bool := t.pending.any (·.seq == seq)

/-- A dispatch arrived. One that is not pending does not matter. -/
def ack (seq : Nat) (t : AckTracker α) : AckTracker α :=
  if t.isPending seq then
    advance { t with
      pending := t.pending.map fun p => if p.seq = seq then { p with acked := true } else p }
  else t

/-- A dispatch will never arrive. One that is not pending does not matter. -/
def cancel (seq : Nat) (t : AckTracker α) : AckTracker α :=
  if t.isPending seq then
    advance { t with pending := t.pending.filter fun p => p.seq != seq }
  else t

/-- Waits for no dispatch any more. The last safe item stays. -/
def discard (t : AckTracker α) : AckTracker α := { t with pending := [] }

/-- How many dispatches are pending. -/
def pendingCount (t : AckTracker α) : Nat := t.pending.length

end AckTracker

end ChangeFeed
