import ChangeFeed.Data.NameMap
import ChangeFeed.Gtid.UuidSet

/-!
# Sets of transaction ids

A finite set of pairs (server UUID, transaction id), kept as one list of intervals for each server
in the order of the UUIDs. Its text lists the servers with commas between them; equal sets have
equal texts.

**Operations.** `parse`, `parseOptional`, `render`; `addGtid`, `addInterval`, `union`; `get?`,
`contains`, `within`, `count`.
-/

namespace ChangeFeed

/-- A set of transaction ids: the intervals of each server. -/
structure GtidSet where
  servers : NameMap (List Interval)
  deriving DecidableEq, Inhabited

namespace GtidSet

/-- The set without transactions. -/
def empty : GtidSet := ⟨NameMap.empty⟩

/-- The transactions server by server, in the order of the UUIDs. -/
def toList (s : GtidSet) : List UuidSet :=
  s.servers.entries.map fun e => ⟨e.1, e.2⟩

/-- Is no server listed? -/
def isEmpty (s : GtidSet) : Bool :=
  s.servers.entries.isEmpty

/-- Puts the transactions of one server in. -/
def merge (s : GtidSet) (u : UuidSet) : GtidSet :=
  match s.servers.get? u.uuid with
  | some is => ⟨s.servers.insert u.uuid (Interval.collapse (is ++ u.intervals))⟩
  | none => ⟨s.servers.insert u.uuid u.intervals⟩

/-- Puts the transactions of another set in. -/
def union (s t : GtidSet) : GtidSet :=
  t.toList.foldl merge s

/-- Puts server parts in one after the other, up to the first that cannot be read. -/
def parseParts (s : GtidSet) : List (List Char) → Except GtidFault GtidSet
  | [] => .ok s
  | p :: ps =>
    match UuidSet.parseChars p with
    | .ok u => parseParts (s.merge u) ps
    | .error f => .error f

/-- The parts of a text that name a server: line feeds are dropped, commas separate, blank parts do
not count. -/
def serverParts (cs : List Char) : List (List Char) :=
  ((Text.pieces ',' (cs.filter (· != '\n'))).map Text.trimChars).filter (! ·.isEmpty)

/-- Reads the text of a set; a blank text is the empty set. -/
def parse (s : String) : Except GtidFault GtidSet :=
  parseParts empty (serverParts s.toList)

/-- Reads the text of a set, where no text and a blank text both mean that there is none. -/
def parseOptional (s : Option String) : Except GtidFault (Option GtidSet) :=
  match s with
  | none => .ok none
  | some t => if (Text.trimChars t.toList).isEmpty then .ok none else (parse t).map some

/-- The text of a set. -/
def renderChars (s : GtidSet) : List Char :=
  Text.joinWith [','] (s.toList.map UuidSet.renderChars)

/-- The text of a set. -/
def render (s : GtidSet) : String :=
  String.ofList s.renderChars

/-- The key under which a look-up finds a server: lower case, white space kept. -/
def lookupKey (uuid : String) : String :=
  String.ofList (Text.lowerChars uuid.toList)

/-- The transactions of a server. -/
def get? (s : GtidSet) (uuid : String) : Option UuidSet :=
  (s.servers.get? (lookupKey uuid)).map fun is => ⟨lookupKey uuid, is⟩

/-- Is the server listed? -/
def containsKey (s : GtidSet) (uuid : String) : Bool :=
  s.servers.contains (lookupKey uuid)

/-- Is the transaction in the set? -/
def contains (s : GtidSet) (uuid : String) (n : UInt64) : Bool :=
  match s.get? uuid with
  | some u => u.contains n
  | none => false

/-- The transactions of a server that is about to be changed, none if it is new. -/
def entry (s : GtidSet) (uuid : String) : UuidSet :=
  let key := String.ofList (normalUuid uuid.toList)
  ⟨key, (s.servers.get? key).getD []⟩

/-- Puts the ids of an interval in. -/
def addInterval (s : GtidSet) (uuid : String) (i : Interval) : GtidSet :=
  let u := (s.entry uuid).add i
  ⟨s.servers.insert u.uuid u.intervals⟩

/-- Puts one transaction in; says whether it is new. -/
def addGtid (s : GtidSet) (uuid : String) (n : UInt64) : Bool × GtidSet :=
  let r := (s.entry uuid).addGtid n
  (r.1, ⟨s.servers.insert r.2.uuid r.2.intervals⟩)

/-- Is every transaction of `s` in `t`, interval by interval? -/
def within (s t : GtidSet) : Bool :=
  s.servers.entries.all fun e =>
    match t.servers.get? e.1 with
    | some is => e.2.all fun i => is.any (·.covers i)
    | none => false

/-- How many transactions the set holds, up to the largest word. -/
def count (s : GtidSet) : UInt64 :=
  s.toList.foldl (fun n u => Interval.addUpTo n u.count) 0

end GtidSet

end ChangeFeed
