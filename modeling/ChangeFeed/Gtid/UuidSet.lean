import ChangeFeed.Error
import ChangeFeed.Gtid.Interval
import ChangeFeed.Text.Blank
import ChangeFeed.Text.LowerCase
import ChangeFeed.Text.Pieces

/-!
# The transactions of one server

A server's UUID with the intervals of its transaction ids, written `uuid:1-3:7:9-10`. The UUID has
no white space around it and is in lower case; the intervals are in normal form.

**Operations.** `ofIntervals`, `parse`, `render`; `add`, `addGtid`, `union`; `contains`, `within`,
`count`.
-/

namespace ChangeFeed

/-- One spelling for all spellings of a server's UUID: trimmed and in lower case. -/
def normalUuid (s : List Char) : List Char :=
  Text.lowerChars (Text.trimChars s)

/-- Why a text is no set of transaction ids. `whole` is the text of the server's part. -/
inductive GtidFault where
  | noColon (whole : String)
  | badNumeral (whole : String) (fault : Text.NumeralFault)
  | dashes (whole : String)
  | inverted (whole : String) (start stop : UInt64)
  deriving DecidableEq, Repr

/-- What is said about the fault. -/
def GtidFault.message : GtidFault → String
  | noColon w => "invalid sid format: " ++ w
  | badNumeral w f => "invalid interval format: " ++ w ++ ", error: " ++ f.message
  | dashes w => "invalid interval format: " ++ w
  | inverted w a b =>
    "start(" ++ Text.decimal a.toNat ++ ") > end(" ++ Text.decimal b.toNat ++
      ") in interval of " ++ w

/-- The failure that a fault amounts to. -/
def GtidFault.toError (f : GtidFault) : Error := .gtidText f.message

/-- The transactions of one server. -/
structure UuidSet where
  uuid : String
  intervals : List Interval
  deriving DecidableEq, Repr, Inhabited

namespace UuidSet

/-- The set of a UUID in any spelling and intervals in any order. -/
def ofIntervals (uuid : String) (is : List Interval) : UuidSet :=
  ⟨String.ofList (normalUuid uuid.toList), Interval.collapse is⟩

/-- Reads one end of an interval. -/
def parseNumeral (whole : List Char) (cs : List Char) : Except GtidFault UInt64 :=
  match Text.readU64 (Text.trimChars cs) with
  | .ok n => .ok n
  | .error f => .error (.badNumeral (String.ofList whole) f)

/-- Reads an interval, `n` or `n-m`. -/
def parseInterval (whole : List Char) (cs : List Char) : Except GtidFault Interval :=
  match Text.pieces '-' cs with
  | [a] => do
    let n ← parseNumeral whole a
    return ⟨n, n⟩
  | [a, b] => do
    let n ← parseNumeral whole a
    let m ← parseNumeral whole b
    if m < n then throw (.inverted (String.ofList whole) n m)
    return ⟨n, m⟩
  | _ => .error (.dashes (String.ofList whole))

/-- Reads `uuid:interval:interval...`. -/
def parseChars (cs : List Char) : Except GtidFault UuidSet :=
  match Text.cutFirst? ':' (Text.trimChars cs) with
  | none => .error (.noColon (String.ofList cs))
  | some (uuid, ranges) => do
    let is ← (Text.pieces ':' ranges).mapM fun t => parseInterval cs (Text.trimChars t)
    return ⟨String.ofList (normalUuid uuid), Interval.collapse is⟩

/-- Reads the text of one server's transactions. -/
def parse (s : String) : Except GtidFault UuidSet :=
  parseChars s.toList

/-- The text of one server's transactions. -/
def renderChars (u : UuidSet) : List Char :=
  u.uuid.toList ++ ':' :: Text.joinWith [':'] (u.intervals.map Interval.render)

/-- The text of one server's transactions. -/
def render (u : UuidSet) : String :=
  String.ofList u.renderChars

/-- Is the id in the set? -/
def contains (u : UuidSet) (n : UInt64) : Bool :=
  u.intervals.any (·.contains n)

/-- Puts the ids of an interval in. -/
def add (u : UuidSet) (i : Interval) : UuidSet :=
  { u with intervals := Interval.add u.intervals i }

/-- Puts one id in; says whether it is new. -/
def addGtid (u : UuidSet) (n : UInt64) : Bool × UuidSet :=
  if u.contains n then (false, u) else (true, u.add (.single n))

/-- Puts the ids of another set in, whatever server it names. -/
def union (u v : UuidSet) : UuidSet :=
  { u with intervals := Interval.collapse (u.intervals ++ v.intervals) }

/-- Same server, and every interval of `u` within one interval of `v`. -/
def within (u v : UuidSet) : Bool :=
  u.uuid == v.uuid && u.intervals.all fun i => v.intervals.any (·.covers i)

/-- How many ids the set holds, up to the largest word. -/
def count (u : UuidSet) : UInt64 :=
  Interval.total u.intervals

end UuidSet

end ChangeFeed
