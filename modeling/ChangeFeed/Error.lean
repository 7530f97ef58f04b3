import ChangeFeed.Text.Numeral

/-!
# Failures

What can go wrong anywhere in the library, and what is said about it.

* `Error`: the failure classes, each with its detail;
* `Error.message`: the text of a failure;
* `Error.isFatal`: does the failure end the attempt of a source or destination?
* `Error.isLostPosition`: is the requested log position gone from the server?
-/

namespace ChangeFeed

/-- A failure. -/
inductive Error where
  /-- A file could not be read or written. -/
  | io (detail : String)
  /-- A text is no number. -/
  | numeral (fault : Text.NumeralFault)
  /-- A text is no JSON form of the wanted kind. -/
  | json (detail : String)
  /-- Any other failure. -/
  | other (detail : String)
  /-- Settings cannot be read. -/
  | settings (detail : String)
  /-- A text is no set of transaction ids. -/
  | gtidText (detail : String)
  /-- A text is no log position. -/
  | positionText (detail : String)
  /-- A value could not be decoded, with the text of the cause if there is one. -/
  | undecodable (detail : String) (cause : Option String)
  /-- A source failed. -/
  | source (detail : String)
  /-- A destination failed. -/
  | destination (detail : String)
  /-- The server does not hold the requested position. -/
  | lostPosition (detail : String)
  /-- The operation does not fit the state it was called in. -/
  | illegalState (detail : String)
  /-- No table is known under an id. -/
  | unknownTable (detail : String)
  /-- Progress could not be read or saved. -/
  | store (detail : String)
  deriving DecidableEq, Repr, Inhabited

namespace Error

/-- What is said about the failure. -/
def message : Error → String
  | io d => "io error: " ++ d
  | numeral f => "parse int error: " ++ f.message
  | json d => "json error: " ++ d
  | other d => d
  | settings d => "config file parse error: " ++ d
  | gtidText d => "invalid gtid set: " ++ d
  | positionText d => "invalid binlog position: " ++ d
  | undecodable d _ => "deserialization failed: " ++ d
  | source d => "source error: " ++ d
  | destination d => "destination error: " ++ d
  | lostPosition d => "invalid binlog position requested: " ++ d
  | illegalState d => "illegal state: " ++ d
  | unknownTable d => "table not exist: " ++ d
  | store d => "state repository error: " ++ d

/-- Can the current attempt of a source or destination not go on? -/
def isFatal : Error → Bool
  | undecodable .. | lostPosition _ | source _ | destination _ => true
  | _ => false

/-- Is the requested log position gone? -/
def isLostPosition : Error → Bool
  | lostPosition _ => true
  | _ => false

/-- What is said about the failure beneath this one. -/
def cause : Error → Option String
  | io d | json d => some d
  | numeral f => some f.message
  | undecodable _ c => c
  | _ => none

end Error

end ChangeFeed
