import ChangeFeed.Toml.Number
import ChangeFeed.Toml.Quoted
import ChangeFeed.Toml.Tree

/-!
# Reading TOML

The members of a whole document. A document is a list of lines, each blank, a header, or a key with
its value; a comment may end any of them, and a byte order mark may stand in front of all.

* `readValue?`: a value at the head of a text, arrays and inline tables included;
* `Toml.read?`: a whole document.
-/

namespace ChangeFeed.Toml

/-- The text from the end of a comment on. -/
def skipComment (cs : List Char) : List Char := cs.dropWhile isPlain

/-- The text from the first character on that is neither gap, line end nor part of a comment. A
comment ends in a line end. -/
def skipLines? : Nat → List Char → Option (List Char)
  | 0, _ => none
  | fuel + 1, cs =>
    match skipBlank cs with
    | '#' :: rest => do
      let rest ← readBreak? (skipComment rest)
      skipLines? fuel rest
    | rest => some rest

/-- A number, a date or a time. -/
def readNumberOrMoment? (cs : List Char) : Option (Toml × List Char) :=
  match readMoment? cs with
  | some (written, rest) => some (.moment written, rest)
  | none =>
    match readFloatText? cs with
    | some _ => (readFloat? cs).map fun r => (.float r.1, r.2)
    | none => (readWhole? cs).map fun r => (.whole r.1, r.2)

/-- A value that holds no others. -/
def readPlain? : List Char → Option (Toml × List Char)
  | 't' :: 'r' :: 'u' :: 'e' :: rest => some (.flag true, rest)
  | 'f' :: 'a' :: 'l' :: 's' :: 'e' :: rest => some (.flag false, rest)
  | '"' :: rest => (readString? ('"' :: rest)).map fun r => (.text (String.ofList r.1), r.2)
  | '\'' :: rest => (readString? ('\'' :: rest)).map fun r => (.text (String.ofList r.1), r.2)
  | cs => readNumberOrMoment? cs

mutual

/-- A value in which values may nest `depth` deep. -/
def readValue? : Nat → Nat → List Char → Option (Toml × List Char)
  | 0, _, _ => none
  | fuel + 1, depth, cs =>
    match cs, depth with
    | '[' :: _, 0 => none
    | '{' :: _, 0 => none
    | '[' :: rest, depth + 1 => (readItems? fuel depth rest).map fun r => (.list r.1, r.2)
    | '{' :: rest, depth + 1 =>
      match skipGap rest with
      | '}' :: rest => some (.table .inline [], rest)
      | rest => (readPairs? fuel depth rest []).map fun r => (.table .inline r.1, r.2)
    | cs, _ => readPlain? cs

/-- The items of an array up to its closing bracket. Line ends and comments may stand between them,
and a comma after the last one. -/
def readItems? : Nat → Nat → List Char → Option (List Toml × List Char)
  | 0, _, _ => none
  | fuel + 1, depth, cs => do
    match ← skipLines? (cs.length + 1) cs with
    | ']' :: rest => return ([], rest)
    | cs =>
      let (t, rest) ← readValue? fuel depth cs
      match ← skipLines? (rest.length + 1) rest with
      | ']' :: rest => return ([t], rest)
      | ',' :: rest =>
        let (ts, rest) ← readItems? fuel depth rest
        return (t :: ts, rest)
      | _ => none

/-- The members of an inline table after `ms`, at least one, up to its closing brace. All stand on
one line, without a comma after the last one. -/
def readPairs? : Nat → Nat → List Char → Members → Option (Members × List Char)
  | 0, _, _, _ => none
  | fuel + 1, depth, cs, ms => do
    let (key, rest) ← readKey? depthLimit cs
    let rest ← expect? '=' rest
    let (t, rest) ← readValue? fuel depth (skipGap rest)
    let ms ← Members.insert? key.dropLast (key.getLastD "") t .headed ms
    match skipGap rest with
    | '}' :: rest => return (ms, rest)
    | ',' :: rest => readPairs? fuel depth rest ms
    | _ => none

end

/-- The text after the end of a line, which may hold a gap and a comment. The text may end there
too. -/
def readLineEnd? (cs : List Char) : Option (List Char) :=
  let rest :=
    match skipGap cs with
    | '#' :: rest => skipComment rest
    | rest => rest
  match rest with
  | [] => some []
  | rest => readBreak? rest

/-- What is known after some lines: the members of the document, and the header they stand under. -/
structure Draft where
  members : Members
  header : List String

/-- One line that is not blank: what is known after it, and the text that follows. -/
def readLine? (d : Draft) (cs : List Char) : Option (Draft × List Char) :=
  match cs with
  | '[' :: '[' :: rest => do
    let (key, rest) ← readKey? depthLimit rest
    let rest ← expect? ']' rest
    let rest ← expect? ']' rest
    let rest ← readLineEnd? rest
    let members ← d.members.openRow? key.dropLast (key.getLastD "")
    return (⟨members, key⟩, rest)
  | '[' :: rest => do
    let (key, rest) ← readKey? depthLimit rest
    let rest ← expect? ']' rest
    let rest ← readLineEnd? rest
    let members ← d.members.open? key.dropLast (key.getLastD "")
    return (⟨members, key⟩, rest)
  | cs => do
    let (key, rest) ← readKey? depthLimit cs
    let rest ← expect? '=' rest
    let rest := skipGap rest
    let (t, rest) ← readValue? (2 * rest.length + 2) depthLimit rest
    let rest ← readLineEnd? rest
    let members ← d.members.insertUnder? d.header key.dropLast (key.getLastD "") t
    return ({ d with members }, rest)

/-- The lines up to the end of the text. -/
def readLines : Nat → Draft → List Char → Option Members
  | 0, _, _ => none
  | fuel + 1, d, cs =>
    match skipGap cs with
    | [] => some d.members
    | '#' :: rest =>
      match skipComment rest with
      | [] => some d.members
      | rest => (readBreak? rest).bind (readLines fuel d)
    | rest =>
      match readBreak? rest with
      | some rest => readLines fuel d rest
      | none => do
        let (d, rest) ← readLine? d rest
        readLines fuel d rest

/-- The text without a byte order mark in front of it. -/
def skipMark : List Char → List Char
  | '\ufeff' :: rest => rest
  | cs => cs

/-- The members of a document. Each line takes at least one character, so its length is fuel
enough. -/
def read? (text : String) : Option Members :=
  let cs := skipMark text.toList
  readLines (cs.length + 1) ⟨[], []⟩ cs

end ChangeFeed.Toml
