import ChangeFeed.Text.Hex

/-!
# Keys and strings of TOML

The four spellings of a string and the two more of a key, each read at the head of a text: the
result is the string and what follows it.

* basic strings stand between double quotes and know escapes; literal strings stand between single
  quotes and do not;
* three quotes open a string of several lines. A line end right after them does not count, line ends
  are line feeds however they are written, and up to two quotes may stand before the closing three.
-/

namespace ChangeFeed.Toml

/-- May the character stand in a string or a comment as it is? Quotes and backslashes are for the
kind of string to decide. -/
def isPlain (c : Char) : Bool := c == '\t' || (' ' ≤ c && c ≠ '\x7f')

/-- A line end: a line feed, also with a carriage return in front of it. -/
def readBreak? : List Char → Option (List Char)
  | '\n' :: rest => some rest
  | '\r' :: '\n' :: rest => some rest
  | _ => none

/-- The text without a line end at its head. -/
def skipBreak (cs : List Char) : List Char := (readBreak? cs).getD cs

/-- Is the character a space or a tab? -/
def isGap (c : Char) : Bool := c == ' ' || c == '\t'

/-- The text from the first character on that is neither space nor tab. -/
def skipGap (cs : List Char) : List Char := cs.dropWhile isGap

/-- The text from the first character on that is neither space, tab nor part of a line end. -/
def skipBlank : List Char → List Char
  | '\r' :: '\n' :: rest => skipBlank rest
  | c :: rest => if isGap c || c == '\n' then skipBlank rest else c :: rest
  | [] => []

/-- The character of a hexadecimal code point. -/
def charOfHex? (digits : List Char) : Option Char := do
  let n ← digits.foldlM (fun acc c => (Text.hexValue? c).map (acc * 16 + ·)) 0
  if h : n.isValidChar then some (Char.ofNatAux n h) else none

/-- The character of an escape after its backslash. -/
def readEscape? : List Char → Option (Char × List Char)
  | 'b' :: rest => some ('\x08', rest)
  | 't' :: rest => some ('\t', rest)
  | 'n' :: rest => some ('\n', rest)
  | 'f' :: rest => some ('\x0c', rest)
  | 'r' :: rest => some ('\r', rest)
  | '"' :: rest => some ('"', rest)
  | '\\' :: rest => some ('\\', rest)
  | 'u' :: rest => if 4 ≤ rest.length then (charOfHex? (rest.take 4)).map (·, rest.drop 4) else none
  | 'U' :: rest => if 8 ≤ rest.length then (charOfHex? (rest.take 8)).map (·, rest.drop 8) else none
  | _ => none

/-- How many quotes stand at the head of a text. -/
def countQuotes (quote : Char) (cs : List Char) : Nat := (cs.takeWhile (· == quote)).length

/-- The end of a string of several lines, if there are three quotes or more at the head of the text:
the quotes before the closing three, and what follows. -/
def readClosing? (quote : Char) (cs : List Char) : Option (List Char × List Char) :=
  let n := countQuotes quote cs
  if n < 3 then none else some (List.replicate (min (n - 3) 2) quote, cs.drop (min n 5))

/-- A line end that a backslash takes away with all blank characters after it: spaces and tabs up to
the line end, then anything blank. -/
def readJoin? (cs : List Char) : Option (List Char) := (readBreak? (skipGap cs)).map skipBlank

/-- The rest of a basic string of one line after its opening quote. -/
def readBasic? : Nat → List Char → Option (List Char × List Char)
  | 0, _ => none
  | _ + 1, [] => none
  | _ + 1, '"' :: rest => some ([], rest)
  | fuel + 1, '\\' :: rest => do
    let (c, rest) ← readEscape? rest
    let (s, rest) ← readBasic? fuel rest
    return (c :: s, rest)
  | fuel + 1, c :: rest =>
    if isPlain c then (readBasic? fuel rest).map fun r => (c :: r.1, r.2) else none

/-- The rest of a literal string of one line after its opening quote. -/
def readLiteral? : List Char → Option (List Char × List Char)
  | [] => none
  | '\'' :: rest => some ([], rest)
  | c :: rest => if isPlain c then (readLiteral? rest).map fun r => (c :: r.1, r.2) else none

/-- The rest of a string of several lines. Only in a basic one, with double quotes, a backslash
matters. -/
def readLines? (quote : Char) : Nat → List Char → Option (List Char × List Char)
  | 0, _ => none
  | fuel + 1, cs =>
    match readClosing? quote cs with
    | some r => some r
    | none =>
      match readBreak? cs with
      | some rest => (readLines? quote fuel rest).map fun r => ('\n' :: r.1, r.2)
      | none =>
        match cs with
        | [] => none
        | c :: rest =>
          if c = '\\' ∧ quote = '"' then
            match readJoin? rest with
            | some rest => readLines? quote fuel rest
            | none => do
              let (c, rest) ← readEscape? rest
              let (s, rest) ← readLines? quote fuel rest
              return (c :: s, rest)
          else if isPlain c then (readLines? quote fuel rest).map fun r => (c :: r.1, r.2)
          else none

/-- A string in any of its four spellings. -/
def readString? : List Char → Option (List Char × List Char)
  | '"' :: '"' :: '"' :: rest => readLines? '"' (rest.length + 1) (skipBreak rest)
  | '\'' :: '\'' :: '\'' :: rest => readLines? '\'' (rest.length + 1) (skipBreak rest)
  | '"' :: rest => readBasic? (rest.length + 1) rest
  | '\'' :: rest => readLiteral? rest
  | _ => none

/-- May the character stand in a key without quotes? -/
def isBare (c : Char) : Bool :=
  ('a' ≤ c && c ≤ 'z') || ('A' ≤ c && c ≤ 'Z') || ('0' ≤ c && c ≤ '9') || c == '-' || c == '_'

/-- One part of a key: quoted on one line, or bare. -/
def readPart? : List Char → Option (List Char × List Char)
  | '"' :: rest => readBasic? (rest.length + 1) rest
  | '\'' :: rest => readLiteral? rest
  | cs =>
    match cs.takeWhile isBare with
    | [] => none
    | part => some (part, cs.dropWhile isBare)

/-- How many parts a key has at most, and how deep values nest at most. -/
def depthLimit : Nat := 79

/-- A key of at most `room` parts with dots between them and gaps around them. -/
def readKey? : Nat → List Char → Option (List String × List Char)
  | 0, _ => none
  | room + 1, cs => do
    let (part, rest) ← readPart? (skipGap cs)
    match skipGap rest with
    | '.' :: rest =>
      let (parts, rest) ← readKey? room rest
      return (String.ofList part :: parts, rest)
    | rest => return ([String.ofList part], rest)

end ChangeFeed.Toml
