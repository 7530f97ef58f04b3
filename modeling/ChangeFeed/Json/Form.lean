import ChangeFeed.Data.NameMap
import ChangeFeed.Json.Numeral
import ChangeFeed.Json.Reader

/-!
# JSON forms of values

How values are written as JSON trees and read from them.

* `JsonForm`: the form of a type;
* `Record`: a value with named fields, read from an object in any order or from an array in field
  order;
* `variant?`: a value that is one of several named cases;
* the forms of the basic types: whole numbers in range of their width, texts, lists, optional values
  and maps.
-/

namespace ChangeFeed

/-- The JSON form of a type. -/
class JsonForm (α : Type) where
  /-- The tree of a value. -/
  toTree : α → JsonTree
  /-- The value of a tree, if it is the form of one. -/
  ofTree? : JsonTree → Option α

namespace JsonForm

/-- The compact JSON text of a value. -/
def write {α : Type} [JsonForm α] (a : α) : List UInt8 := (toTree a).render

/-- The compact JSON text of a value, as a string. -/
def text {α : Type} [JsonForm α] (a : α) : String := (toTree a).text

/-- Reads a value from the bytes of a JSON text. -/
def read? {α : Type} [JsonForm α] (bs : List UInt8) : Option α :=
  (JsonTree.read? bs).bind ofTree?

/-- Reads a value from a JSON text. -/
def parse? {α : Type} [JsonForm α] (s : String) : Option α := read? (utf8 s)

end JsonForm

namespace JsonTree

/-- The tree of a text. -/
def ofString (s : String) : JsonTree := .str (Json.quoted s)

/-- The object with the given fields. -/
def ofFields (fs : List (String × JsonTree)) : JsonTree :=
  .obj (fs.map fun f => (Json.quoted f.1, f.2))

/-- A named case with content. -/
def ofCase (name : String) (content : JsonTree) : JsonTree :=
  ofFields [(name, content)]

/-- The name of a case and its content: a text is a case without content, an object with one member
a case with content. -/
def variant? : JsonTree → Option (String × Option JsonTree)
  | .str raw => (Json.unquoted? raw).map fun s => (s, none)
  | .obj [(raw, t)] => (Json.unquoted? raw).map fun s => (s, some t)
  | _ => none

/-- The name of a case that has no content. -/
def plainCase? (t : JsonTree) : Option String :=
  match t.variant? with
  | some (s, none) => some s
  | some (s, some .null) => some s
  | _ => none

end JsonTree

/-- The fields of a value that are there, by name, and whether they came with their names. -/
structure Record where
  named : Bool
  fields : List (String × JsonTree)

namespace Record

/-- Puts the members of an object that are among `names` after `acc`. No name comes twice. -/
def gather (names : List String) (acc : List (String × JsonTree)) :
    List (List UInt8 × JsonTree) → Option (List (String × JsonTree))
  | [] => some acc
  | (raw, t) :: ms =>
    match Json.unquoted? raw with
    | none => none
    | some k =>
      if names.contains k then
        if (acc.lookup k).isSome then none else gather names (acc ++ [(k, t)]) ms
      else gather names acc ms

/-- The record of a tree: an object in which other members do not matter, or an array that holds the
fields in order and nothing more. -/
def ofTree? (names : List String) : JsonTree → Option Record
  | .obj ms => (gather names [] ms).map fun fs => ⟨true, fs⟩
  | .arr ts => if ts.length ≤ names.length then some ⟨false, names.zip ts⟩ else none
  | _ => none

/-- A field that has to be there. -/
def need {α : Type} [JsonForm α] (r : Record) (name : String) : Option α :=
  (r.fields.lookup name).bind JsonForm.ofTree?

/-- A field with a value of its own when it is not there. -/
def getOr {α : Type} [JsonForm α] (r : Record) (name : String) (default : α) : Option α :=
  match r.fields.lookup name with
  | some t => JsonForm.ofTree? t
  | none => some default

/-- A field that an object may leave out. -/
def maybe {α : Type} [JsonForm (Option α)] (r : Record) (name : String) : Option (Option α) :=
  match r.fields.lookup name with
  | some t => JsonForm.ofTree? t
  | none => if r.named then some none else none

end Record

/-! ## Basic types -/

instance : JsonForm Bool where
  toTree := .bool
  ofTree?
    | .bool b => some b
    | _ => none

instance : JsonForm String where
  toTree := .ofString
  ofTree?
    | .str raw => Json.unquoted? raw
    | _ => none

/-- The whole number of a tree, if it is one between `low` and `high`. -/
def JsonTree.intBetween? (low high : Int) : JsonTree → Option Int
  | .num n =>
    match n.int? with
    | some i => if low ≤ i ∧ i ≤ high then some i else none
    | none => none
  | _ => none

/-- The tree of a whole number. -/
def JsonTree.ofInt (n : Int) : JsonTree := .num (.ofInt n)

instance : JsonForm UInt8 where
  toTree n := .ofInt n.toNat
  ofTree? t := (t.intBetween? 0 (UInt8.size - 1)).map fun i => UInt8.ofNat i.toNat

instance : JsonForm UInt16 where
  toTree n := .ofInt n.toNat
  ofTree? t := (t.intBetween? 0 (UInt16.size - 1)).map fun i => UInt16.ofNat i.toNat

instance : JsonForm UInt32 where
  toTree n := .ofInt n.toNat
  ofTree? t := (t.intBetween? 0 (UInt32.size - 1)).map fun i => UInt32.ofNat i.toNat

instance : JsonForm UInt64 where
  toTree n := .ofInt n.toNat
  ofTree? t := (t.intBetween? 0 (UInt64.size - 1)).map fun i => UInt64.ofNat i.toNat

instance : JsonForm Int8 where
  toTree n := .ofInt n.toInt
  ofTree? t := (t.intBetween? Int8.minValue.toInt Int8.maxValue.toInt).map Int8.ofInt

instance : JsonForm Int16 where
  toTree n := .ofInt n.toInt
  ofTree? t := (t.intBetween? Int16.minValue.toInt Int16.maxValue.toInt).map Int16.ofInt

instance : JsonForm Int32 where
  toTree n := .ofInt n.toInt
  ofTree? t := (t.intBetween? Int32.minValue.toInt Int32.maxValue.toInt).map Int32.ofInt

instance : JsonForm Int64 where
  toTree n := .ofInt n.toInt
  ofTree? t := (t.intBetween? Int64.minValue.toInt Int64.maxValue.toInt).map Int64.ofInt

instance : JsonForm Binary64 where
  toTree a :=
    match JsonNumeral.ofDouble? a with
    | some n => .num n
    | none => .null
  ofTree?
    | .num n => n.toDouble?
    | _ => none

instance : JsonForm Binary32 where
  toTree a :=
    match JsonNumeral.ofSingle? a with
    | some n => .num n
    | none => .null
  ofTree?
    | .num n => n.toSingle?
    | _ => none

instance {α : Type} [JsonForm α] : JsonForm (Option α) where
  toTree
    | some a => JsonForm.toTree a
    | none => .null
  ofTree?
    | .null => some none
    | t => (JsonForm.ofTree? t).map some

instance {α : Type} [JsonForm α] : JsonForm (List α) where
  toTree as := .arr (as.map JsonForm.toTree)
  ofTree?
    | .arr ts => ts.mapM JsonForm.ofTree?
    | _ => none

instance {α β : Type} [JsonForm α] [JsonForm β] : JsonForm (α × β) where
  toTree p := .arr [JsonForm.toTree p.1, JsonForm.toTree p.2]
  ofTree?
    | .arr [t, u] => do
      let a ← JsonForm.ofTree? t
      let b ← JsonForm.ofTree? u
      return (a, b)
    | _ => none

instance {α : Type} [JsonForm α] : JsonForm (NameMap α) where
  toTree m := .ofFields (m.entries.map fun e => (e.1, JsonForm.toTree e.2))
  ofTree?
    | .obj ms => do
      let es ← ms.mapM fun e => do
        let k ← Json.unquoted? e.1
        let v ← JsonForm.ofTree? e.2
        return (k, v)
      return NameMap.ofList es
    | _ => none

end ChangeFeed
