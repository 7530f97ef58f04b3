import ChangeFeed.Text.Ascii

/-!
# JSON trees

A JSON text as a tree whose leaves keep their spelling: a string is the bytes between its quotes,
escapes included, and a number is its digits. What a leaf stands for is decided where it is used, so
that a part of a text that nobody asks for has to be well formed and no more.

* `JsonTree.render`: the compact text of a tree;
* `JsonTree.text`: the same as a string.
-/

namespace ChangeFeed

/-- A number as it is spelt. No fraction digits means that there is no point; the exponent has the
minus sign apart. -/
structure JsonNumeral where
  negative : Bool
  whole : List Nat
  fraction : List Nat
  exponent : Option (Bool × List Nat)
  deriving DecidableEq, Repr

/-- A JSON text as a tree. -/
inductive JsonTree where
  | null
  | bool (b : Bool)
  | num (n : JsonNumeral)
  | str (raw : List UInt8)
  | arr (items : List JsonTree)
  | obj (members : List (List UInt8 × JsonTree))

/-- The text of a number. An exponent has a small letter and always a sign. -/
def JsonNumeral.render (n : JsonNumeral) : List UInt8 :=
  (if n.negative then [Ascii.minus] else []) ++ n.whole.map Ascii.ofDigit ++
    (if n.fraction.isEmpty then [] else Ascii.dot :: n.fraction.map Ascii.ofDigit) ++
    match n.exponent with
    | none => []
    | some (negative, ds) =>
      Ascii.lowerE :: (if negative then Ascii.minus else Ascii.plus) :: ds.map Ascii.ofDigit

namespace JsonTree

mutual

/-- The compact text of a tree. -/
def render : JsonTree → List UInt8
  | null => [0x6E, 0x75, 0x6C, 0x6C]
  | bool true => [0x74, 0x72, 0x75, 0x65]
  | bool false => [0x66, 0x61, 0x6C, 0x73, 0x65]
  | num n => n.render
  | str raw => Ascii.quote :: raw ++ [Ascii.quote]
  | arr [] => [Ascii.openBracket, Ascii.closeBracket]
  | arr (t :: ts) => Ascii.openBracket :: render t ++ renderItems ts
  | obj [] => [Ascii.openBrace, Ascii.closeBrace]
  | obj ((k, t) :: ms) =>
    Ascii.openBrace :: Ascii.quote :: k ++ Ascii.quote :: Ascii.colon :: render t ++
      renderMembers ms

/-- The items after the first, and the closing bracket. -/
def renderItems : List JsonTree → List UInt8
  | [] => [Ascii.closeBracket]
  | t :: ts => Ascii.comma :: render t ++ renderItems ts

/-- The members after the first, and the closing brace. -/
def renderMembers : List (List UInt8 × JsonTree) → List UInt8
  | [] => [Ascii.closeBrace]
  | (k, t) :: ms =>
    Ascii.comma :: Ascii.quote :: k ++ Ascii.quote :: Ascii.colon :: render t ++ renderMembers ms

end

/-- The compact text of a tree, as a string. -/
def text (t : JsonTree) : String :=
  (ofUtf8? t.render).getD ""

end JsonTree

end ChangeFeed
