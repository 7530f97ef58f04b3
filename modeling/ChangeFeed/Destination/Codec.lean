import ChangeFeed.Wire.Mutation

/-!
# Codecs

How a destination writes mutations as bytes and reads them back.

* `Codec`: the operations of a codec;
* `jsonCodec`: the JSON form of a mutation. What cannot be read is undecodable.
-/

namespace ChangeFeed

/-- The two directions of a codec, and its name. -/
structure Codec where
  name : String
  encode : Mutation → Except Error (List UInt8)
  decode : List UInt8 → Except Error Mutation

/-- The codec of JSON texts. -/
def jsonCodec : Codec where
  name := "JsonCodec"
  encode m := .ok (JsonForm.write m)
  decode bytes :=
    match JsonForm.read? bytes with
    | some m => .ok m
    | none =>
      .error (.undecodable "JsonCodec failed to decode mutation"
        (some "the text is no JSON form of a mutation"))

end ChangeFeed
