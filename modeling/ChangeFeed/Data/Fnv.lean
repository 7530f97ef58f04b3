/-!
# FNV-1a hashes

The 64-bit hash of a list of bytes: each byte is mixed in by an exclusive or and a product with a
fixed prime.
-/

namespace ChangeFeed.Fnv

/-- The hash of no bytes. -/
def basis : UInt64 := 0xcbf29ce484222325

/-- The factor of every step. -/
def prime : UInt64 := 0x100000001b3

/-- The hash with one more byte. -/
def mix (h : UInt64) (b : UInt8) : UInt64 := (h ^^^ b.toUInt64) * prime

/-- The hash of bytes. -/
def hash (bs : List UInt8) : UInt64 := bs.foldl mix basis

end ChangeFeed.Fnv
