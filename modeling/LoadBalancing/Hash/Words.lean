/-
Bytes as words: the little-endian reading that every hash of this library uses.
-/

set_option autoImplicit false

namespace LoadBalancing

/-- The number whose little-endian digits are `bytes`. The word has room for
eight bytes; later ones are shifted out of it. -/
def littleEndian (bytes : List UInt8) : UInt64 :=
  bytes.foldr (fun b acc => (acc <<< 8) ||| b.toUInt64) 0

end LoadBalancing
