/-
MurmurHash64A, the 64-bit hash of byte strings with a seed.

The bytes are taken eight at a time as little-endian words; each word is mixed
on its own and folded into the state, then the one to seven bytes left over are
folded in as one short word. Every step is a bijection of the state and, for a
fixed state, of the word: multiplication by an odd constant, exclusive or, and
an exclusive or with the value's own top bits. That is why two keys of one
length that differ within a single word never collide.
-/
import LoadBalancing.Hash.Words

set_option autoImplicit false

namespace LoadBalancing.Murmur64A

/-- The odd multiplier of every step (`MURMUR_MUL`). -/
def multiplier : UInt64 := 0xc6a4a7935bd1e995

/-- The seed of ring keys (`MURMUR_STD_HASH_SEED`). -/
def standardSeed : UInt64 := 0xc70f6907

/-- Folds the top 17 bits of a word into its low bits (`shift_mix`). -/
def shiftMix (v : UInt64) : UInt64 :=
  v ^^^ (v >>> 47)

/-- What a full word adds to the state. -/
def mixWord (word : UInt64) : UInt64 :=
  shiftMix (word * multiplier) * multiplier

/-- Folds one mixed word into the state. -/
def absorb (state data : UInt64) : UInt64 :=
  (state ^^^ data) * multiplier

/-- Folds in a whole byte string: full words first, then the rest if there is any. -/
def absorbBytes (state : UInt64) : List UInt8 → UInt64
  | b₀ :: b₁ :: b₂ :: b₃ :: b₄ :: b₅ :: b₆ :: b₇ :: rest =>
    absorbBytes (absorb state (mixWord (littleEndian [b₀, b₁, b₂, b₃, b₄, b₅, b₆, b₇]))) rest
  | [] => state
  | tail => absorb state (littleEndian tail)

/-- The last mixing, after all bytes are in. -/
def finish (state : UInt64) : UInt64 :=
  shiftMix (shiftMix state * multiplier)

/-- The hash of a byte string (`murmur_hash2_64`). -/
def hash (bytes : List UInt8) (seed : UInt64) : UInt64 :=
  finish (absorbBytes (seed ^^^ (bytes.length.toUInt64 * multiplier)) bytes)

end LoadBalancing.Murmur64A
