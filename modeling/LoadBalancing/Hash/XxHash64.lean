/-
The 64-bit xxHash of byte strings.

From 32 bytes on, four lanes take eight bytes each per stripe and are merged at
the end; shorter strings start from a constant. What is left after the stripes
goes in by eight bytes, then by four, then one by one, and an avalanche spreads
the last bits.
-/
import LoadBalancing.Hash.Words

set_option autoImplicit false

namespace LoadBalancing.XxHash64

/-- The odd constants of xxHash, first of five. -/
def prime₁ : UInt64 := 0x9E3779B185EBCA87
/-- The second constant. -/
def prime₂ : UInt64 := 0xC2B2AE3D27D4EB4F
/-- The third constant. -/
def prime₃ : UInt64 := 0x165667B19E3779F9
/-- The fourth constant. -/
def prime₄ : UInt64 := 0x85EBCA77C2B2AE63
/-- The fifth constant. -/
def prime₅ : UInt64 := 0x27D4EB2F165667C5

/-- Turns a word around by some bits. -/
def rotateLeft (v : UInt64) (n : UInt64) : UInt64 :=
  (v <<< n) ||| (v >>> (64 - n))

/-- One lane takes one word. -/
def round (acc word : UInt64) : UInt64 :=
  rotateLeft (acc + word * prime₂) 31 * prime₁

/-- The four lanes that run over full stripes. -/
structure Lanes where
  a : UInt64
  b : UInt64
  c : UInt64
  d : UInt64

namespace Lanes

/-- The lanes before any byte. -/
def start (seed : UInt64) : Lanes where
  a := seed + prime₁ + prime₂
  b := seed + prime₂
  c := seed
  d := seed - prime₁

/-- Each lane takes its word of a stripe. -/
def stripe (l : Lanes) (bytes : List UInt8) : Lanes where
  a := round l.a (littleEndian (bytes.take 8))
  b := round l.b (littleEndian ((bytes.drop 8).take 8))
  c := round l.c (littleEndian ((bytes.drop 16).take 8))
  d := round l.d (littleEndian ((bytes.drop 24).take 8))

/-- Folds a lane into the state. -/
def mergeLane (acc lane : UInt64) : UInt64 :=
  (acc ^^^ round 0 lane) * prime₁ + prime₄

/-- The state that the lanes come to. -/
def merge (l : Lanes) : UInt64 :=
  let acc := rotateLeft l.a 1 + rotateLeft l.b 7 + rotateLeft l.c 12 + rotateLeft l.d 18
  mergeLane (mergeLane (mergeLane (mergeLane acc l.a) l.b) l.c) l.d

end Lanes

/-- Runs the lanes over all full stripes; what is left has fewer than 32 bytes. -/
def stripes (l : Lanes) (bytes : List UInt8) : Lanes × List UInt8 :=
  if _h : 32 ≤ bytes.length then stripes (l.stripe (bytes.take 32)) (bytes.drop 32)
  else (l, bytes)
termination_by bytes.length
decreasing_by simp; omega

/-- The bytes left over after words of eight and four. -/
def absorbBytes (h : UInt64) : List UInt8 → UInt64
  | [] => h
  | b :: rest => absorbBytes (rotateLeft (h ^^^ (b.toUInt64 * prime₅)) 11 * prime₁) rest

/-- At most one word of four bytes, then single bytes. -/
def absorbHalf (h : UInt64) : List UInt8 → UInt64
  | b₀ :: b₁ :: b₂ :: b₃ :: rest =>
    absorbBytes
      (rotateLeft (h ^^^ (littleEndian [b₀, b₁, b₂, b₃] * prime₁)) 23 * prime₂ + prime₃) rest
  | rest => absorbBytes h rest

/-- The part after the stripes, words of eight first. -/
def absorbTail (h : UInt64) : List UInt8 → UInt64
  | b₀ :: b₁ :: b₂ :: b₃ :: b₄ :: b₅ :: b₆ :: b₇ :: rest =>
    absorbTail
      (rotateLeft (h ^^^ round 0 (littleEndian [b₀, b₁, b₂, b₃, b₄, b₅, b₆, b₇])) 27
        * prime₁ + prime₄) rest
  | rest => absorbHalf h rest

/-- The last mixing, after all bytes are in. -/
def avalanche (h : UInt64) : UInt64 :=
  let h := (h ^^^ (h >>> 33)) * prime₂
  let h := (h ^^^ (h >>> 29)) * prime₃
  h ^^^ (h >>> 32)

/-- The hash of a byte string under a seed. -/
def hashSeeded (bytes : List UInt8) (seed : UInt64) : UInt64 :=
  let (lanes, rest) := stripes (.start seed) bytes
  let base := if bytes.length < 32 then seed + prime₅ else lanes.merge
  avalanche (absorbTail (base + bytes.length.toUInt64) rest)

/-- The hash of a byte string, seed zero (`xx_hash64`). -/
def hash (bytes : List UInt8) : UInt64 :=
  hashSeeded bytes 0

end LoadBalancing.XxHash64
