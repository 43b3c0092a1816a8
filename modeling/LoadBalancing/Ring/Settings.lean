/-
Settings of hash rings, and when they can be used.

A ring must be reproducible: every process that builds it from the same hosts
has to find the same entries. That is why a ring size must be bounded from both
sides and why only the fixed hash functions of this library can place entries.
-/
import LoadBalancing.Hash.Murmur64A
import LoadBalancing.Hash.XxHash64

set_option autoImplicit false

namespace LoadBalancing

/-- The hash function that places the entries of a ring (`HashFunction`). -/
inductive RingHash where
  | xxHash
  | murmur
  deriving DecidableEq, Repr

namespace RingHash

/-- The hash of a ring key (`hash_key`). -/
def ofBytes (f : RingHash) (bytes : List UInt8) : UInt64 :=
  match f with
  | .xxHash => XxHash64.hash bytes
  | .murmur => Murmur64A.hash bytes Murmur64A.standardSeed

end RingHash

/-- The hash function of a ring and the bounds of its size (`RingHashConfig`). -/
structure RingSettings where
  minimumSize : Nat
  maximumSize : Nat
  hash : RingHash
  /-- Asks for the hash of the platform, which is not the same everywhere. -/
  useStdHash : Bool
  deriving DecidableEq, Repr

/-- Why ring settings cannot be used. -/
inductive RingProblem where
  | bounds (minimum maximum : Nat)
  | zeroMinimum
  | maximumTooLarge
  | stdHash
  deriving DecidableEq, Repr

namespace RingSettings

/-- The sizes and the hash used where nothing is configured. -/
def standard : RingSettings where
  minimumSize := 1024
  maximumSize := 8388608
  hash := .xxHash
  useStdHash := false

instance : Inhabited RingSettings := ⟨standard⟩

/-- The largest ring a configuration may ask for (`MAX_RING_SIZE`). -/
def largestSize : Nat := 8388608

/-- The first thing wrong with the settings, if anything is (`validate_ring_hash`). -/
def problem? (s : RingSettings) : Option RingProblem :=
  if s.maximumSize < s.minimumSize then some (.bounds s.minimumSize s.maximumSize)
  else if s.minimumSize = 0 then some .zeroMinimum
  else if largestSize < s.maximumSize then some .maximumTooLarge
  else if s.useStdHash then some .stdHash
  else none

end RingSettings

namespace RingProblem

/-- The problem in words. -/
def message : RingProblem → String
  | .bounds minimum maximum =>
    s!"ring hash: minimum_ring_size ({minimum}) > maximum_ring_size ({maximum})"
  | .zeroMinimum => "ring hash: minimum_ring_size must be greater than 0"
  | .maximumTooLarge => s!"ring hash: maximum_ring_size must not exceed {RingSettings.largestSize}"
  | .stdHash =>
    "ring hash: use_std_hash is not supported; ring keys must hash identically on every build"

end RingProblem

end LoadBalancing
