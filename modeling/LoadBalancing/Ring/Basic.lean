/-
Consistent hashing rings (`Ring`).

Every host owns a number of points on a circle of 64-bit hashes, in proportion
to its share; a request belongs to the first point at or after its own hash. When
a host leaves, only the requests that were its own move, because every other
point stays where it is.

The number of entries is chosen so that the host with the smallest share gets a
whole number of them, unless the maximum size forbids it. Entries are dealt out
by a running target: after each host, as many entries stand on the ring as the
running sum of scaled shares, rounded up. Since the running sum ends at the scale
itself, the ring has as many entries as the scale rounded up.
-/
import LoadBalancing.Ring.Settings
import LoadBalancing.Ring.Shares

set_option autoImplicit false

namespace LoadBalancing

/-- A point on the ring and the host that owns it (`RingEntry`). -/
structure RingEntry where
  hash : UInt64
  host : Host

/-- A ring, sorted by hash; entries of one hash stand in the order of their hosts. -/
structure Ring where
  entries : Array RingEntry
  /-- The least number of entries that one host got. -/
  minPerHost : Nat
  /-- The greatest number of entries that one host got. -/
  maxPerHost : Nat

namespace Ring

/-- A ring of nobody. -/
def empty : Ring := ⟨#[], 0, 0⟩

instance : Inhabited Ring := ⟨empty⟩

/-- The number of entries. -/
def size (r : Ring) : Nat :=
  r.entries.size

/-- Whether the ring has no entries. -/
def isEmpty (r : Ring) : Bool :=
  r.entries.isEmpty

/-! ## Building -/

/-- The key of entry `i` of a host. The last underscore divides it, so no two hosts
share a key. -/
def key (address : String) (i : Nat) : String :=
  address ++ "_" ++ toString i

/-- The first `count` entries of a host, placed by any hash of byte strings. -/
def entriesOf (f : List UInt8 → UInt64) (host : Host) (count : Nat) : List RingEntry :=
  (List.range count).map fun i =>
    { hash := f (key host.address i).toUTF8.toList, host }

/-- How many entries each host gets. `dealt` entries are on the ring already and
`target` is the running sum of scaled shares so far. -/
def deal {α : Type} [Quantity α] (scale : α) (dealt : Nat) (target : α) :
    List (Host × α) → List (Host × Nat)
  | [] => []
  | (h, w) :: rest =>
    let target := target + scale * w
    let upTo := max dealt (Quantity.ceil target)
    (h, upTo - dealt) :: deal scale upTo target rest

/-- The factor from shares to entries. -/
def scale {α : Type} [Quantity α] (smallest : α) (s : RingSettings) : α :=
  Quantity.least
    (Quantity.ofNat (Quantity.ceil (smallest * Quantity.ofNat s.minimumSize)) / smallest)
    (Quantity.ofNat s.maximumSize)

/-- The ring in which each host has the given number of entries. -/
def ofCounts (f : List UInt8 → UInt64) (size : Nat) (counts : List (Host × Nat)) : Ring where
  entries :=
    ((counts.flatMap fun (h, n) => entriesOf f h n).mergeSort
      fun a b => decide (a.hash ≤ b.hash)).toArray
  minPerHost := counts.foldl (fun m (_, n) => min m n) size
  maxPerHost := counts.foldl (fun m (_, n) => max m n) 0

/-- The ring of normalised shares, with the hash that the settings name
(`Ring::from_normalized`). -/
def ofShares {α : Type} [Quantity α] (w : Shares α) (s : RingSettings) : Ring :=
  if w.shares.isEmpty then empty
  else
    let scale := scale w.smallest s
    ofCounts s.hash.ofBytes (Quantity.ceil scale) (deal scale 0 (Quantity.ofNat 0) w.shares)

/-! ## Look-up -/

/-- The position of the first entry at or after `h`, searched in `[low, high]`, and position 0
where there is none and the circle wraps around. Each step looks at the middle of the range: it
is the one if the entry before it is below `h`, and if it is not, the search goes on in one
half. The bounds are signed, since a range may end before position 0. -/
def position (entries : Array RingEntry) (h : UInt64) (low high : Int) (start : 0 ≤ low)
    (inside : high ≤ entries.size) : Nat :=
  if _more : low ≤ high then
    let mid := ((low + high) / 2).toNat
    -- behind the last entry the circle begins again
    if _beyond : mid = entries.size then 0
    else
      have : mid < entries.size := by omega
      let hash := entries[mid].hash
      let before := if mid = 0 then 0 else entries[mid - 1].hash
      if h ≤ hash && before < h then mid
      else if hash < h then position entries h (mid + 1) high (by omega) inside
      else position entries h low (mid - 1) start (by omega)
  else 0
termination_by (high + 1 - low).toNat
decreasing_by all_goals omega

/-- The host that owns `h` (`Ring::choose_host`): that of the first entry at or after it, or of the
first entry of all when the circle wraps around. None only on an empty ring. -/
def owner? (r : Ring) (h : UInt64) : Option Host :=
  r.entries[position r.entries h 0 r.entries.size (by omega) (Int.le_refl _)]?.map (·.host)

end Ring

/-! ## Build statistics -/

/-- The figures of the last ring built, and how many were built (`RingStats`). -/
structure RingStats where
  size : Nat
  minPerHost : Nat
  maxPerHost : Nat
  builds : Nat
  deriving DecidableEq, Repr

namespace RingStats

/-- No ring was built yet. -/
def zero : RingStats := ⟨0, 0, 0, 0⟩

instance : Inhabited RingStats := ⟨zero⟩

/-- Takes note of a ring; an empty ring is not worth a note (`RingStats::record`). -/
def record (s : RingStats) (r : Ring) : RingStats :=
  if r.isEmpty then s else ⟨r.size, r.minPerHost, r.maxPerHost, s.builds + 1⟩

end RingStats

end LoadBalancing
