/-
Reports on balancing: the figures of rings and loads, the subsets and their counts.

Subsets are listed in the order of their tuples, which does not depend on when they
were made.
-/
import LoadBalancing.Report.Hosts
import LoadBalancing.Subset.Engine

set_option autoImplicit false

namespace LoadBalancing.Report

open Document

/-! ## Rings and loads -/

/-- The figures of the last ring. -/
def ringStats (s : RingStats) : Node :=
  .list [.nat s.size, .nat s.minPerHost, .nat s.maxPerHost, .nat s.builds]

/-- The loads of all levels, of the healthy and of the degraded hosts. -/
def loads (s : PriorityState) : List (String × Node) :=
  [("healthy", .list (s.load.healthy.map .nat)), ("degraded", .list (s.load.degraded.map .nat))]

/-- A ring: how large it is, and the least and the largest number of entries of a host. -/
def ring (r : Ring) (shown : Nat) (lookups : List UInt64) : Node :=
  let hash (h : UInt64) : Node := .text (toString h.toNat)
  let owner (h : UInt64) : Node := .optional (fun h => .text h.address) (r.owner? h)
  let entries := r.entries.toList
  let first := entries.take shown
  let counts := entries.foldl (fun (m : SortedMap String Nat) e =>
    m.insert e.host.address ((m.get? e.host.address).getD 0 + 1)) ∅
  let checksum := entries.zipIdx.foldl (fun acc (e, i) => acc + e.hash * (i + 1).toUInt64) 0
  .table [
    ("len", .nat r.size),
    ("empty", .bool r.isEmpty),
    ("min", .nat r.minPerHost),
    ("max", .nat r.maxPerHost),
    ("counts", .list (counts.entries.map fun (a, n) => .list [.text a, .nat n])),
    ("checksum", hash checksum),
    ("entries", .list (first.map fun e => .list [hash e.hash, .text e.host.address])),
    ("near", .list (first.map fun e =>
      .list [owner (e.hash - 1), owner e.hash, owner (e.hash + 1)])),
    ("lookups", .list (lookups.map owner))]

/-! ## Subsets -/

/-- A subset: its tuple, whether it is active, and its levels. -/
def subset (s : HostSubset) : Node :=
  .list [.text s.metadata.describe, .bool s.isActive,
    .list (s.set.levels.map fun l =>
      .list [addresses l.hosts, addresses l.healthy, addresses l.degraded,
        alignedWeights l.localityWeights])]

/-- All subsets of a trie. -/
def trie (t : Trie HostSubset) : Node :=
  let subsets := t.toList.mergeSort fun a b => (Tuple.order a.metadata b.metadata).isLE
  .list (subsets.map subset)

/-- The counts of an engine: its subsets, and how requests went. -/
def engine (e : SubsetEngine) (s : PickState) : Node :=
  let routes := s.routesOf e.view.engine
  .list [.integer e.activity.active, .nat e.activity.created, .nat e.activity.removed,
    .nat routes.selected, .nat routes.fallback, .nat routes.panicFallback]

end LoadBalancing.Report
