/-
How traffic spreads over priority levels, and which levels panic.

Each level can take a share that follows from how many of its hosts are healthy:
the overprovisioning factor times the healthy part, at most everything. The same
goes for its degraded hosts. Traffic fills the healthy shares first, level 0
first, then the degraded shares. When all levels together cannot take everything,
shares are scaled up, and a level panics when too few of its hosts are available:
it is then served from all its hosts. A level does not panic while the levels
together can take all traffic, because spilling over is better than panic.
-/
import LoadBalancing.HostSet.PrioritySet
import LoadBalancing.Numerics

set_option autoImplicit false

namespace LoadBalancing

/-! ## Partitions of a host set -/

/-- Which hosts of a level a request is routed to (`HostAvailability`). -/
inductive Availability where
  | healthy
  | degraded
  deriving DecidableEq, Repr

/-- The part of a host set that a balancer draws from (`HostsSource`). -/
inductive Partition where
  | all
  | healthy
  | degraded
  deriving DecidableEq, Repr

namespace HostSet

/-- The hosts of a level that are in one of its parts. -/
def partition (s : HostSet) : Partition → List Host
  | .all => s.hosts
  | .healthy => s.healthy
  | .degraded => s.degraded

/-- The same hosts, grouped by locality. -/
def partitionByLocality (s : HostSet) : Partition → ByLocality
  | .all => s.byLocality
  | .healthy => s.healthyByLocality
  | .degraded => s.degradedByLocality

/-- Whether fewer than `threshold` percent of the hosts are healthy or degraded
(`is_host_set_in_panic`). A set without hosts counts as zero percent. -/
def inPanic {α : Type} [Quantity α] (threshold : α) (s : HostSet) : Bool :=
  let available := s.healthy.length + s.degraded.length
  let percent : α :=
    if s.hosts.isEmpty then Quantity.ofNat 0
    else Quantity.ofNat 100 * Quantity.ofNat available / Quantity.ofNat s.hosts.length
  Quantity.less percent threshold

/-- The share of all traffic, in percent, that `part` hosts of this level can take. -/
def capacity (s : HostSet) (part : List Host) : Nat :=
  if s.hosts.isEmpty then 0 else min 100 (s.overprovisioning * part.length / s.hosts.length)

end HostSet

/-! ## The load table -/

/-- Percentages of traffic per level; both lists together sum to 100 (`PriorityLoad`). -/
structure PriorityLoad where
  healthy : List Nat
  degraded : List Nat
  deriving DecidableEq, Repr

namespace PriorityLoad

/-- Hands out `remaining` percent: each level gets its capacity scaled by the
total, as long as something remains. Returns the shares and what is left. -/
def spread (total remaining : Nat) : List Nat → List Nat × Nat
  | [] => ([], remaining)
  | c :: cs =>
    let share := min remaining (c * 100 / total)
    let (shares, left) := spread total (remaining - share) cs
    (share :: shares, left)

/-- Adds `extra` to the first share that is not zero, if there is one. -/
def topUp (extra : Nat) : List Nat → Option (List Nat)
  | [] => none
  | s :: rest => if 0 < s then some ((s + extra) :: rest) else (topUp extra rest).map (s :: ·)

/-- All traffic on one of `levels` levels. -/
def allOn (levels target : Nat) : PriorityLoad where
  healthy := (List.range levels).map fun i => if i = target then 100 else 0
  degraded := List.replicate levels 0

/-- The load table for given capacities: shares in order, and what rounding left
over goes to the first level that receives traffic. -/
def ofCapacities (total : Nat) (healthy degraded : List Nat) : PriorityLoad :=
  let (h, left) := spread total 100 healthy
  let (d, left) := spread total left degraded
  match topUp left h with
  | some h => ⟨h, d⟩
  | none =>
    match topUp left d with
    | some d => ⟨h, d⟩
    | none => ⟨h.modify 0 (· + left), d⟩

/-- The first position where the running total of `loads`, from `acc` on, reaches
`point`. -/
def reach (point acc : Nat) : List Nat → Option Nat
  | [] => none
  | l :: rest => if point ≤ acc + l then some 0 else (reach point (acc + l) rest).map (· + 1)

end PriorityLoad

/-! ## The state of all levels -/

/-- Where traffic goes and which levels panic (`PriorityState`). -/
structure PriorityState where
  load : PriorityLoad
  panic : List Bool
  deriving DecidableEq, Repr

namespace PriorityState

-- Sums of loads begin with the numeral 0, whatever other zeros are in scope.
local instance (priority := high) : Zero Nat := Zero.ofOfNat0

/-- The capacities of all levels for one of their partitions; a set without levels
counts as one empty level. -/
def capacities (s : PrioritySet) (part : HostSet → List Host) : List Nat :=
  if s.levels.isEmpty then [0] else s.levels.map fun l => l.capacity (part l)

/-- The state of `s` as its partitions stand (`PriorityState::compute`). `inPanic` says which host
sets have too few available hosts. -/
def compute (s : PrioritySet) (inPanic : HostSet → Bool) : PriorityState :=
  let healthy := capacities s (·.healthy)
  let degraded := capacities s (·.degraded)
  let total := min 100 (healthy.sum + degraded.sum)
  if total = 0 then
    -- Nothing is available: everything panics and the first level with hosts takes all.
    let target := (s.levels.findIdx? fun l => !l.isEmpty).getD 0
    ⟨.allOn healthy.length target, List.replicate healthy.length true⟩
  else
    ⟨.ofCapacities total healthy degraded,
      s.levels.map fun l => decide (total < 100) && inPanic l⟩

/-- Whether the level is served from all its hosts; levels that do not exist are. -/
def isPanic (s : PriorityState) (priority : Nat) : Bool :=
  s.panic.getD priority true

/-- The level and partition for a request hash (`PriorityState::choose_priority`): its last two
decimal digits walk the healthy loads first, then the degraded ones. -/
def choose (s : PriorityState) (hash : UInt64) : Nat × Availability :=
  let point := hash.toNat % 100 + 1
  match PriorityLoad.reach point 0 s.load.healthy with
  | some i => (i, .healthy)
  | none =>
    match PriorityLoad.reach point (s.load.healthy.sum) s.load.degraded with
    | some i => (i, .degraded)
    | none => (0, .healthy)

end PriorityState

end LoadBalancing
