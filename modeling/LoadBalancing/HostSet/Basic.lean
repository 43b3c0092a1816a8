/-
The hosts of one priority level and what is derived from them (`HostSet`).

A host set keeps its hosts in order and, beside them, the partitions that load
balancers read: the healthy hosts, the degraded hosts, and the groupings by
locality of all three lists. The partitions are as of the last rebuild. A host's
health may move on without them; `refreshHealth` catches up. A membership change
rebuilds too, unless it changes nothing at all.
-/
import LoadBalancing.HostSet.ByLocality

set_option autoImplicit false

namespace LoadBalancing

/-- The hosts of one priority level (`HostSet`). -/
structure HostSet where
  /-- The level, 0 first. -/
  priority : Nat
  /-- How far healthy hosts may be loaded beyond their share, in percent. -/
  overprovisioning : Nat
  hosts : List Host
  healthy : List Host
  degraded : List Host
  byLocality : ByLocality
  healthyByLocality : ByLocality
  degradedByLocality : ByLocality
  /-- Weights as configured, for localities with or without hosts. -/
  configuredWeights : LocalityWeights
  /-- Weights aligned with `byLocality`; none when no weight is configured. -/
  localityWeights : Option (List Nat)
  deriving DecidableEq

namespace HostSet

/-- The level before any host comes. -/
def empty (priority overprovisioning : Nat) : HostSet where
  priority
  overprovisioning
  hosts := []
  healthy := []
  degraded := []
  byLocality := .empty
  healthyByLocality := .empty
  degradedByLocality := .empty
  configuredWeights := ∅
  localityWeights := none

/-- Whether the level has no hosts. -/
def isEmpty (s : HostSet) : Bool :=
  s.hosts.isEmpty

/-- The first host at `address`. -/
def find? (s : HostSet) (address : String) : Option Host :=
  s.hosts.find? fun h => h.address == address

/-! ## Derived parts -/

/-- Aligns the configured weights with the localities at hand; a locality without a configured
weight gets zero (`rebuild_locality_weights`). -/
def alignWeights (s : HostSet) : HostSet :=
  { s with
    localityWeights :=
      if s.configuredWeights.isEmpty then none
      else some (s.byLocality.localities.map fun l => (s.configuredWeights.get? l).getD 0) }

/-- Computes every partition anew from the hosts and their health now (`rebuild_partitions`). -/
def rebuild (s : HostSet) (t : HostTable) : HostSet :=
  let isHealthy := fun h => decide (t.health h = .healthy)
  let isDegraded := fun h => decide (t.health h = .degraded)
  -- the groups of each partition line up with those of all hosts, empty ones included
  let byLocality := ByLocality.ofHosts s.hosts
  alignWeights
    { s with
      healthy := s.hosts.filter isHealthy
      degraded := s.hosts.filter isDegraded
      byLocality
      healthyByLocality := byLocality.filter isHealthy
      degradedByLocality := byLocality.filter isDegraded }

/-- Catches up with health that changed since the last rebuild (`refresh_health`). -/
def refreshHealth (s : HostSet) (t : HostTable) : HostSet :=
  s.rebuild t

/-! ## Changes -/

/-- Whether `h` leaves a set when `added` come and `removed` go: an added host
takes the place of the one at its address. -/
def isDropped (added removed : List Host) (h : Host) : Bool :=
  (removed ++ added).any fun o => o.address == h.address

/-- The set after `removed` left and `added` came, at the end and in order (`HostSet::update`).
Removing an address that is not there has no effect; two empty lists leave everything as it is,
stale partitions included. -/
def update (s : HostSet) (t : HostTable) (added removed : List Host) : HostSet :=
  if added.isEmpty && removed.isEmpty then s
  else
    { s with hosts := s.hosts.filter (fun h => !isDropped added removed h) ++ added }.rebuild t

/-- A membership change leaves the level what it is. -/
@[simp] theorem priority_update (s : HostSet) (t : HostTable) (added removed : List Host) :
    (s.update t added removed).priority = s.priority := by
  unfold update
  split <;> rfl

/-- The set with other configured locality weights; the partitions stay. -/
def setLocalityWeights (s : HostSet) (weights : LocalityWeights) : HostSet :=
  { s with configuredWeights := weights }.alignWeights

@[simp] theorem priority_setLocalityWeights (s : HostSet) (weights : LocalityWeights) :
    (s.setLocalityWeights weights).priority = s.priority :=
  rfl

end HostSet

end LoadBalancing
