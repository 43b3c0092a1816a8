/-
From a list of hosts as it should be to the changes that make it so.

A host that stays at its priority, with its locality and its metadata, is kept: it
remains the same host, with its health and its requests, and at most its weight is
set. Any other host of the list is new, even if there is one at its address, and
the one that it replaces leaves in the same change. Hosts whose address is not in
the list leave as well. The changes are gathered by priority level, lowest first.
-/
import LoadBalancing.Config.Schema
import LoadBalancing.HostSet.PrioritySet

set_option autoImplicit false

namespace LoadBalancing

/-! ## Changes -/

/-- Hosts that come to one level, and hosts that leave it (`MembershipUpdate`). -/
structure LevelChange where
  priority : Nat
  added : List Host
  removed : List Host
  deriving DecidableEq

namespace LevelChange

/-- Whether nobody comes and nobody leaves. -/
def isEmpty (c : LevelChange) : Bool :=
  c.added.isEmpty && c.removed.isEmpty

/-- What discovery says about one level: some hosts come, and those at some addresses leave.
An added host takes the place of the one at its address. -/
def ofAddresses (s : PrioritySet) (priority : Nat) (added : List Host) (removed : List String) :
    LevelChange :=
  let leaving := match s.level? priority with
    | some l => (removed ++ added.map (·.address)).filterMap l.find?
    | none => []
  { priority, added, removed := leaving }

/-- The part of a list of placed hosts that is at one level. -/
def atLevel (priority : Nat) (hosts : List (Nat × Host)) : List Host :=
  (hosts.filter fun h => h.1 = priority).map (·.2)

/-- Gathers hosts that come and go by level. -/
def gather (added removed : List (Nat × Host)) : List LevelChange :=
  let levels := (SortedMap.ofList ((added ++ removed).map fun h => (h.1, ()))).keys
  levels.map fun p => { priority := p, added := atLevel p added, removed := atLevel p removed }

end LevelChange

/-- What turns one membership into another (`HostDiff`). -/
structure MembershipChange where
  /-- At most one for each level, lowest level first. -/
  levels : List LevelChange
  /-- The hosts that get another weight, and the weight. -/
  weights : List (Host × Nat)
  deriving DecidableEq

namespace MembershipChange

/-- Whether it leaves all hosts and weights as they are. -/
def isEmpty (c : MembershipChange) : Bool :=
  c.levels.all (·.isEmpty) && c.weights.isEmpty

end MembershipChange

/-! ## Hosts from configurations -/

namespace HostTable

/-- Takes in a configured host (`build_host`). -/
def enrollConfig (t : HostTable) (c : HostConfig) : Host × HostTable :=
  t.enroll c.address c.weight c.locality c.metadata

/-- Takes in configured hosts, in order. -/
def enrollAll (t : HostTable) : List HostConfig → List Host × HostTable
  | [] => ([], t)
  | c :: rest =>
    let (host, t) := t.enrollConfig c
    let (hosts, t) := t.enrollAll rest
    (host :: hosts, t)

end HostTable

namespace HostConfig

/-- Whether a host at some priority is the one that the configuration means (`same_identity`). -/
def isKept (c : HostConfig) (priority : Nat) (h : Host) : Bool :=
  priority = c.priority && decide (h.locality = c.locality) && decide (h.metadata = c.metadata)

/-- The host that the configuration keeps, if there is one. -/
def kept? (c : HostConfig) (current : PrioritySet) : Option Host :=
  match current.find? c.address with
  | some (priority, h) => if c.isKept priority h then some h else none
  | none => none

end HostConfig

/-! ## Comparing -/

namespace MembershipChange

/-- The hosts whose address no configuration has, with their priorities. -/
def unwanted (current : PrioritySet) (desired : List HostConfig) : List (Nat × Host) :=
  current.levels.flatMap fun l =>
    (l.hosts.filter fun h => !desired.any fun c => c.address == h.address).map
      fun h => (l.priority, h)

/-- What makes the hosts of `current` those of `desired` (`diff_hosts`). New hosts are taken into
the table. A host that is found at another priority, or with other metadata, leaves after those that
are not wanted at all. -/
def toReach (t : HostTable) (current : PrioritySet) (desired : List HostConfig) :
    MembershipChange × HostTable :=
  let arriving := desired.filter fun c => (c.kept? current).isNone
  let (arrived, after) := t.enrollAll arriving
  -- somebody else at the address of one who arrives has to go, at whatever level
  let replaced := arriving.filterMap fun c => current.find? c.address
  let weights := desired.filterMap fun c =>
    match c.kept? current with
    | some h => if t.weight h = max c.weight 1 then none else some (h, c.weight)
    | none => none
  ({ levels :=
      LevelChange.gather ((arriving.map (·.priority)).zip arrived)
        (unwanted current desired ++ replaced)
     weights },
    after)

end MembershipChange

/-! ## Locality weights -/

namespace LocalityWeights

/-- Configured locality weights by priority; the last one of a locality wins
(`locality_weights_by_priority`). -/
def byPriority (configs : List LocalityWeightConfig) : SortedMap Nat LocalityWeights :=
  configs.foldl
    (fun m c => m.insert c.priority (((m.get? c.priority).getD ∅).insert c.locality c.weight))
    ∅

end LocalityWeights

end LoadBalancing
