/-
Reports on hosts: what there is at the moment, as a document to look at.

Weight, health and requests are shown as they are now. The partitions of a level are
shown as they were last computed, because it is by them that requests are served.
-/
import LoadBalancing.Cluster.Membership
import LoadBalancing.Document.Node

set_option autoImplicit false

namespace LoadBalancing.Report

open Document

/-! ## Hosts -/

/-- A health by its name. -/
def health (h : Health) : Node :=
  .text h.name

/-- The checks that do not find a host healthy, by number. -/
def verdicts (t : HostTable) (h : Host) : Node :=
  .list ((List.range maxHealthChecks).filterMap fun i =>
    let v := t.verdict h i
    if v = .healthy then none else some (.list [.nat i, health v]))

/-- A host with all that changes about it. -/
def host (t : HostTable) (h : Host) : Node :=
  .table [
    ("address", .text h.address),
    ("weight", .nat (t.weight h)),
    ("locality", .text h.locality.describe),
    ("health", health (t.health h)),
    ("healthy", .bool (t.health h = .healthy)),
    ("checks", verdicts t h),
    ("active", .nat (t.active h)),
    ("total", .nat (t.total h)),
    ("traffic", .bool (t.hasTraffic h))]

/-- The addresses of hosts, in order. -/
def addresses (hosts : List Host) : Node :=
  .texts (hosts.map (·.address))

/-! ## Levels -/

/-- Configured weights, by locality. -/
def localityWeights (w : LocalityWeights) : Node :=
  .list (w.entries.map fun (l, n) => .list [.text l.describe, .nat n])

/-- Weights in the order of the localities they belong to, if there are any. -/
def alignedWeights (w : Option (List Nat)) : Node :=
  .optional (fun w => .list (w.map .nat)) w

/-- A level with its partitions. -/
def level (t : HostTable) (l : HostSet) : Node :=
  let groupings := [l.byLocality, l.healthyByLocality, l.degradedByLocality]
  .table [
    ("priority", .nat l.priority),
    ("hosts", .list (l.hosts.map fun h =>
      .list [.text h.address, .nat (t.weight h), health (t.health h)])),
    ("healthy", addresses l.healthy),
    ("degraded", addresses l.degraded),
    ("localities", .texts (l.byLocality.localities.map (·.describe))),
    ("by_locality", .list (groupings.map fun g => .list (g.hosts.map addresses))),
    ("empty_locality", .list (groupings.map fun g => .bool g.isEmpty)),
    ("weights", alignedWeights l.localityWeights),
    ("configured", localityWeights l.configuredWeights)]

/-- All levels, and what they have in common. -/
def prioritySet (t : HostTable) (s : PrioritySet) : Node :=
  .table [
    ("factor", .nat s.overprovisioning),
    ("empty", .bool s.isEmpty),
    ("count", .nat s.hosts.length),
    ("levels", .list (s.levels.map (level t)))]

/-! ## Changes -/

/-- Who comes and who leaves, level by level, and whose weight is set. -/
def membershipChange (c : MembershipChange) : Node :=
  .table [
    ("empty", .bool c.isEmpty),
    ("updates", .list (c.levels.map fun l =>
      .table [
        ("priority", .nat l.priority),
        ("added", addresses l.added),
        ("removed", addresses l.removed),
        ("empty", .bool l.isEmpty)])),
    ("weights", .list (c.weights.map fun (h, w) => .list [.text h.address, .nat w]))]

end LoadBalancing.Report
