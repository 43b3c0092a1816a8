/-
Reports on clusters and fleets.
-/
import LoadBalancing.Fleet.Basic
import LoadBalancing.Report.Balancing
import LoadBalancing.Report.Checks

set_option autoImplicit false

namespace LoadBalancing.Report

open Document

/-- What a cluster is like, its hosts apart. `picks` is what its requests used up. -/
def cluster (c : Cluster) (picks : PickState) : Node :=
  .table [
    ("version", .nat c.snapshot.version),
    ("stats", .optional (engine · picks) c.balancing.engine?),
    ("sessions", .optional
      (fun k : Checker => .list [.nat k.checks.length, .nat k.sessions.size]) c.checker),
    ("configured_hosts", .list (c.config.hosts.map fun h =>
      .list [.text h.address, .nat h.weight]))]

/-- The clusters of a fleet with the versions of their snapshots, and its loops. -/
def fleet (f : Fleet) : List (String × Node) :=
  let versions := f.registry.entries.filterMap fun (name, loop) =>
    f.loops[loop]?.map fun l => .list [.text name, .nat l.cluster.snapshot.version]
  [("clusters", .list versions),
    ("len", .nat f.size),
    ("empty", .bool f.isEmpty),
    ("running", .nat f.running)]

end LoadBalancing.Report
