/-
Hosts grouped by locality (`HostsPerLocality`).

The localities of a grouping are those of the hosts it was made from, once each
and in increasing order, so that weights can be aligned with them. Filtering a
grouping keeps all its localities, with empty groups where nothing is left: the
groupings of the healthy and of the degraded hosts line up with that of all hosts.
-/
import LoadBalancing.Host.Basic

set_option autoImplicit false

namespace LoadBalancing

/-- Groups of hosts, each under its locality. -/
structure ByLocality where
  groups : List (Locality × List Host)
  deriving DecidableEq

namespace ByLocality

/-- No groups. -/
def empty : ByLocality := ⟨[]⟩

/-- The grouping of `hosts` (`HostsPerLocality::group`): each group keeps their order. -/
def ofHosts (hosts : List Host) : ByLocality :=
  let localities : SortedMap Locality Unit := .ofList (hosts.map fun h => (h.locality, ()))
  ⟨localities.keys.map fun l => (l, hosts.filter fun h => h.locality = l)⟩

/-- The same localities, each with the hosts that pass `keep` (`HostsPerLocality::filtered`). -/
def filter (g : ByLocality) (keep : Host → Bool) : ByLocality :=
  ⟨g.groups.map fun (l, hosts) => (l, hosts.filter keep)⟩

/-- The localities of the groups, in increasing order. -/
def localities (g : ByLocality) : List Locality :=
  g.groups.map (·.1)

/-- The groups alone, in the order of their localities. -/
def hosts (g : ByLocality) : List (List Host) :=
  g.groups.map (·.2)

/-- Whether no group holds a host. -/
def isEmpty (g : ByLocality) : Bool :=
  g.groups.all fun (_, hosts) => hosts.isEmpty

end ByLocality

end LoadBalancing
