/-
Hosts: what never changes about them, and the live part that does.

A host is known by more than its address: when discovery replaces a host, the
new one may have the old one's address and is still another host, with its own
health and its own request counts. So every host carries a number of its own,
and host sets, rings, subsets and sessions hold the host as an immutable record.
What changes over time is kept apart, in one table indexed by these numbers, so
that everyone who holds a host sees the same health and the same weight.
-/
import LoadBalancing.Host.Health
import LoadBalancing.Metadata.Criteria

set_option autoImplicit false

namespace LoadBalancing

/-! ## Localities -/

/-- Where a host runs (`Locality`). -/
structure Locality where
  region : String
  zone : String
  subZone : String
  deriving DecidableEq, Inhabited

namespace Locality

/-- Localities compare by region, then zone, then sub-zone. -/
def order : Locality → Locality → Ordering :=
  compareLex (compareOn region) (compareLex (compareOn zone) (compareOn subZone))

instance : Ord Locality := ⟨order⟩

instance : Std.TransOrd Locality :=
  inferInstanceAs (Std.TransCmp
    (compareLex (compareOn region) (compareLex (compareOn zone) (compareOn subZone))))

/-- The text of a locality: its three parts between slashes. -/
def describe (l : Locality) : String :=
  l.region ++ "/" ++ l.zone ++ "/" ++ l.subZone

end Locality

/-- Locality weights as discovery configures them. -/
abbrev LocalityWeights := SortedMap Locality Nat

/-! ## Hosts -/

/-- What never changes about a host (`Host`). -/
structure Host where
  /-- The number of the host in its table. -/
  id : Nat
  /-- Where requests are sent. Discovery tells hosts apart by it; a level whose
  configuration repeats an address holds two hosts with the same one. -/
  address : String
  locality : Locality
  metadata : Metadata
  deriving DecidableEq

/-- What changes about a host. -/
structure HostState where
  /-- Share of the load, relative to other hosts. -/
  weight : Nat
  flags : Flags
  /-- Requests that run now. -/
  active : Nat
  /-- Requests ever sent to the host. -/
  total : Nat
  /-- Every host takes some part of the load. -/
  one_le_weight : 1 ≤ weight
  deriving DecidableEq

namespace HostState

/-- A new host is healthy and has served nothing; a weight of zero is raised to one
(`Host::new`). -/
def new (weight : Nat) : HostState where
  weight := max weight 1
  flags := .clear
  active := 0
  total := 0
  one_le_weight := by omega

instance : Inhabited HostState := ⟨new 1⟩

end HostState

/-- The live part of all hosts, indexed by their numbers. -/
structure HostTable where
  states : Array HostState
  deriving DecidableEq

namespace HostTable

/-- A table without hosts. -/
def empty : HostTable := ⟨#[]⟩

instance : Inhabited HostTable := ⟨empty⟩

/-- The live part of `h`. -/
def state (t : HostTable) (h : Host) : HostState :=
  t.states.getD h.id default

/-- The weight of `h` as it is now. -/
def weight (t : HostTable) (h : Host) : Nat :=
  (t.state h).weight

theorem weight_pos (t : HostTable) (h : Host) : 0 < t.weight h :=
  (t.state h).one_le_weight

/-- The aggregate health of `h`. -/
def health (t : HostTable) (h : Host) : Health :=
  (t.state h).flags.health

/-- What check `i` last said about `h` (`check_state`). -/
def verdict (t : HostTable) (h : Host) (i : Nat) : Health :=
  (t.state h).flags.verdict i

/-- How many requests `h` is serving. -/
def active (t : HostTable) (h : Host) : Nat :=
  (t.state h).active

/-- How many requests were ever sent to `h`. -/
def total (t : HostTable) (h : Host) : Nat :=
  (t.state h).total

/-- Whether any request was ever sent to `h` (`has_traffic`). -/
def hasTraffic (t : HostTable) (h : Host) : Bool :=
  0 < t.total h

/-- The table with the live part of `h` changed by `f`, all others as they were. -/
def modify (t : HostTable) (h : Host) (f : HostState → HostState) : HostTable :=
  ⟨t.states.modify h.id f⟩

/-- Takes in a new host under the next free number. -/
def enroll (t : HostTable) (address : String) (weight : Nat) (locality : Locality)
    (metadata : Metadata) : Host × HostTable :=
  ({ id := t.states.size, address, locality, metadata }, ⟨t.states.push (.new weight)⟩)

/-! ## Changes

Each change reports whether it changed what others look at: the aggregate health,
or the weight. -/

/-- Records what check `i` says about `h`; true when the aggregate health changed
(`set_check_state`). -/
def setVerdict (t : HostTable) (h : Host) (i : Nat) (v : Health) : Bool × HostTable :=
  let after := t.modify h fun s => { s with flags := s.flags.setVerdict i v }
  (t.health h ≠ after.health h, after)

/-- Gives `h` a health from outside; true when the aggregate health changed (`Host::set_health`). -/
def setHealth (t : HostTable) (h : Host) (v : Health) : Bool × HostTable :=
  let after := t.modify h fun s => { s with flags := .ofHealth v }
  (t.health h ≠ after.health h, after)

/-- Gives `h` a weight, zero counting as one; true when it changed (`Host::set_weight`). -/
def setWeight (t : HostTable) (h : Host) (weight : Nat) : Bool × HostTable :=
  let after := t.modify h fun s => { s with weight := max weight 1, one_le_weight := by omega }
  (t.weight h ≠ after.weight h, after)

/-- A request goes to `h` (`start_request`). -/
def startRequest (t : HostTable) (h : Host) : HostTable :=
  t.modify h fun s => { s with active := s.active + 1, total := s.total + 1 }

/-- A request to `h` is over. -/
def endRequest (t : HostTable) (h : Host) : HostTable :=
  t.modify h fun s => { s with active := s.active - 1 }

end HostTable

end LoadBalancing
