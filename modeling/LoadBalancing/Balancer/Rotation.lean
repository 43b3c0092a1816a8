/-
Weighted round robin (`RoundRobinList`).

A host of weight `w` owns `w` consecutive slots of a rotation, in list order, and
turn `n` goes to slot `n` modulo the sum of all weights. Over one full rotation
every host is served exactly as often as it weighs. Weights are those at the time
the rotation was made.
-/
import LoadBalancing.Balancer.Pick
import LoadBalancing.Host.Basic

set_option autoImplicit false

namespace LoadBalancing

/-- Hosts with the end of their slots: the running sum of weights. -/
structure Rotation where
  slots : List (Host × Nat)
  /-- The number under which the turn of this rotation is kept. -/
  list : Nat

namespace Rotation

/-- Gives each host its slots, the first one's beginning at `start`. -/
def slotsFrom (t : HostTable) (start : Nat) : List Host → List (Host × Nat)
  | [] => []
  | h :: rest => (h, start + t.weight h) :: slotsFrom t (start + t.weight h) rest

/-- The rotation of some hosts, with their weights as they are now (`RoundRobinList::new`). -/
def ofHosts (t : HostTable) (list : Nat) (hosts : List Host) : Rotation :=
  ⟨slotsFrom t 0 hosts, list⟩

/-- The number of slots. -/
def size (r : Rotation) : Nat :=
  (r.slots.getLast?.map (·.2)).getD 0

/-- The host of a turn. -/
def atTurn? (r : Rotation) (turn : UInt64) : Option Host :=
  let slot := turn.toNat % r.size
  (r.slots.find? fun (_, last) => slot < last).map (·.1)

/-- The host whose turn it is (`RoundRobinList::next`). An empty rotation takes no turn. -/
def next (r : Rotation) : Pick (Option Host) :=
  if r.slots.isEmpty then pure none
  else return r.atTurn? (← Pick.takeTurn r.list)

end Rotation

end LoadBalancing
