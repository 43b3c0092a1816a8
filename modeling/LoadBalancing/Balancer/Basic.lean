/-
Balancers: one host for one request (`LoadBalancer`).

A balancer is built from a priority set as it stands and does not change. It
first routes the request to a level and partition by its hash, then picks a host
there by its policy: the next in a weighted rotation, the least busy of a few
random ones, a random one, or the owner of the request's hash on a ring. No host
is a normal answer; it means that the partition is empty.
-/
import LoadBalancing.Balancer.Rotation
import LoadBalancing.Priority.Table
import LoadBalancing.Ring.Basic

set_option autoImplicit false

namespace LoadBalancing

/-! ## Policies -/

/-- How a host is picked within a partition (`LoadBalancerType`). -/
inductive Policy where
  | roundRobin
  | leastRequest (choices : Nat)
  | random
  | ringHash (settings : RingSettings)
  deriving DecidableEq, Repr

/-- Why a policy cannot be used. -/
inductive PolicyProblem where
  | ring (problem : RingProblem)
  | tooFewChoices
  deriving DecidableEq, Repr

namespace Policy

/-- The least number of hosts that a least-request pick must compare
(`LeastRequestConfig::choice_count`). -/
def leastChoices : Nat := 2

/-- What is wrong with the settings of the policy, if anything is. Settings of
policies that are not in use do not matter. -/
def problem? : Policy → Option PolicyProblem
  | .leastRequest choices => if choices < leastChoices then some .tooFewChoices else none
  | .ringHash settings => settings.problem?.map .ring
  | _ => none

end Policy

namespace PolicyProblem

/-- The problem in words. -/
def message : PolicyProblem → String
  | .ring problem => problem.message
  | .tooFewChoices => "load balancer: least_request.choice_count must be at least 2"

end PolicyProblem

/-! ## Least requests -/

/-- The item with the least key, the first of several. -/
def firstLeast {β : Type} (key : β → Nat) : List β → Option β
  | [] => none
  | x :: rest =>
    some (rest.foldl (fun best y => if key y < key best then y else best) x)

/-- The hosts of `count` random draws, in the order drawn. -/
def Pick.hosts (hosts : List Host) : Nat → Pick (List Host)
  | 0 => pure []
  | count + 1 => do
    let first ← Pick.uniform hosts
    let rest ← Pick.hosts hosts count
    pure (first.toList ++ rest)

/-- The least busy of `choices` random hosts (`pick_least_requests`). A single
host needs no draw. -/
def Pick.leastRequest (t : HostTable) (hosts : List Host) (choices : Nat) : Pick (Option Host) :=
  match hosts with
  | [] => pure none
  | [h] => pure (some h)
  | _ => return firstLeast t.active (← Pick.hosts hosts choices)

/-! ## Balancers -/

/-- A balancer of one policy over one state of a priority set (`RoundRobinLoadBalancer`,
`LeastRequestLoadBalancer`, `RandomLoadBalancer`, `RingHashLoadBalancer`). -/
inductive Balancer where
  | roundRobin (table : PriorityTable Rotation)
  | leastRequest (table : PriorityTable (List Host)) (choices : Nat)
  | random (table : PriorityTable (List Host))
  | ringHash (table : PriorityTable Ring)

namespace Balancer

/-- Builds the balancer of a policy (`LoadBalancerFactory::create`). `inPanic` says which host sets
have too few available hosts, `ringOf` builds the ring of a partition, and rotations are numbered
from `firstList` on. -/
def build (policy : Policy) (inPanic : HostSet → Bool)
    (ringOf : RingSettings → HostTable → HostSet → Partition → Ring)
    (t : HostTable) (s : PrioritySet) (firstList : Nat) : Balancer :=
  match policy with
  | .roundRobin =>
    .roundRobin (.build s inPanic fun place l p => .ofHosts t (firstList + place) (l.partition p))
  | .leastRequest choices =>
    .leastRequest (.build s inPanic fun _ l p => l.partition p) (max choices 1)
  | .random => .random (.build s inPanic fun _ l p => l.partition p)
  | .ringHash settings => .ringHash (.build s inPanic fun _ l p => ringOf settings t l p)

/-- The rings that a balancer was built with, level by level. -/
def rings : Balancer → List Ring
  | .ringHash table => table.pieces
  | _ => []

/-- The host for a request (`LoadBalancer::choose_host`). -/
def choose (b : Balancer) (t : HostTable) (hash : Option UInt64) : Pick (Option Host) := do
  let h ← Pick.routingHash hash
  match b with
  | .roundRobin table =>
    match table.pick? h with
    | some rotation => rotation.next
    | none => pure none
  | .leastRequest table choices =>
    match table.pick? h with
    | some hosts => Pick.leastRequest t hosts choices
    | none => pure none
  | .random table =>
    match table.pick? h with
    | some hosts => Pick.uniform hosts
    | none => pure none
  | .ringHash table => pure ((table.pick? h).bind fun ring => ring.owner? h)

end Balancer

end LoadBalancing
