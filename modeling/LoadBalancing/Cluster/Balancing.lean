/-
How a cluster balances: as a whole, or by subsets (`ClusterLoadBalancer`).

A cluster without subsets has one balancer for all its hosts, and it is built anew
for every snapshot. A cluster with subsets has an engine that is told about every
change and of which each snapshot shows the present state. Either comes from the
configuration alone; the hosts at hand have no say in whether it can be built.
-/
import LoadBalancing.Cluster.Membership
import LoadBalancing.Config.Error
import LoadBalancing.Config.Schema
import LoadBalancing.Subset.Engine

set_option autoImplicit false

namespace LoadBalancing

/-- The policy of a configuration with the settings that go with it
(`LoadBalancerType::from_config`). -/
def Policy.ofConfig (c : ClusterConfig) : Policy :=
  match c.policy with
  | .roundRobin => .roundRobin
  | .leastRequest => .leastRequest c.choices
  | .random => .random
  | .ringHash => .ringHash c.ring

/-! ## What requests see -/

/-- What picks the hosts for requests. -/
inductive Chooser where
  /-- There are no hosts yet. -/
  | nobody
  | whole (balancer : Balancer)
  | subsets (view : SubsetView)

namespace Chooser

/-- The host for a request. Only subsets look at its criteria. -/
def choose (c : Chooser) (t : HostTable) (hash : Option UInt64) (criteria : Option Criteria) :
    Pick (Option Host) :=
  match c with
  | .nobody => pure none
  | .whole balancer => balancer.choose t hash
  | .subsets view => view.choose t hash criteria

end Chooser

/-! ## What a cluster keeps -/

/-- How a cluster makes its choosers (`ClusterLoadBalancer`). -/
inductive Balancing where
  | whole (strategy : Strategy) (numerics : Numerics) (workshop : Workshop)
  | subsets (engine : SubsetEngine)

namespace Balancing

/-- Builds what a configuration asks for (`ClusterLoadBalancer::build`). Subsets are made for the
hosts at hand and counted under the number `engine`. -/
def build (config : ClusterConfig) (numerics : Numerics) (engine : Nat) (t : HostTable)
    (s : PrioritySet) (w : Workshop) : Except ConfigError Balancing := do
  let strategy ← (Strategy.new (.ofConfig config) config.common.panicThreshold).mapError
    ConfigError.ofPolicy
  match config.subset with
  | none => pure (.whole strategy numerics w)
  | some c =>
    let settings ← (SubsetSettings.ofConfig c).mapError .subset
    pure (.subsets (.new { settings, strategy, numerics } engine t s w))

/-- What runs on from one build to the next, wherever it is kept. -/
def workshop : Balancing → Workshop
  | .whole _ _ w => w
  | .subsets engine => engine.workshop

/-- The engine, if there are subsets. -/
def engine? : Balancing → Option SubsetEngine
  | .whole _ _ _ => none
  | .subsets engine => some engine

/-- Takes a membership change that the priority set already shows (`on_membership`). -/
def update (b : Balancing) (t : HostTable) (s : PrioritySet) (change : LevelChange) : Balancing :=
  match b with
  | .whole .. => b
  | .subsets engine => .subsets (engine.update t s change.priority change.added change.removed)

/-- Catches up with changes of health and of weights (`on_refresh`). -/
def refresh (b : Balancing) (t : HostTable) (s : PrioritySet) : Balancing :=
  match b with
  | .whole .. => b
  | .subsets engine => .subsets (engine.refresh t s)

/-- The chooser for the hosts as they stand (`snapshot`). -/
def chooser (b : Balancing) (t : HostTable) (s : PrioritySet) : Chooser × Balancing :=
  match b with
  | .whole strategy numerics w =>
    let (balancer, w) := strategy.build numerics t s w
    (.whole balancer, .whole strategy numerics w)
  | .subsets engine => (.subsets engine.view, b)

/-! ### What becomes of the engine -/

theorem engine?_eq_some {b : Balancing} {e : SubsetEngine} :
    b.engine? = some e ↔ b = .subsets e := by
  cases b <;> simp [engine?]

theorem engine?_update (b : Balancing) (t : HostTable) (s : PrioritySet) (change : LevelChange) :
    (b.update t s change).engine? = b.engine?.map fun e =>
      e.update t s change.priority change.added change.removed := by
  cases b <;> rfl

theorem engine?_refresh (b : Balancing) (t : HostTable) (s : PrioritySet) :
    (b.refresh t s).engine? = b.engine?.map fun e => e.refresh t s := by
  cases b <;> rfl

/-- Making a chooser leaves the engine as it is. -/
theorem engine?_chooser (b : Balancing) (t : HostTable) (s : PrioritySet) :
    (b.chooser t s).2.engine? = b.engine? := by
  cases b <;> rfl

end Balancing

end LoadBalancing
