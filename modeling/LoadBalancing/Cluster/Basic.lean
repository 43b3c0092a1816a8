/-
Clusters: a pool of hosts, its health checks, and what requests see of it (`Cluster`).

A cluster has one owner, who tells it about changes, one after the other. Requests
do not look at the cluster. They look at a snapshot, which is published whole and
never changes, so a request sees a membership and the balancer that was built for
it, and not one of them without the other. The live part of the hosts is shared:
health, weights and request counts are the same for all snapshots.

A change of configuration is all or nothing. Whatever may fail depends on the
configuration and on the transports at hand, and it is tried before anything is
changed. An overflow is no failure in this sense. It breaks off what is going on in
the middle, and there is no cluster after it.
-/
import LoadBalancing.Check.Checker
import LoadBalancing.Cluster.Balancing
import LoadBalancing.Cluster.Membership
import LoadBalancing.Config.Validation

set_option autoImplicit false

namespace LoadBalancing

/-! ## Snapshots -/

/-- What requests see of a cluster (`ClusterSnapshot`). -/
structure Snapshot where
  /-- Snapshots are numbered from 1; before the first one is number 0. -/
  version : Nat
  set : PrioritySet
  chooser : Chooser

namespace Snapshot

/-- Before anything is published. -/
def initial : Snapshot :=
  ⟨0, .empty PrioritySet.defaultOverprovisioning, .nobody⟩

end Snapshot

/-! ## Clusters -/

/-- A cluster as its owner sees it. -/
structure Cluster where
  name : String
  config : ClusterConfig
  /-- The live part of all hosts that the cluster ever had. -/
  hosts : HostTable
  set : PrioritySet
  balancing : Balancing
  /-- Without health checks there is no checker. -/
  checker : Option Checker
  /-- How often another checker, or none, took the place of the one there was. Every
  checker numbers its probes anew, so an answer is told by this number as well. -/
  checkerNumber : Nat
  /-- The kinds of probes that can be sent. -/
  transports : List ProbeKind
  numerics : Numerics
  /-- How many configurations came after the first one. -/
  generation : Nat
  snapshot : Snapshot

namespace Cluster

/-! ### Publishing -/

/-- Publishes the cluster as it stands (`Cluster::publish`). -/
def publish (c : Cluster) : Cluster :=
  let (chooser, balancing) := c.balancing.chooser c.hosts c.set
  { c with
    balancing
    snapshot := { version := c.snapshot.version + 1, set := c.set, chooser } }

/-- Catches up with changes of health and of weights, and publishes. -/
def refresh (c : Cluster) : Cluster :=
  let set := c.set.refreshHealth c.hosts
  publish { c with set, balancing := c.balancing.refresh c.hosts set }

/-- The host for a request, from the latest snapshot. -/
def choose (c : Cluster) (hash : Option UInt64) (criteria : Option Criteria) :
    Pick (Option Host) :=
  c.snapshot.chooser.choose c.hosts hash criteria

/-! ### Membership -/

/-- Tells the checker who leaves and then who comes. A host that moves between levels
leaves and comes in one change, and so ends with new sessions and not without any. -/
def informChecker (c : Cluster) (now : Nat) (levels : List LevelChange) : Cluster :=
  match c.checker with
  | none => c
  | some checker =>
    let checker := levels.foldl (fun k l => k.remove l.removed) checker
    let (checker, hosts) :=
      levels.foldl (fun (k, t) l => k.add t now l.added) (checker, c.hosts)
    { c with checker := some checker, hosts }

/-- Changes the hosts of one level. -/
def applyLevel (c : Cluster) (change : LevelChange) : Cluster :=
  if change.isEmpty then c
  else
    let set := c.set.updateHosts c.hosts change.priority change.added change.removed
    { c with set, balancing := c.balancing.update c.hosts set change }

/-- Sets weights; says whether any of them was another one before. -/
def setWeights (t : HostTable) (weights : List (Host × Nat)) : Bool × HostTable :=
  weights.foldl
    (fun (changed, t) (h, w) =>
      let (differs, t) := t.setWeight h w
      (changed || differs, t))
    (false, t)

/-- Carries out a membership change (`apply_diff`). -/
def applyChange (c : Cluster) (now : Nat) (change : MembershipChange) : Cluster :=
  let c := change.levels.foldl applyLevel (c.informChecker now change.levels)
  let (changed, hosts) := setWeights c.hosts change.weights
  let c := { c with hosts }
  if changed then { c with balancing := c.balancing.refresh c.hosts c.set } else c

/-- Makes some configured hosts the hosts of the cluster. -/
def reach (c : Cluster) (now : Nat) (desired : List HostConfig) : Cluster :=
  let (change, hosts) := MembershipChange.toReach c.hosts c.set desired
  applyChange { c with hosts } now change

/-- Discovery adds hosts to a level, and removes those at some addresses (`on_membership_change`).
An added host takes the place of the one at its address on the same level. -/
def changeMembership (c : Cluster) (now priority : Nat) (added : List Host)
    (removed : List String) : Cluster :=
  (c.applyChange now
    { levels := [.ofAddresses c.set priority added removed], weights := [] }).publish

/-- Replaces the configured hosts (`Cluster::set_hosts`). A list that changes nothing publishes
nothing. -/
def setHosts (c : Cluster) (now : Nat) (desired : List HostConfig) : Cluster :=
  let (change, hosts) := MembershipChange.toReach c.hosts c.set desired
  if change.isEmpty then c
  else
    let c := applyChange { c with hosts } now change
    publish { c with config := { c.config with hosts := desired } }

/-! ### Weights -/

/-- Sets the weight of the host at an address; says whether it was another one before
(`update_host_weight`). -/
def setHostWeight (c : Cluster) (address : String) (weight : Nat) : Bool × Cluster :=
  match c.set.find? address with
  | none => (false, c)
  | some (_, h) =>
    let (changed, hosts) := c.hosts.setWeight h weight
    let c := { c with hosts }
    (changed, if changed then c.refresh else c)

/-- Sets the locality weights of one level (`set_locality_weights`). -/
def setLocalityWeights (c : Cluster) (priority : Nat) (weights : LocalityWeights) : Cluster :=
  refresh { c with set := c.set.setLocalityWeights priority weights }

/-- How many levels the configured weights speak of. Priorities are numbers of 32 bits,
and so is this one, so there is none after the last priority. -/
def weightedLevels? (weights : SortedMap Nat LocalityWeights) : Option Nat :=
  match weights.keys.getLast? with
  | some highest => fitting? UInt32.size (highest + 1)
  | none => some 0

/-- Gives each of the first levels its weights, and none where none are given. A level that has
them already is left alone. -/
def weighLevels (s : PrioritySet) (weights : SortedMap Nat LocalityWeights) (levels : Nat) :
    PrioritySet :=
  (List.range levels).foldl
    (fun s priority =>
      let wanted := (weights.get? priority).getD ∅
      if (s.level? priority).map (·.configuredWeights) = some wanted then s
      else s.setLocalityWeights priority wanted)
    s

/-- Gives every level its configured locality weights (`apply_locality_weights`). Nothing is given
where the number of the levels overflows. -/
def applyLocalityWeights? (s : PrioritySet) (configs : List LocalityWeightConfig) :
    Option PrioritySet := do
  let weights := LocalityWeights.byPriority configs
  let weighted ← weightedLevels? weights
  pure (weighLevels s weights (max s.levels.length weighted))

/-! ### Health -/

/-- Takes note of verdicts that changed (`on_health_transitions`). Nothing is published unless the
health of some host changed with them. -/
def noteTransitions (c : Cluster) (transitions : List Transition) : Cluster :=
  if transitions.any (·.aggregateChanged) then c.refresh else c

/-- Does what is due at `now`. Returns the probes to start. -/
def fireDue (c : Cluster) (now : Nat) (jitter : Jitter) :
    Except Overflow (Cluster × List ProbeRequest) :=
  match c.checker with
  | none => .ok (c, [])
  | some checker => do
    let fired ← checker.fireDue c.hosts now jitter
    let c := { c with checker := some fired.checker, hosts := fired.hosts }
    pure (c.noteTransitions fired.transitions, fired.probes)

/-- The result of a probe came in that checker number `asker` started. Nobody waits for
it once that checker was replaced. -/
def deliver (c : Cluster) (now : Nat) (jitter : Jitter) (asker : Nat) (key : SessionKey)
    (probe : Nat) (result : Except ProbeError ProbeAnswer) : Except Overflow Cluster :=
  if asker ≠ c.checkerNumber then .ok c
  else
    match c.checker with
    | none => .ok c
    | some checker => do
      let (checker, hosts, transition) ← checker.deliver c.hosts now jitter key probe result
      let c := { c with checker := some checker, hosts }
      pure (c.noteTransitions transition.toList)

/-- Ends all health checks. -/
def stopChecks (c : Cluster) : Cluster :=
  { c with checker := c.checker.map (·.shutdown) }

/-! ### Configuration -/

/-- The checker of a configuration; none if it has no checks (`build_health_checker`). -/
def buildChecker (config : ClusterConfig) (transports : List ProbeKind) :
    Except ConfigError (Option Checker) :=
  if config.checks.isEmpty then .ok none
  else (Checker.new config.checks transports).map some

/-- The levels of a configuration, before any host comes. -/
def openingSet? (config : ClusterConfig) : Option PrioritySet :=
  applyLocalityWeights? (.empty config.common.overprovisioning) config.localityWeights

/-- What a new cluster is made of, apart from its levels: its checker and its balancing. -/
def equip (config : ClusterConfig) (transports : List ProbeKind) (numerics : Numerics) :
    Except ConfigError (Option Checker × Balancing) := do
  config.validate
  let checker ← buildChecker config transports
  let balancing ←
    Balancing.build config numerics 0 .empty (.empty config.common.overprovisioning) .new
  pure (checker, balancing)

/-- The cluster of a configuration, with its hosts, published for the first time
(`Cluster::new`). -/
def new (config : ClusterConfig) (transports : List ProbeKind) (numerics : Numerics)
    (now : Nat) : Except Overflow (Except ConfigError Cluster) :=
  match equip config transports numerics with
  | .error e => .ok (.error e)
  | .ok (checker, balancing) =>
    -- the levels are counted with the first weights, and the count may be more than a word holds
    match openingSet? config with
    | none => .error ⟨.empty⟩
    | some set =>
      let c : Cluster :=
        { name := config.name
          config
          hosts := .empty
          set
          balancing
          checker
          checkerNumber := 0
          transports
          numerics
          generation := 0
          snapshot := .initial }
      .ok (.ok (c.reach now config.hosts).publish)

/-- Number of checks that a checker has, none counting as none. -/
def checkCount (checker : Option Checker) : Nat :=
  match checker with
  | some checker => checker.checks.length
  | none => 0

/-- Forgets what the checks numbered from `first` up to `last` said about some hosts. -/
def clearVerdicts (t : HostTable) (hosts : List Host) (first last : Nat) : HostTable :=
  hosts.foldl
    (fun t h =>
      (List.range' first (last - first)).foldl (fun t i => (t.setVerdict h i .healthy).2) t)
    t

/-- Puts another checker in place of the one there is, whose probes are given up. The hosts
keep the verdicts of the checks that the new one has, and lose those of any others. -/
def replaceChecker (c : Cluster) (now : Nat) (checker : Option Checker) : Cluster :=
  let all := c.set.hosts
  let hosts := clearVerdicts c.hosts all (checkCount checker) (checkCount c.checker)
  let c := { c with checkerNumber := c.checkerNumber + 1 }
  match checker with
  | none => { c with checker := none, hosts }
  | some checker =>
    let (checker, hosts) := checker.adopt hosts now all
    { c with checker := some checker, hosts }

/-- Copies the hosts and the configured weights of a level. -/
def copyLevel (t : HostTable) (s : PrioritySet) (l : HostSet) : PrioritySet :=
  (s.updateHosts t l.priority l.hosts []).setLocalityWeights l.priority l.configuredWeights

/-- The priority set with another factor (`rebuild_priority_set`): the same hosts and configured
weights, and partitions by health as it is now. -/
def withOverprovisioning (t : HostTable) (s : PrioritySet) (factor : Nat) : PrioritySet :=
  s.levels.foldl (copyLevel t) (.empty factor)

/-- The cluster with the factor and the locality weights of a configuration. -/
def adoptWeights? (c : Cluster) (config : ClusterConfig) : Option Cluster := do
  let factor := config.common.overprovisioning
  let set :=
    if factor = c.set.overprovisioning then c.set else withOverprovisioning c.hosts c.set factor
  let set ← applyLocalityWeights? set config.localityWeights
  pure { c with set }

/-- Brings the membership in line with a configuration, whose weights are there already. -/
def adoptHosts (c : Cluster) (now : Nat) (config : ClusterConfig) : Cluster :=
  let c := c.reach now config.hosts
  { c with set := c.set.refreshHealth c.hosts }

/-- Puts a checker in place, if there is a new one. -/
def adoptChecker (c : Cluster) (now : Nat) : Option (Option Checker) → Cluster
  | some checker => c.replaceChecker now checker
  | none => c

/-- Builds the balancing of a configuration for the hosts as they stand. Its turns and
figures start anew. -/
def buildBalancing (c : Cluster) (config : ClusterConfig) : Except ConfigError Balancing :=
  Balancing.build config c.numerics (c.generation + 1) c.hosts c.set c.balancing.workshop.fresh

/-- What has to go well before a configuration may change anything: the configuration is
valid, its checks can run, and its balancing can be built. Gives the new checker, if the
checks differ from those there are. -/
def prepare (c : Cluster) (config : ClusterConfig) :
    Except ConfigError (Option (Option Checker)) := do
  config.validate
  let checker ←
    if config.checks = c.config.checks then pure none
    else (buildChecker config c.transports).map some
  let _ ← c.buildBalancing config
  pure checker

/-- Replaces the configuration (`Cluster::apply_config`). Where it cannot be taken, the error says
why. The levels are counted when the checks are already the new ones, so an overflow comes after
verdicts were cleared. -/
def applyConfig (c : Cluster) (now : Nat) (config : ClusterConfig) :
    Except Overflow (Except ConfigError Unit × Cluster) :=
  match c.prepare config with
  | .error e => .ok (.error e, c)
  | .ok checker =>
    let c := c.adoptChecker now checker
    match c.adoptWeights? config with
    | none => .error ⟨c.hosts⟩
    | some c =>
      let c := c.adoptHosts now config
      -- built for the hosts as they are by now; it was tried before, so it does not fail
      match c.buildBalancing config with
      | .error e => .ok (.error e, c)
      | .ok balancing =>
        .ok (.ok (), publish { c with config, balancing, generation := c.generation + 1 })

end Cluster

/-! ## Messages -/

/-- What the owner of a cluster can be told (`ClusterUpdate`). -/
inductive ClusterUpdate where
  /-- Discovery adds hosts to a level, and removes those at some addresses. -/
  | membership (priority : Nat) (added : List HostConfig) (removed : List String)
  /-- These are the hosts from now on. -/
  | hosts (desired : List HostConfig)
  /-- This is the configuration from now on. -/
  | config (config : ClusterConfig)
  /-- No more messages are handled. -/
  | stop

namespace Cluster

/-- Handles a message (`handle_update`). A configuration that cannot be taken leaves the old one in
place. -/
def handle (c : Cluster) (now : Nat) : ClusterUpdate → Except Overflow Cluster
  | .membership priority added removed =>
    let (added, hosts) := c.hosts.enrollAll added
    .ok (changeMembership { c with hosts } now priority added removed)
  | .hosts desired => .ok (c.setHosts now desired)
  | .config config => (c.applyConfig now config).map (·.2)
  | .stop => .ok c

end Cluster

end LoadBalancing
