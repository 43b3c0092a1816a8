/-
Subsets: the hosts of a cluster that match one tuple, with a balancer of their own.

A subset has the levels of its cluster, each with those of the cluster's hosts that
match. It does not keep the cluster's priority set; every change is told to it
together with the priority set as it stands after the change. Where the settings
ask for it, the locality weights of a level follow those of the cluster, as they
are or scaled to the part of each locality's hosts that the subset has.
-/
import LoadBalancing.Balancer.Strategy
import LoadBalancing.Subset.Membership
import LoadBalancing.Subset.Settings

set_option autoImplicit false

namespace LoadBalancing

/-- How the subsets of one engine are made. -/
structure SubsetPlan where
  settings : SubsetSettings
  strategy : Strategy
  numerics : Numerics

namespace ByLocality

/-- The number of hosts in a locality (`count_in_locality`). -/
def count (g : ByLocality) (l : Locality) : Nat :=
  ((g.groups.lookup l).getD []).length

end ByLocality

/-- The hosts of a cluster that match one tuple (`PrioritySubset`). -/
structure HostSubset where
  metadata : Tuple
  set : PrioritySet
  balancer : Balancer

namespace HostSubset

/-- Whether there is any host in the subset (`is_active`). -/
def isActive (s : HostSubset) : Bool :=
  !s.set.isEmpty

/-! ## Hosts -/

/-- Sets the locality weights of one level after those of the cluster (`apply_locality_weights`). -/
def weigh (plan : SubsetPlan) (whole : PrioritySet) (set : PrioritySet) (priority : Nat) :
    PrioritySet :=
  if !plan.settings.localityWeightAware then set
  else
    match whole.level? priority with
    | none => set
    | some whole =>
      if !plan.settings.scaleLocalityWeight then
        set.setLocalityWeights priority whole.configuredWeights
      else
        let set := set.ensureLevel priority
        -- the part of a locality is that of all its hosts, whatever their health
        let kept := ((set.level? priority).map (·.byLocality)).getD .empty
        set.setLocalityWeights priority (whole.configuredWeights.mapValues fun l w =>
          plan.numerics.scaleWeight w (kept.count l) (whole.byLocality.count l))

/-- Takes a membership change of the cluster: of the added hosts only those that match
come in, and removed hosts that are not there do not matter. -/
def updateSet (plan : SubsetPlan) (t : HostTable) (metadata : Tuple) (whole set : PrioritySet)
    (priority : Nat) (added removed : List Host) : PrioritySet :=
  let entering := added.filter fun h => h.matchesTuple plan.settings.listAsAny metadata
  weigh plan whole (set.updateHosts t priority entering removed) priority

/-- All hosts of the cluster that match, level by level. -/
def fullSet (plan : SubsetPlan) (t : HostTable) (metadata : Tuple) (whole : PrioritySet) :
    PrioritySet :=
  whole.levels.foldl
    (fun set l => updateSet plan t metadata whole set l.priority l.hosts [])
    (.empty whole.overprovisioning)

/-- Catches up with changes of health and of locality weights. -/
def refreshSet (plan : SubsetPlan) (t : HostTable) (whole set : PrioritySet) : PrioritySet :=
  let set := set.refreshHealth t
  (List.range set.levels.length).foldl (weigh plan whole) set

/-! ## Subsets with their balancers -/

/-- The subset with a balancer for its hosts as they stand. -/
def build (plan : SubsetPlan) (t : HostTable) (metadata : Tuple) (set : PrioritySet)
    (w : Workshop) : HostSubset × Workshop :=
  let (balancer, w) := plan.strategy.build plan.numerics t set w
  ({ metadata, set, balancer }, w)

/-- The subset of a tuple, from all hosts of the cluster (`PrioritySubset::new`). -/
def new (plan : SubsetPlan) (t : HostTable) (metadata : Tuple) (whole : PrioritySet)
    (w : Workshop) : HostSubset × Workshop :=
  build plan t metadata (fullSet plan t metadata whole) w

/-- Takes a membership change and builds the balancer anew (`PrioritySubset::update`). -/
def update (s : HostSubset) (plan : SubsetPlan) (t : HostTable) (whole : PrioritySet)
    (priority : Nat) (added removed : List Host) (w : Workshop) : HostSubset × Workshop :=
  build plan t s.metadata (updateSet plan t s.metadata whole s.set priority added removed) w

/-- Catches up and builds the balancer anew (`PrioritySubset::refresh`). -/
def refresh (s : HostSubset) (plan : SubsetPlan) (t : HostTable) (whole : PrioritySet)
    (w : Workshop) : HostSubset × Workshop :=
  build plan t s.metadata (refreshSet plan t whole s.set) w

/-- The host for a request among those of the subset. -/
def choose (s : HostSubset) (t : HostTable) (hash : Option UInt64) : Pick (Option Host) :=
  s.balancer.choose t hash

/-- The same, without a balancer being asked if there is no host. -/
def chooseIfActive (s : Option HostSubset) (t : HostTable) (hash : Option UInt64) :
    Pick (Option Host) :=
  match s with
  | some s => if s.isActive then s.choose t hash else pure none
  | none => pure none

end HostSubset

end LoadBalancing
