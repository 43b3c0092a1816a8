/-
The subset engine: requests are served by hosts that have the metadata they ask for.

Beside the subset of all hosts and the default subsets, the engine keeps a trie
with one subset for every tuple that some host ever had under one of the key sets.
A membership change reaches exactly the subsets of the tuples that the hosts of the
change have; a subset that has no host any more stays, inactive, and comes back
with its next host. The counts say how often subsets became active and inactive.

A request walks the selectors in order. It asks for the tuple of its own criteria
that has the selector's keys; if that subset has no host for it, the fallback of
the selector decides, and then the next selector. After all selectors come the
fallback of the cluster and, if the settings allow it, any host.
-/
import LoadBalancing.Subset.HostSubset
import LoadBalancing.Subset.Trie

set_option autoImplicit false

namespace LoadBalancing

/-! ## What requests see -/

/-- All subsets as they stand at some time; what is published for requests (`SubsetSnapshot`). -/
structure SubsetView where
  /-- The number under which picks are counted. -/
  engine : Nat
  settings : SubsetSettings
  /-- The subset of all hosts. -/
  any : HostSubset
  defaults : List HostSubset
  root : Trie HostSubset

namespace SubsetView

/-- The default subset of some metadata. -/
def default? (v : SubsetView) (metadata : Tuple) : Option HostSubset :=
  v.defaults.find? fun s => s.metadata = metadata

/-- A host from the subset of a tuple in the trie (`choose_from_trie`). -/
def chooseFromTrie (v : SubsetView) (t : HostTable) (hash : Option UInt64) (tuple : Tuple) :
    Pick (Option Host) :=
  HostSubset.chooseIfActive (v.root.get? tuple) t hash

/-- A host by the fallback of a selector (`choose_for_selectors`). -/
def chooseByFallback (v : SubsetView) (t : HostTable) (hash : Option UInt64) (criteria : Criteria) :
    SelectorFallback → Pick (Option Host)
  | .none => pure none
  | .anyHost => v.any.choose t hash
  | .defaultSubset metadata => HostSubset.chooseIfActive (v.default? metadata) t hash
  | .fewerKeys keys =>
    let tuple := criteria.restrict keys
    if tuple.isEmpty then pure none else v.chooseFromTrie t hash tuple

/-- A host by the selectors, the first that gives one. A selector none of whose keys
the request mentions does not apply. -/
def chooseBySelectors (v : SubsetView) (t : HostTable) (hash : Option UInt64)
    (criteria : Criteria) : List Selector → Pick (Option Host)
  | [] => pure none
  | selector :: rest => do
    let tuple := criteria.restrict selector.keys
    if tuple.isEmpty then v.chooseBySelectors t hash criteria rest
    else
      match ← v.chooseFromTrie t hash tuple with
      | some h =>
        Pick.count v.engine .selected
        pure (some h)
      | none =>
        match ← v.chooseByFallback t hash criteria selector.fallback with
        | some h =>
          Pick.count v.engine .fallback
          pure (some h)
        | none => v.chooseBySelectors t hash criteria rest

/-- A host by the fallback of the cluster. -/
def chooseByClusterFallback (v : SubsetView) (t : HostTable) (hash : Option UInt64) :
    Pick (Option Host) :=
  match v.settings.fallback with
  | .none => pure none
  | .anyHost => v.any.choose t hash
  | .defaultSubset metadata => HostSubset.chooseIfActive (v.default? metadata) t hash

/-- A host by what the request asks for. A request without criteria skips the selectors. -/
def chooseByCriteria (v : SubsetView) (t : HostTable) (hash : Option UInt64)
    (criteria : Option Criteria) : Pick (Option Host) :=
  match criteria with
  | some c => if c.isEmpty then pure none else v.chooseBySelectors t hash c v.settings.selectors
  | none => pure none

/-- The host for a request (`SubsetSnapshot::choose_host`): by its criteria, else by the fallback of
the cluster, else any if the settings allow it. -/
def choose (v : SubsetView) (t : HostTable) (hash : Option UInt64) (criteria : Option Criteria) :
    Pick (Option Host) := do
  match ← v.chooseByCriteria t hash criteria with
  | some h => pure (some h)
  | none =>
    match ← v.chooseByClusterFallback t hash with
    | some h =>
      Pick.count v.engine .fallback
      pure (some h)
    | none =>
      if v.settings.panicModeAny then
        match ← v.any.choose t hash with
        | some h =>
          Pick.count v.engine .panicFallback
          pure (some h)
        | none => pure none
      else pure none

end SubsetView

/-! ## The engine -/

/-- How many subsets of the trie have hosts, and how often one came to have hosts or lost its last
one (`SubsetStats`). -/
structure ActivityCounts where
  active : Int
  created : Nat
  removed : Nat
  deriving DecidableEq, Repr

namespace ActivityCounts

/-- Nothing was counted yet. -/
def zero : ActivityCounts := ⟨0, 0, 0⟩

instance : Inhabited ActivityCounts := ⟨zero⟩

/-- Takes note of a subset that was active or not, and now is or is not. -/
def record (c : ActivityCounts) (before after : Bool) : ActivityCounts :=
  match before, after with
  | false, true => { c with active := c.active + 1, created := c.created + 1 }
  | true, false => { c with active := c.active - 1, removed := c.removed + 1 }
  | _, _ => c

end ActivityCounts

/-- The subsets of a cluster, and what it takes to change them (`SubsetLoadBalancer`). -/
structure SubsetEngine where
  plan : SubsetPlan
  view : SubsetView
  activity : ActivityCounts
  workshop : Workshop

namespace SubsetEngine

/-- All tuples of a host, under each of the key sets. -/
def tuplesOf (settings : SubsetSettings) (h : Host) : List Tuple :=
  settings.keySets.flatMap fun keys => h.tuples settings.listAsAny keys.keys

/-- Adds an item behind those that are there, unless one of them is for its tuple. -/
def addFirst (seen : List (Tuple × Bool)) (e : Tuple × Bool) : List (Tuple × Bool) :=
  if seen.any fun s => s.1 = e.1 then seen else seen ++ [e]

/-- The tuples that a membership change touches, each once, with whether it is an added
host that touches it first. -/
def touched (settings : SubsetSettings) (added removed : List Host) : List (Tuple × Bool) :=
  let all :=
    (added.flatMap fun h => (tuplesOf settings h).map fun tuple => (tuple, true)) ++
      (removed.flatMap fun h => (tuplesOf settings h).map fun tuple => (tuple, false))
  all.foldl addFirst []

/-- Brings the subset of one touched tuple up to date. A tuple that no subset was ever
made for gets one if it comes with an added host. -/
def touch (e : SubsetEngine) (t : HostTable) (whole : PrioritySet) (priority : Nat)
    (added removed : List Host) (tuple : Tuple) (adding : Bool) : SubsetEngine :=
  let put (before : Bool) (s : HostSubset) (w : Workshop) : SubsetEngine :=
    { e with
      view := { e.view with root := e.view.root.insert tuple s }
      activity := e.activity.record before s.isActive
      workshop := w }
  match e.view.root.get? tuple with
  | some s =>
    let (s', w) := s.update e.plan t whole priority added removed e.workshop
    put s.isActive s' w
  | none =>
    -- hosts that leave have nobody to make a subset for
    if adding then
      let (s, w) := HostSubset.new e.plan t tuple whole e.workshop
      put false s w
    else e

/-- Brings the trie up to date with a membership change (`update_trie`). -/
def updateTrie (e : SubsetEngine) (t : HostTable) (whole : PrioritySet) (priority : Nat)
    (added removed : List Host) : SubsetEngine :=
  (touched e.plan.settings added removed).foldl
    (fun e (tuple, adding) => e.touch t whole priority added removed tuple adding) e

/-- Makes or changes default subsets one after the other. -/
def mapDefaults {β : Type} (f : β → Workshop → HostSubset × Workshop) :
    List β → Workshop → List HostSubset × Workshop
  | [], w => ([], w)
  | x :: rest, w =>
    let (s, w) := f x w
    let (others, w) := mapDefaults f rest w
    (s :: others, w)

/-- Changes the subsets that are always there: that of all hosts, and the default subsets. -/
def changeStanding (e : SubsetEngine) (change : HostSubset → Workshop → HostSubset × Workshop) :
    SubsetEngine :=
  let (any, w) := change e.view.any e.workshop
  let (defaults, w) := mapDefaults change e.view.defaults w
  { e with view := { e.view with any, defaults }, workshop := w }

/-- The engine with the subset of all hosts and the default subsets, even if they have no
host. -/
def standing (plan : SubsetPlan) (engine : Nat) (t : HostTable) (whole : PrioritySet)
    (w : Workshop) : SubsetEngine :=
  let (any, w) := HostSubset.new plan t [] whole w
  let (defaults, w) :=
    mapDefaults (fun metadata w => HostSubset.new plan t metadata whole w)
      plan.settings.defaults w
  { plan
    view := { engine, settings := plan.settings, any, defaults, root := .empty }
    activity := .zero
    workshop := w }

/-- The engine for a priority set, with a subset for every tuple that some host has
(`SubsetLoadBalancer::new`). -/
def new (plan : SubsetPlan) (engine : Nat) (t : HostTable) (whole : PrioritySet)
    (w : Workshop) : SubsetEngine :=
  whole.levels.foldl (fun e l => e.updateTrie t whole l.priority l.hosts [])
    (standing plan engine t whole w)

/-- Takes a membership change that `whole` already shows (`SubsetLoadBalancer::update`). -/
def update (e : SubsetEngine) (t : HostTable) (whole : PrioritySet) (priority : Nat)
    (added removed : List Host) : SubsetEngine :=
  (e.changeStanding fun s w => s.update e.plan t whole priority added removed w).updateTrie
    t whole priority added removed

/-- Catches up with changes of health and of locality weights, in every subset
(`SubsetLoadBalancer::refresh`). -/
def refresh (e : SubsetEngine) (t : HostTable) (whole : PrioritySet) : SubsetEngine :=
  let change (s : HostSubset) (w : Workshop) : HostSubset × Workshop :=
    s.refresh e.plan t whole w
  let e := e.changeStanding change
  let (root, w) := e.view.root.mapAccum (fun w s => change s w) e.workshop
  { e with view := { e.view with root }, workshop := w }

end SubsetEngine

end LoadBalancing
