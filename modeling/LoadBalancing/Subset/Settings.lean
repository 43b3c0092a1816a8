/-
Subset settings after validation (`SubsetSettings`).

A selector names the keys by which hosts are grouped, and what happens when the
group a request asks for has no host: nothing, any host, a default group, or the
group for fewer of the keys. Keys must be there, each once; a default group needs
metadata; fewer keys must be some of the selector's keys, but not none and not all.
-/
import LoadBalancing.Config.Schema

set_option autoImplicit false

namespace LoadBalancing

/-! ## Problems -/

/-- Why a selector cannot be used. -/
inductive SelectorProblem where
  | noKeys
  | repeatedKeys
  | noDefault
  | noFallbackKeys
  | foreignFallbackKeys
  | sameFallbackKeys
  deriving DecidableEq, Repr

namespace SelectorProblem

/-- The problem in words. -/
def message : SelectorProblem → String
  | .noKeys => "keys must not be empty"
  | .repeatedKeys => "keys must be unique"
  | .noDefault => "DEFAULT_SUBSET fallback requires default_subset metadata"
  | .noFallbackKeys => "KEYS_SUBSET fallback requires non-empty fallback_keys_subset"
  | .foreignFallbackKeys => "fallback_keys_subset must be a subset of the selector keys"
  | .sameFallbackKeys => "fallback_keys_subset must not equal the selector keys"

end SelectorProblem

/-- Why subset settings cannot be used. -/
inductive SubsetProblem where
  | selector (index : Nat) (problem : SelectorProblem)
  /-- The cluster falls back to a default subset and has no metadata for it. -/
  | noDefault
  /-- Locality weights would be scaled without being used. -/
  | scaleWithoutWeights
  deriving DecidableEq, Repr

namespace SubsetProblem

/-- The problem in words, with the number of the selector. -/
def message : SubsetProblem → String
  | .selector index problem => "subset selector " ++ toString index ++ ": " ++ problem.message
  | .noDefault => "subset fallback: DEFAULT_SUBSET requires default_subset metadata"
  | .scaleWithoutWeights => "subset fallback: scale_locality_weight requires locality_weight_aware"

end SubsetProblem

/-! ## Settings -/

/-- Where a request goes that no selector has a host for (`ClusterFallback`). -/
inductive ClusterFallback where
  | none
  | anyHost
  | defaultSubset (metadata : Tuple)
  deriving DecidableEq

/-- Where a request goes whose selector has no host for it (`SelectorFallback`). -/
inductive SelectorFallback where
  | none
  | anyHost
  | defaultSubset (metadata : Tuple)
  | fewerKeys (keys : KeySet)
  deriving DecidableEq

/-- The keys that hosts are grouped by, and the fallback of requests for them (`SubsetSelector`). -/
structure Selector where
  keys : KeySet
  fallback : SelectorFallback
  deriving DecidableEq

namespace Selector

/-- The set of fewer keys, if that is a selector's fallback. -/
def fewerKeys? (s : Selector) : Option KeySet :=
  match s.fallback with
  | .fewerKeys keys => some keys
  | _ => Option.none

/-- The metadata of the default subset, if that is a selector's fallback. -/
def default? (s : Selector) : Option Tuple :=
  match s.fallback with
  | .defaultSubset metadata => some metadata
  | _ => Option.none

/-- The fallback of a selector with the given keys. -/
def fallbackOf (c : SelectorConfig) (keys : KeySet) (clusterDefault : Metadata) :
    Except SelectorProblem SelectorFallback :=
  match c.fallback with
  | .none => .ok .none
  | .anyEndpoint => .ok .anyHost
  | .defaultSubset =>
    let metadata := if c.defaultSubset.isEmpty then clusterDefault else c.defaultSubset
    if metadata.isEmpty then .error .noDefault else .ok (.defaultSubset metadata.entries)
  | .keysSubset =>
    let fewer := KeySet.ofKeys c.fallbackKeys
    if fewer.isEmpty then .error .noFallbackKeys
    else if !fewer.keys.all keys.contains then .error .foreignFallbackKeys
    else if fewer = keys then .error .sameFallbackKeys
    else .ok (.fewerKeys fewer)

/-- The selector of a configuration (`SubsetSelector::from_config`). A default subset without
metadata of its own is that of the cluster. -/
def ofConfig (c : SelectorConfig) (clusterDefault : Metadata) : Except SelectorProblem Selector :=
  let keys := KeySet.ofKeys c.keys
  if keys.isEmpty then .error .noKeys
  else if keys.size ≠ c.keys.length then .error .repeatedKeys
  else do
    let fallback ← fallbackOf c keys clusterDefault
    pure ⟨keys, fallback⟩

end Selector

/-- The items of a list in order, repeats dropped. -/
def distinct {β : Type} [DecidableEq β] (items : List β) : List β :=
  items.foldl (fun seen x => if x ∈ seen then seen else seen ++ [x]) []

/-- Subset settings that can be used (`SubsetSettings`). -/
structure SubsetSettings where
  selectors : List Selector
  fallback : ClusterFallback
  /-- Whether subsets use the locality weights of the cluster. -/
  localityWeightAware : Bool
  /-- Whether they are scaled to the part of the hosts that a subset has. -/
  scaleLocalityWeight : Bool
  /-- Whether a request that has no host yet goes to any. -/
  panicModeAny : Bool
  /-- Whether a host whose value is a list belongs to the group of each item. -/
  listAsAny : Bool
  deriving DecidableEq

namespace SubsetSettings

/-- Reads selectors in order; the first is number `index`. -/
def selectorsOf (clusterDefault : Metadata) (index : Nat) :
    List SelectorConfig → Except SubsetProblem (List Selector)
  | [] => .ok []
  | c :: rest => do
    let s ← (Selector.ofConfig c clusterDefault).mapError (.selector index)
    let others ← selectorsOf clusterDefault (index + 1) rest
    pure (s :: others)

/-- The settings of a configuration, or the first thing wrong with it
(`SubsetSettings::from_config`): selectors in order, then the fallback of the cluster, then the use
of locality weights. -/
def ofConfig (c : SubsetConfig) : Except SubsetProblem SubsetSettings := do
  let selectors ← selectorsOf c.defaultSubset 0 c.selectors
  let fallback ← match c.fallback with
    | .none => .ok ClusterFallback.none
    | .anyEndpoint => .ok .anyHost
    | .defaultSubset =>
      if c.defaultSubset.isEmpty then .error .noDefault
      else .ok (.defaultSubset c.defaultSubset.entries)
  if c.scaleLocalityWeight && !c.localityWeightAware then .error .scaleWithoutWeights
  else pure {
    selectors
    fallback
    localityWeightAware := c.localityWeightAware
    scaleLocalityWeight := c.scaleLocalityWeight
    panicModeAny := c.panicModeAny
    listAsAny := c.listAsAny }

/-- The key sets that hosts are grouped by (`trie_key_sets`): those of the selectors, each followed
by the fewer keys of its fallback. -/
def keySets (s : SubsetSettings) : List KeySet :=
  distinct (s.selectors.flatMap fun sel => sel.keys :: sel.fewerKeys?.toList)

/-- The metadata of all default subsets, that of the cluster first (`default_subsets`). -/
def defaults (s : SubsetSettings) : List Tuple :=
  let cluster := match s.fallback with
    | .defaultSubset metadata => [metadata]
    | _ => []
  distinct (cluster ++ s.selectors.filterMap Selector.default?)

end SubsetSettings

end LoadBalancing
