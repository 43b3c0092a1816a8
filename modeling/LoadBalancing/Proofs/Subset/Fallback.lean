/-
A request is served by the first of its groups that has a host.

The groups of a request can be read off the settings and the hosts of the cluster, without
any trie or balancer (`SubsetSettings.fallbackChain`): for every selector the hosts that have
the tuple asked for and then the group of its fallback, after all selectors the group of the
cluster's fallback and, in panic, all hosts. The engine gives a host of the first group that
is not empty, and no host only if all groups are empty.

Two things make this so. What a tuple leads to in the trie is the subset of exactly the hosts
that have the tuple, since the engine keeps its subsets in step (`SubsetEngine.InStep`); so
a tuple that only leads to an inner node, or to the entry of another selector, finds what it
should. And a subset with hosts never turns a request down (`Balancer.serves_choose`), so
the chain goes on only behind a group without hosts.
-/
import LoadBalancing.Proofs.Balancer.Serves
import LoadBalancing.Proofs.Subset.Engine

set_option autoImplicit false

namespace LoadBalancing

/-! ## The groups of a request -/

/-- The first group that is not empty; nobody if all are. -/
def firstNonEmpty : List (List Host) → List Host
  | [] => []
  | group :: rest => if group = [] then firstNonEmpty rest else group

theorem firstNonEmpty_append (groups groups' : List (List Host)) :
    firstNonEmpty (groups ++ groups') =
      if firstNonEmpty groups = [] then firstNonEmpty groups' else firstNonEmpty groups := by
  induction groups with
  | nil => rfl
  | cons group rest ih =>
    rw [List.cons_append, firstNonEmpty, firstNonEmpty, ih]
    by_cases h : group = []
    · rw [if_pos h, if_pos h]
    · rw [if_neg h, if_neg h, if_neg h]

namespace SubsetSettings

variable (settings : SubsetSettings) (whole : PrioritySet)

/-- The hosts that a tuple leads to: those that have it among their tuples. If hosts are not
grouped by its keys, it leads nowhere. -/
def candidates (tuple : Tuple) : List Host :=
  if ∃ keys ∈ settings.keySets, keys.keys = tuple.map (·.1) then
    whole.hosts.filter fun h => tuple ∈ h.tuples settings.listAsAny (tuple.map (·.1))
  else []

/-- The hosts of a default subset. -/
def defaultGroup (metadata : Tuple) : List Host :=
  whole.hosts.filter fun h => h.matchesTuple settings.listAsAny metadata

/-- The hosts that the fallback of a selector stands for. -/
def fallbackGroup (criteria : Criteria) : SelectorFallback → List Host
  | .none => []
  | .anyHost => whole.hosts
  | .defaultSubset metadata => settings.defaultGroup whole metadata
  | .fewerKeys keys =>
    let tuple := criteria.restrict keys
    if tuple.isEmpty then [] else settings.candidates whole tuple

/-- The groups of one selector: the hosts that have the tuple asked for, then those of the
fallback. A selector none of whose keys the request mentions has no groups. -/
def selectorGroups (criteria : Criteria) (selector : Selector) : List (List Host) :=
  let tuple := criteria.restrict selector.keys
  if tuple.isEmpty then []
  else [settings.candidates whole tuple, settings.fallbackGroup whole criteria selector.fallback]

/-- The hosts that the fallback of the cluster stands for. -/
def clusterGroup : List Host :=
  match settings.fallback with
  | .none => []
  | .anyHost => whole.hosts
  | .defaultSubset metadata => settings.defaultGroup whole metadata

/-- The groups of all selectors; a request without criteria has none. -/
def criteriaGroups : Option Criteria → List (List Host)
  | some criteria => settings.selectors.flatMap (settings.selectorGroups whole criteria)
  | none => []

/-- All groups of a request, in the order in which they are tried. -/
def fallbackChain (criteria : Option Criteria) : List (List Host) :=
  settings.criteriaGroups whole criteria ++
    [settings.clusterGroup whole, if settings.panicModeAny then whole.hosts else []]

end SubsetSettings

/-! ## What the settings promise -/

/-- Dropping repeats drops nothing else. -/
theorem mem_distinct {β : Type} [DecidableEq β] {items : List β} {x : β} :
    x ∈ distinct items ↔ x ∈ items := by
  -- the induction needs whatever was seen before
  have hseen (seen : List β) :
      x ∈ items.foldl (fun seen y => if y ∈ seen then seen else seen ++ [y]) seen ↔
        x ∈ seen ∨ x ∈ items := by
    induction items generalizing seen with
    | nil => simp
    | cons y rest ih =>
      rw [List.foldl_cons, ih, List.mem_cons]
      split
      next hy =>
        constructor
        · rintro (hx | hx)
          · exact .inl hx
          · exact .inr (.inr hx)
        · rintro (hx | rfl | hx)
          · exact .inl hx
          · exact .inl hy
          · exact .inr hx
      next => rw [List.mem_append, List.mem_singleton, or_assoc]
  rw [distinct, hseen]
  exact or_iff_right List.not_mem_nil

namespace SubsetSettings

variable (settings : SubsetSettings)

/-- The default subset of the cluster is one of those that are always there. -/
theorem mem_defaults_of_fallback {metadata : Tuple}
    (h : settings.fallback = .defaultSubset metadata) : metadata ∈ settings.defaults := by
  rw [defaults, mem_distinct, h]
  exact List.mem_append_left _ (List.mem_singleton.2 rfl)

/-- So is the default subset of any selector. -/
theorem mem_defaults_of_selector {selector : Selector} {metadata : Tuple}
    (hmem : selector ∈ settings.selectors) (h : selector.fallback = .defaultSubset metadata) :
    metadata ∈ settings.defaults := by
  rw [defaults, mem_distinct]
  refine List.mem_append_right _ (List.mem_filterMap.2 ⟨selector, hmem, ?_⟩)
  rw [Selector.default?, h]

end SubsetSettings

/-- Of nothing that is asked for, nothing is left. -/
theorem Criteria.restrict_of_isEmpty {criteria : Criteria} (h : criteria.isEmpty = true)
    (keys : KeySet) : criteria.restrict keys = [] := by
  show criteria.entries.filter (fun entry => keys.contains entry.1) = []
  rw [List.isEmpty_iff.1 h, List.filter_nil]

/-! ## Subsets that serve -/

namespace HostSubset

variable {plan : SubsetPlan} {whole : PrioritySet} {s : HostSubset}

/-- A subset in step serves the hosts it has. -/
theorem InStep.serves_choose (h : s.InStep plan whole)
    (noRing : ∀ settings, plan.strategy.policy ≠ .ringHash settings) (t : HostTable)
    (hash : Option UInt64) : (s.choose t hash).Serves s.set.hosts := by
  obtain ⟨t', w, hbuilt⟩ := h.built
  rw [choose, hbuilt]
  exact Balancer.serves_choose h.sound noRing plan.numerics t' t w hash

/-- Not to ask a subset without hosts makes no difference. -/
theorem InStep.serves_chooseIfActive (h : s.InStep plan whole)
    (noRing : ∀ settings, plan.strategy.policy ≠ .ringHash settings) (t : HostTable)
    (hash : Option UInt64) : (chooseIfActive (some s) t hash).Serves s.set.hosts := by
  rw [chooseIfActive]
  split
  · exact h.serves_choose noRing t hash
  next hinactive =>
    rw [isActive, Bool.not_eq_true', Bool.not_eq_false] at hinactive
    rw [PrioritySet.isEmpty_iff.1 hinactive]
    exact Pick.serves_none

theorem InStep.mem_defaultGroup (h : s.InStep plan whole) (host : Host) :
    host ∈ s.set.hosts ↔ host ∈ plan.settings.defaultGroup whole s.metadata := by
  rw [h.mem_hosts, SubsetSettings.defaultGroup, List.mem_filter]

end HostSubset

/-! ## Engines that serve -/

namespace SubsetEngine

variable {e : SubsetEngine} {whole : PrioritySet}

theorem mem_candidates {settings : SubsetSettings} {tuple : Tuple} {host : Host} :
    host ∈ settings.candidates whole tuple ↔
      host ∈ whole.hosts ∧ tuple ∈ tuplesOf settings host := by
  rw [SubsetSettings.candidates]
  split
  next hkeys =>
    obtain ⟨keys, hmem, heq⟩ := hkeys
    rw [List.mem_filter, decide_eq_true_eq, mem_tuplesOf, ← heq]
    constructor
    · rintro ⟨hhost, htuple⟩
      exact ⟨hhost, keys, hmem, htuple⟩
    · rintro ⟨hhost, keys', -, htuple⟩
      -- the keys of a tuple are those it was found under
      have hsame := (Host.mem_tuples.1 htuple).1
      rw [← heq] at hsame
      exact ⟨hhost, hsame ▸ htuple⟩
  next hnokeys =>
    refine ⟨fun hnil => absurd hnil List.not_mem_nil, ?_⟩
    rintro ⟨-, htuple⟩
    obtain ⟨keys, hmem, hin⟩ := mem_tuplesOf.1 htuple
    exact absurd ⟨keys, hmem, (Host.mem_tuples.1 hin).1.symm⟩ hnokeys

variable (h : e.InStep whole) (noRing : ∀ settings, e.plan.strategy.policy ≠ .ringHash settings)
  (t : HostTable) (hash : Option UInt64)

include h noRing

/-- **What a tuple leads to in the trie** are the hosts that have it. -/
theorem InStep.serves_trie (tuple : Tuple) :
    (e.view.chooseFromTrie t hash tuple).Serves (e.plan.settings.candidates whole tuple) := by
  rw [SubsetView.chooseFromTrie]
  cases hget : e.view.root.get? tuple with
  | none =>
    have hnil : e.plan.settings.candidates whole tuple = [] := by
      rw [List.eq_nil_iff_forall_not_mem]
      intro host hhost
      -- a tuple of a host has a subset, but there is none
      obtain ⟨hin, htuple⟩ := mem_candidates.1 hhost
      have hsome := h.complete host hin tuple htuple
      rw [hget] at hsome
      cases hsome
    rw [hnil]
    exact Pick.serves_none
  | some s =>
    have entry := h.holds tuple s hget
    have hsame : ∀ host, host ∈ s.set.hosts ↔ host ∈ e.plan.settings.candidates whole tuple := by
      intro host
      rw [entry.inStep.mem_hosts, entry.matches_iff, mem_candidates]
    exact (entry.inStep.serves_chooseIfActive noRing t hash).congr hsame

/-- The subset of all hosts has all hosts. -/
theorem InStep.serves_any : (e.view.any.choose t hash).Serves whole.hosts := by
  refine (h.standing.any.serves_choose noRing t hash).congr fun host => ?_
  rw [h.standing.any.mem_hosts, h.standing.anyMetadata, Host.matchesTuple_nil]
  exact and_iff_left rfl

/-- The default subsets are there from the beginning, each for its metadata. -/
theorem InStep.serves_default {metadata : Tuple} (hmem : metadata ∈ e.plan.settings.defaults) :
    (HostSubset.chooseIfActive (e.view.default? metadata) t hash).Serves
      (e.plan.settings.defaultGroup whole metadata) := by
  rw [← h.standing.defaultsMetadata] at hmem
  obtain ⟨s, hs, hmetadata⟩ := List.mem_map.1 hmem
  have hsome : (e.view.default? metadata).isSome = true := by
    rw [SubsetView.default?, List.find?_isSome]
    exact ⟨s, hs, decide_eq_true hmetadata⟩
  -- whichever is found has the same metadata, so the same hosts
  obtain ⟨found, hfound⟩ := Option.isSome_iff_exists.1 hsome
  have hfoundMetadata : found.metadata = metadata := by
    simpa using List.find?_some hfound
  have hinStep := h.standing.defaults found (List.mem_of_find?_eq_some hfound)
  rw [hfound, ← hfoundMetadata]
  exact (hinStep.serves_chooseIfActive noRing t hash).congr hinStep.mem_defaultGroup

theorem InStep.serves_fallback (criteria : Criteria) {fallback : SelectorFallback}
    (hdefault : ∀ metadata, fallback = .defaultSubset metadata →
      metadata ∈ e.plan.settings.defaults) :
    (e.view.chooseByFallback t hash criteria fallback).Serves
      (e.plan.settings.fallbackGroup whole criteria fallback) := by
  cases fallback with
  | none => exact Pick.serves_none
  | anyHost => exact h.serves_any noRing t hash
  | defaultSubset metadata => exact h.serves_default noRing t hash (hdefault metadata rfl)
  | fewerKeys keys =>
    rw [SubsetView.chooseByFallback, SubsetSettings.fallbackGroup]
    split
    · exact Pick.serves_none
    · exact h.serves_trie noRing t hash _

/-- **The selectors one after the other.** The induction is on the selectors still to come:
the next one comes up only if both groups of this one are empty. -/
theorem InStep.serves_selectors (criteria : Criteria) (selectors : List Selector)
    (hdefault : ∀ selector ∈ selectors, ∀ metadata, selector.fallback = .defaultSubset metadata →
      metadata ∈ e.plan.settings.defaults) :
    (e.view.chooseBySelectors t hash criteria selectors).Serves
      (firstNonEmpty (selectors.flatMap (e.plan.settings.selectorGroups whole criteria))) := by
  induction selectors with
  | nil => exact Pick.serves_none
  | cons selector rest ih =>
    have hrest := ih fun s hs => hdefault s (List.mem_cons_of_mem _ hs)
    rw [SubsetView.chooseBySelectors, List.flatMap_cons, SubsetSettings.selectorGroups]
    split
    · exact hrest
    · -- two groups in front of those of the rest
      have htrie := h.serves_trie noRing t hash (criteria.restrict selector.keys)
      have hfallback := h.serves_fallback noRing t hash criteria
        (hdefault selector List.mem_cons_self)
      show Pick.Serves _ (if _ = [] then (if _ = [] then _ else _) else _)
      refine htrie.orElse (fun host => Pick.serves_count _ _ host) ?_
      exact hfallback.orElse (fun host => Pick.serves_count _ _ host) hrest

theorem InStep.serves_clusterFallback :
    (e.view.chooseByClusterFallback t hash).Serves (e.plan.settings.clusterGroup whole) := by
  rw [SubsetView.chooseByClusterFallback, SubsetSettings.clusterGroup, h.standing.settings]
  cases hfallback : e.plan.settings.fallback with
  | none => exact Pick.serves_none
  | anyHost => exact h.serves_any noRing t hash
  | defaultSubset metadata =>
    exact h.serves_default noRing t hash (e.plan.settings.mem_defaults_of_fallback hfallback)

/-- Criteria that ask for nothing have no groups, so it makes no difference that they skip
the selectors. -/
theorem InStep.serves_criteria (criteria : Option Criteria) :
    (e.view.chooseByCriteria t hash criteria).Serves
      (firstNonEmpty (e.plan.settings.criteriaGroups whole criteria)) := by
  cases criteria with
  | none => exact Pick.serves_none
  | some c =>
    rw [SubsetView.chooseByCriteria, h.standing.settings]
    split
    next hempty =>
      -- no selector has anything to look up
      have hnil : e.plan.settings.criteriaGroups whole (some c) = [] := by
        rw [SubsetSettings.criteriaGroups, List.flatMap_eq_nil_iff]
        intro selector _
        rw [SubsetSettings.selectorGroups, Criteria.restrict_of_isEmpty hempty]
        rfl
      rw [hnil]
      exact Pick.serves_none
    next =>
      refine h.serves_selectors noRing t hash c e.plan.settings.selectors ?_
      intro selector hmem metadata hfallback
      exact e.plan.settings.mem_defaults_of_selector hmem hfallback

/-- **A request of an engine in step** is served by the first of its groups that has a host. -/
theorem InStep.serves_fallbackChain (criteria : Option Criteria) :
    (e.view.choose t hash criteria).Serves
      (firstNonEmpty (e.plan.settings.fallbackChain whole criteria)) := by
  have hcriteria := h.serves_criteria noRing t hash criteria
  have hcluster := h.serves_clusterFallback noRing t hash
  have hany := h.serves_any noRing t hash
  rw [SubsetView.choose, SubsetSettings.fallbackChain, firstNonEmpty_append]
  refine hcriteria.orElse (fun host => Pick.serves_some host) ?_
  refine hcluster.orElse (fun host => Pick.serves_count _ _ host) ?_
  rw [h.standing.settings]
  dsimp only
  -- the last group is that of all hosts, or nobody's
  cases hpanic : e.plan.settings.panicModeAny with
  | true =>
    show Pick.Serves _ (if whole.hosts = [] then [] else whole.hosts)
    exact hany.orElse (fun host => Pick.serves_count _ _ host) Pick.serves_none
  | false => exact Pick.serves_none

omit h noRing

/-! ## Engines of a run -/

/-- An engine that followed a priority set: made for it, told of every change of members, and
of changes of health and weights at some time or never. No host carries a list within a list,
and whoever leaves is named. -/
inductive Follows : SubsetEngine → PrioritySet → Prop
  | new (plan : SubsetPlan) (engine : Nat) (t : HostTable) {whole : PrioritySet}
      (flat : ∀ h ∈ whole.hosts, h.Flat) (w : Workshop) : Follows (new plan engine t whole w) whole
  | update {e : SubsetEngine} {before after : PrioritySet} {priority : Nat}
      {added removed : List Host} (h : Follows e before) (t : HostTable)
      (step : LevelStep before after priority added removed) (flat : ∀ h ∈ added, h.Flat) :
      Follows (e.update t after priority added removed) after
  | refresh {e : SubsetEngine} {before after : PrioritySet} (h : Follows e before) (t : HostTable)
      (same : ∀ p, after.hostsAt p = before.hostsAt p) : Follows (e.refresh t after) after
  | unaware {e : SubsetEngine} {before after : PrioritySet} (h : Follows e before)
      (same : ∀ p, after.hostsAt p = before.hostsAt p) : Follows e after

theorem Follows.inStep (h : e.Follows whole) : e.InStep whole := by
  induction h with
  | new plan engine t flat w => exact inStep_new plan engine t flat w
  | update _ t step flat ih => exact ih.update t step flat
  | refresh _ t same ih => exact ih.refresh t same
  | unaware _ same ih => exact ih.congr same

/-- **Every request is served by the first of its groups that has a host**, and by nobody if
none has. This goes for all policies but the ring, whatever the settings are, whatever turns
were taken, and whatever is drawn. -/
theorem Follows.serves_firstGroup (h : e.Follows whole)
    (noRing : ∀ settings, e.plan.strategy.policy ≠ .ringHash settings) (t : HostTable)
    (hash : Option UInt64) (criteria : Option Criteria) :
    (e.view.choose t hash criteria).Serves
      (firstNonEmpty (e.plan.settings.fallbackChain whole criteria)) :=
  h.inStep.serves_fallbackChain noRing t hash criteria

/-! ### A run -/

section Versioned

/-- Hosts are grouped by stage and version, and for want of a version by stage alone. -/
def versionedPlan : SubsetPlan where
  settings :=
    { selectors := [⟨.ofKeys ["stage", "version"], .fewerKeys (.ofKeys ["stage"])⟩]
      fallback := .none
      localityWeightAware := false
      scaleLocalityWeight := false
      panicModeAny := false
      listAsAny := false }
  strategy := ⟨.roundRobin, 50⟩
  numerics := .float

def versioned (id : Nat) (address stage version : String) : Host :=
  { id, address, locality := default
    metadata := .ofList [("stage", .text stage), ("version", .text version)] }

/-- One host of each stage. -/
def versionedHosts : PrioritySet :=
  (PrioritySet.empty 140).updateHosts .empty 0
    [versioned 0 "a" "prod" "v1", versioned 1 "b" "dev" "v1"] []

/-- The first host gets another version. -/
def upgradedHosts : PrioritySet :=
  versionedHosts.updateHosts .empty 0 [versioned 2 "a" "prod" "v2"]
    [versioned 0 "a" "prod" "v1"]

def upgradedEngine : SubsetEngine :=
  (new versionedPlan 0 .empty versionedHosts .new).update .empty upgradedHosts 0
    [versioned 2 "a" "prod" "v2"] [versioned 0 "a" "prod" "v1"]

/-- The old version is asked for. Nobody has it any more, so the new one of its stage serves. -/
theorem serves_upgradedHost :
    (upgradedEngine.view.choose .empty none
      (some (.ofList [("stage", .text "prod"), ("version", .text "v1")]))).Serves
      [versioned 2 "a" "prod" "v2"] := by
  have follows : upgradedEngine.Follows upgradedHosts :=
    .update (.new versionedPlan 0 .empty (by decide +kernel) .new) .empty
      (.updateHosts versionedHosts .empty (by decide +kernel)) (by decide +kernel)
  have serves := follows.serves_firstGroup (fun _ => Policy.noConfusion) .empty none
    (some (.ofList [("stage", .text "prod"), ("version", .text "v1")]))
  have hgroup : firstNonEmpty (upgradedEngine.plan.settings.fallbackChain upgradedHosts
      (some (.ofList [("stage", .text "prod"), ("version", .text "v1")]))) =
      [versioned 2 "a" "prod" "v2"] := by
    decide +kernel
  rw [hgroup] at serves
  exact serves

end Versioned

end SubsetEngine

end LoadBalancing
