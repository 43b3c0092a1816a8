/-
Everything that can happen to a cluster, and what it does to the hosts of its levels.

A cluster is told about changes one after the other, in any order, so a run is a list
of operations. What happens outside of a cluster, such as requests and hosts that are
taken into the table, shows in the host table alone. An operation may overflow, and
then there is no cluster any more and no operation after it. So a step of a run is an
operation that went well.

Due timers and the results of probes come to the same for a cluster: its checker goes on
and writes verdicts, and the cluster takes note (`Cluster.Heard`). Proofs about runs treat
both in one case.

Of all operations only a membership change touches the hosts of a level, whether it
comes from discovery or from a configuration. It comes in parts, one for each level it
speaks of, and a part changes nothing but its own level (`hostsAt_applyLevels`).
-/
import LoadBalancing.Cluster.Basic
import LoadBalancing.Proofs.Check.Reports
import LoadBalancing.Proofs.Check.Watched
import LoadBalancing.Proofs.HostSet.Levels
import LoadBalancing.Proofs.Outcome
import LoadBalancing.Proofs.SortedMap.Lookup

set_option autoImplicit false

namespace LoadBalancing

namespace Cluster

/-! ## Operations -/

/-- One thing that happens to a cluster. -/
inductive Operation where
  /-- Discovery adds hosts to a level, and removes those at some addresses. -/
  | membership (now priority : Nat) (added : List Host) (removed : List String)
  /-- The configured hosts are replaced. -/
  | hosts (now : Nat) (desired : List HostConfig)
  /-- The configuration is replaced, if it can be taken. -/
  | config (now : Nat) (config : ClusterConfig)
  | hostWeight (address : String) (weight : Nat)
  | localityWeights (priority : Nat) (weights : LocalityWeights)
  /-- Timers of the health checks come due. -/
  | timers (now : Nat) (jitter : Jitter)
  /-- The result of a probe comes in. -/
  | result (now : Nat) (jitter : Jitter) (asker : Nat) (key : SessionKey) (probe : Nat)
      (result : Except ProbeError ProbeAnswer)
  /-- Somebody else says which verdicts changed. -/
  | transitions (changed : List Transition)
  /-- Requests come and go, hosts are taken into the table or given a health. -/
  | outside (hosts : HostTable)

/-- The cluster after an operation. There is none after an operation that overflows. -/
def perform (c : Cluster) : Operation → Except Overflow Cluster
  | .membership now priority added removed => .ok (c.changeMembership now priority added removed)
  | .hosts now desired => .ok (c.setHosts now desired)
  | .config now config => (c.applyConfig now config).map (·.2)
  | .hostWeight address weight => .ok (c.setHostWeight address weight).2
  | .localityWeights priority weights => .ok (c.setLocalityWeights priority weights)
  | .timers now jitter => (c.fireDue now jitter).map (·.1)
  | .result now jitter asker key probe result => c.deliver now jitter asker key probe result
  | .transitions changed => .ok (c.noteTransitions changed)
  | .outside hosts => .ok { c with hosts }

/-- The cluster after some operations. -/
def after (c : Cluster) (done : List Operation) : Except Overflow Cluster :=
  done.foldlM perform c

/-- Nothing happened. -/
@[simp] theorem after_nil (c : Cluster) : c.after [] = .ok c := rfl

/-- What comes first is what all that follows goes on from, if it goes well. -/
@[simp] theorem after_cons (c : Cluster) (first : Operation) (rest : List Operation) :
    c.after (first :: rest) = (do (← c.perform first).after rest) := rfl

/-- A run goes on from where it stopped. -/
@[simp] theorem after_append (c : Cluster) (done more : List Operation) :
    c.after (done ++ more) = (do (← c.after done).after more) :=
  List.foldlM_append

/-- A message as operations. The hosts that discovery brings are taken into the table first. -/
def operationsOf (c : Cluster) (now : Nat) : ClusterUpdate → List Operation
  | .membership priority added removed =>
    [.outside (c.hosts.enrollAll added).2,
      .membership now priority (c.hosts.enrollAll added).1 removed]
  | .hosts desired => [.hosts now desired]
  | .config config => [.config now config]
  | .stop => []

/-- Whatever a cluster is told, runs of operations speak of it. -/
theorem handle_eq_after (c : Cluster) (now : Nat) (message : ClusterUpdate) :
    c.handle now message = c.after (c.operationsOf now message) := by
  cases message with
  | config config =>
    rw [handle, operationsOf, after_cons, perform]
    -- whether the configuration is taken or not, the cluster goes on, unless it overflows
    cases c.applyConfig now config <;> rfl
  | _ => rfl

/-! ### Health -/

/-- The checker of a cluster went on, with the same hosts under its watch, and what it reports
was noted; or there was nothing to do. -/
inductive Heard (c : Cluster) : Cluster → Prop where
  | nothing : Heard c c
  | reported {checker checker' : Checker} {hosts : HostTable} {changed : List Transition}
      (here : c.checker = some checker) (watch : checker.SameWatch checker')
      (reports : c.hosts.Reported hosts changed) :
      Heard c (({ c with checker := some checker', hosts } : Cluster).noteTransitions changed)

/-- Timers that come due are heard of, if health is checked at all. -/
theorem heard_fireDue {c : Cluster} {now : Nat} {jitter : Jitter}
    {after : Cluster × List ProbeRequest} (h : c.fireDue now jitter = .ok after) :
    c.Heard after.1 := by
  rw [fireDue] at h
  split at h
  · cases h
    exact .nothing
  next checker here =>
    obtain ⟨fired, hfired, h⟩ := Except.bind_eq_ok.1 h
    cases h
    exact .reported here (Checker.sameWatch_fireDue hfired) (Checker.reported_fireDue hfired)

/-- So is the result of a probe, unless another checker asked for it, or nobody checks any more. -/
theorem heard_deliver {c c' : Cluster} {now : Nat} {jitter : Jitter} {asker : Nat}
    {key : SessionKey} {probe : Nat} {result : Except ProbeError ProbeAnswer}
    (h : c.deliver now jitter asker key probe result = .ok c') : c.Heard c' := by
  rw [deliver] at h
  split at h
  · cases h
    exact .nothing
  · split at h
    · cases h
      exact .nothing
    next checker here =>
      obtain ⟨answered, hanswered, h⟩ := Except.bind_eq_ok.1 h
      cases h
      exact .reported here (Checker.sameWatch_deliver hanswered)
        (Checker.reported_deliver hanswered)

/-- The same as an operation. -/
theorem heard_timers {c c' : Cluster} {now : Nat} {jitter : Jitter}
    (h : c.perform (.timers now jitter) = .ok c') : c.Heard c' := by
  obtain ⟨after, hafter, rfl⟩ := Except.map_eq_ok.1 h
  exact heard_fireDue hafter

/-! ## New clusters -/

/-- A cluster of a configuration just before its first hosts come. -/
structure IsOpening (config : ClusterConfig) (transports : List ProbeKind) (numerics : Numerics)
    (c : Cluster) : Prop where
  valid : config.validate = .ok ()
  set : openingSet? config = some c.set
  hosts : c.hosts = .empty
  checker : buildChecker config transports = .ok c.checker
  balancing : Balancing.build config numerics 0 .empty (.empty config.common.overprovisioning)
    .new = .ok c.balancing
  config : c.config = config

/-- What a cluster is made of was made of a valid configuration. -/
theorem equip_eq_ok {config : ClusterConfig} {transports : List ProbeKind} {numerics : Numerics}
    {checker : Option Checker} {balancing : Balancing} :
    equip config transports numerics = .ok (checker, balancing) ↔
      config.validate = .ok () ∧ buildChecker config transports = .ok checker ∧
        Balancing.build config numerics 0 .empty (.empty config.common.overprovisioning) .new =
          .ok balancing := by
  rw [equip, Except.bind_eq_ok]
  constructor
  · rintro ⟨_, hvalid, h⟩
    obtain ⟨checker', hchecker, h⟩ := Except.bind_eq_ok.1 h
    obtain ⟨balancing', hbalancing, h⟩ := Except.bind_eq_ok.1 h
    cases h
    exact ⟨hvalid, hchecker, hbalancing⟩
  · rintro ⟨hvalid, hchecker, hbalancing⟩
    exact ⟨(), hvalid, by rw [hchecker, hbalancing]; rfl⟩

/-- A new cluster is one whose first hosts just came. -/
theorem exists_opening {config : ClusterConfig} {transports : List ProbeKind} {numerics : Numerics}
    {now : Nat} {c : Cluster} (h : Cluster.new config transports numerics now = .ok (.ok c)) :
    ∃ opening : Cluster, opening.IsOpening config transports numerics ∧
      c = (opening.reach now config.hosts).publish := by
  rw [Cluster.new] at h
  split at h
  · cases h
  next checker balancing hequip =>
    obtain ⟨hvalid, hchecker, hbalancing⟩ := equip_eq_ok.1 hequip
    split at h
    · cases h
    next set hset =>
      cases h
      exact ⟨_, ⟨hvalid, hset, rfl, hchecker, hbalancing, rfl⟩, rfl⟩

/-! ## Changes of configuration -/

section Levels

variable {s s' : PrioritySet} (t : HostTable)

/-- **What setting weights keeps, at any level**, giving all levels their weights keeps. -/
theorem weighLevels_induct {P : PrioritySet → Prop} {weights : SortedMap Nat LocalityWeights}
    (h : P s) (step : ∀ s p, P s → P (s.setLocalityWeights p ((weights.get? p).getD ∅)))
    (levels : Nat) : P (weighLevels s weights levels) := by
  refine List.foldlRecOn (motive := P) _ _ h ?_
  intro s ih p _
  dsimp only
  split
  · exact ih
  · exact step s p ih

/-- The same from the configured weights, if there are levels to give them to. -/
theorem applyLocalityWeights?_induct {P : PrioritySet → Prop} {configs : List LocalityWeightConfig}
    (given : applyLocalityWeights? s configs = some s') (h : P s)
    (step : ∀ s p, P s →
      P (s.setLocalityWeights p (((LocalityWeights.byPriority configs).get? p).getD ∅))) :
    P s' := by
  obtain ⟨weighted, -, hs'⟩ := Option.bind_eq_some_iff.1 given
  cases hs'
  exact weighLevels_induct h step _

/-- Whether the levels are given their weights is a matter of the weights alone. -/
theorem applyLocalityWeights?_eq_none_iff {configs : List LocalityWeightConfig} :
    applyLocalityWeights? s configs = none ↔
      weightedLevels? (LocalityWeights.byPriority configs) = none := by
  rw [applyLocalityWeights?]
  cases weightedLevels? (LocalityWeights.byPriority configs) <;> simp

/-- What lasts at every level lasts when all levels are given their weights. -/
theorem everywhere_applyLocalityWeights? {P : HostSet → Prop} {fit : LocalityWeights → Prop}
    {t : HostTable} {configs : List LocalityWeightConfig}
    (given : applyLocalityWeights? s configs = some s') (h : s.Everywhere P)
    (lasting : HostSet.Lasting P t fit)
    (hfit : ∀ p, fit (((LocalityWeights.byPriority configs).get? p).getD ∅)) : s'.Everywhere P :=
  applyLocalityWeights?_induct (P := fun s => s.Everywhere P) given h fun _ p ih =>
    ih.setLocalityWeights lasting p (hfit p)

/-- Configured weights are no hosts. -/
theorem hostsAt_applyLocalityWeights? {configs : List LocalityWeightConfig}
    (given : applyLocalityWeights? s configs = some s') (p : Nat) : s'.hostsAt p = s.hostsAt p := by
  refine applyLocalityWeights?_induct (P := fun s' => s'.hostsAt p = s.hostsAt p) given rfl ?_
  intro s' q ih
  rw [PrioritySet.hostsAt_setLocalityWeights, ih]

/-- Another factor changes no hosts. -/
@[simp] theorem hostsAt_withOverprovisioning (factor p : Nat) :
    (withOverprovisioning t s factor).hostsAt p = s.hostsAt p := by
  refine PrioritySet.hostsAt_foldl_levels (f := id) (PrioritySet.hostsAt_empty factor) rfl ?_ p
  intro s' l hempty p
  rw [copyLevel, PrioritySet.hostsAt_setLocalityWeights, PrioritySet.hostsAt_updateHosts, hempty]
  rfl

/-- What lasts at every level, and an empty one has under the new factor, all levels have under
it. -/
theorem everywhere_withOverprovisioning {P : HostSet → Prop} {fit : LocalityWeights → Prop}
    {t : HostTable} {factor : Nat} (fresh : ∀ p, P (.empty p factor))
    (lasting : HostSet.Lasting P t fit) (hfit : ∀ l ∈ s.levels, fit l.configuredWeights) :
    (withOverprovisioning t s factor).Everywhere P := by
  refine List.foldlRecOn (motive := fun s' : PrioritySet => s'.Everywhere P) _ _
    (PrioritySet.everywhere_empty fresh) ?_
  intro s' before l hl
  exact (before.updateHosts lasting l.priority l.hosts []).setLocalityWeights lasting l.priority
    (hfit l hl)

/-- Before the first hosts come, there are weights at most. -/
theorem IsOpening.nobody {config : ClusterConfig} {transports : List ProbeKind}
    {numerics : Numerics} {c : Cluster} (h : c.IsOpening config transports numerics) (p : Nat) :
    c.set.hostsAt p = [] := by
  rw [hostsAt_applyLocalityWeights? h.set]
  rfl

/-- So nobody is at any level. -/
theorem IsOpening.hosts_eq_nil {config : ClusterConfig} {transports : List ProbeKind}
    {numerics : Numerics} {c : Cluster} (h : c.IsOpening config transports numerics) :
    c.set.hosts = [] := by
  rw [List.eq_nil_iff_forall_not_mem]
  intro o ho
  obtain ⟨p, hp⟩ := PrioritySet.mem_hosts.1 ho
  rw [h.nobody] at hp
  cases hp

end Levels

end Cluster

/-! ## Membership changes in parts -/

namespace LevelChange

section Parts

variable {σ : Type} {hostsAt : σ → Nat → List Host} {carry : σ → LevelChange → σ}

/-- A way to carry out the parts of a membership change in which each part does what it says to
the hosts of its own level, and nothing to those of any other. -/
def CarriedOut (hostsAt : σ → Nat → List Host) (carry : σ → LevelChange → σ) : Prop :=
  ∀ (s : σ) (change : LevelChange) (p : Nat), hostsAt (carry s change) p =
    if p = change.priority then
      (hostsAt s p).filter (fun h => !HostSet.isDropped change.added change.removed h) ++
        change.added
    else hostsAt s p

/-- Levels that no part speaks of keep their hosts. -/
theorem CarriedOut.foldl_of_not_mem (carried : CarriedOut hostsAt carry)
    {levels : List LevelChange} {p : Nat} (h : p ∉ levels.map (·.priority)) (s : σ) :
    hostsAt (levels.foldl carry s) p = hostsAt s p := by
  induction levels generalizing s with
  | nil => rfl
  | cons change rest ih =>
    rw [List.map_cons, List.mem_cons, not_or] at h
    rw [List.foldl_cons, ih h.2, carried, if_neg h.1]

/-- Where each level is spoken of once, each part is what happens to the hosts of its level. -/
theorem CarriedOut.foldl_of_mem (carried : CarriedOut hostsAt carry)
    {levels : List LevelChange} (distinct : (levels.map (·.priority)).Nodup)
    {change : LevelChange} (hmem : change ∈ levels) (s : σ) :
    hostsAt (levels.foldl carry s) change.priority =
      (hostsAt s change.priority).filter
          (fun h => !HostSet.isDropped change.added change.removed h) ++ change.added := by
  induction levels generalizing s with
  | nil => cases hmem
  | cons first rest ih =>
    rw [List.map_cons, List.nodup_cons] at distinct
    rw [List.foldl_cons]
    rcases List.mem_cons.1 hmem with rfl | hrest
    · -- the parts after this one speak of other levels
      rw [carried.foldl_of_not_mem distinct.1, carried, if_pos rfl]
    · have hne : change.priority ≠ first.priority := by
        intro heq
        exact distinct.1 (heq ▸ List.mem_map_of_mem hrest)
      rw [ih distinct.2 hrest, carried, if_neg hne]

end Parts

end LevelChange

namespace Cluster

/-! ## Parts of operations -/

variable (c : Cluster)

/-- What is given other weights and another factor is the levels. -/
theorem adoptWeights?_eq_some {c' : Cluster} {config : ClusterConfig} :
    c.adoptWeights? config = some c' ↔ ∃ set, applyLocalityWeights?
        (if config.common.overprovisioning = c.set.overprovisioning then c.set
          else withOverprovisioning c.hosts c.set config.common.overprovisioning)
        config.localityWeights = some set ∧ c' = { c with set } := by
  rw [adoptWeights?]
  constructor
  · intro h
    obtain ⟨set, hset, h⟩ := Option.bind_eq_some_iff.1 h
    cases h
    exact ⟨set, hset, rfl⟩
  · rintro ⟨set, hset, rfl⟩
    exact Option.bind_eq_some_iff.2 ⟨set, hset, rfl⟩

/-- Whether a cluster takes configured weights is a matter of the weights alone, whatever it has by
then. -/
theorem adoptWeights?_eq_none_iff {config : ClusterConfig} :
    c.adoptWeights? config = none ↔
      weightedLevels? (LocalityWeights.byPriority config.localityWeights) = none := by
  rw [← applyLocalityWeights?_eq_none_iff (s := if config.common.overprovisioning =
      c.set.overprovisioning then c.set
    else withOverprovisioning c.hosts c.set config.common.overprovisioning), adoptWeights?]
  cases applyLocalityWeights? _ config.localityWeights <;> simp

/-- A new configuration brings other weights and another factor first, before any host. -/
theorem hostsAt_adoptWeights? {c' : Cluster} {config : ClusterConfig}
    (adopted : c.adoptWeights? config = some c') (p : Nat) :
    c'.set.hostsAt p = c.set.hostsAt p := by
  obtain ⟨set, hset, rfl⟩ := (adoptWeights?_eq_some c).1 adopted
  rw [hostsAt_applyLocalityWeights? hset]
  split <;> simp

/-- A refresh is no news for the checker. -/
@[simp] theorem checker_refresh : c.refresh.checker = c.checker := rfl

/-- It computes all levels anew. -/
@[simp] theorem set_refresh : c.refresh.set = c.set.refreshHealth c.hosts := rfl

/-- What the checker reported is no news for it. -/
@[simp] theorem checker_noteTransitions (changed : List Transition) :
    (c.noteTransitions changed).checker = c.checker := by
  rw [noteTransitions]
  split <;> simp

/-- Another health moves nobody. -/
@[simp] theorem hostsAt_noteTransitions (changed : List Transition) (p : Nat) :
    (c.noteTransitions changed).set.hostsAt p = c.set.hostsAt p := by
  rw [noteTransitions]
  split <;> simp

/-- Nor does the weight of a host, whether somebody is at the address or not. -/
@[simp] theorem hostsAt_setHostWeight (address : String) (weight p : Nat) :
    (c.setHostWeight address weight).2.set.hostsAt p = c.set.hostsAt p := by
  rw [setHostWeight]
  split
  · rfl
  · dsimp only
    split <;> simp

/-- Nor do weights of localities. -/
@[simp] theorem hostsAt_setLocalityWeights (priority : Nat) (weights : LocalityWeights) (p : Nat) :
    (c.setLocalityWeights priority weights).set.hostsAt p = c.set.hostsAt p := by
  rw [setLocalityWeights]
  simp

/-- Whatever the checker reports, nobody moves. -/
theorem Heard.hostsAt {c' : Cluster} (heard : c.Heard c') (p : Nat) :
    c'.set.hostsAt p = c.set.hostsAt p := by
  cases heard with
  | nothing => rfl
  | reported => exact hostsAt_noteTransitions _ _ p

/-- The checker is told before the levels change. -/
@[simp] theorem set_informChecker (now : Nat) (levels : List LevelChange) :
    (c.informChecker now levels).set = c.set := by
  rw [informChecker]
  split <;> rfl

/-- The levels change apart from the checker. -/
@[simp] theorem checker_applyLevel (change : LevelChange) :
    (c.applyLevel change).checker = c.checker := by
  rw [applyLevel]
  split <;> rfl

/-- A part of a membership change that is empty is not carried out; it would not do
anything either. -/
theorem hostsAt_applyLevel (change : LevelChange) (p : Nat) :
    (c.applyLevel change).set.hostsAt p =
      if p = change.priority then
        (c.set.hostsAt p).filter (fun h => !HostSet.isDropped change.added change.removed h) ++
          change.added
      else c.set.hostsAt p := by
  rw [applyLevel]
  split
  next h =>
    -- nobody comes and nobody leaves
    rw [LevelChange.isEmpty, Bool.and_eq_true, List.isEmpty_iff, List.isEmpty_iff] at h
    rw [h.1, h.2, HostSet.filter_isDropped_nil, List.append_nil, ite_self]
  next =>
    show (c.set.updateHosts c.hosts _ _ _).hostsAt p = _
    rw [PrioritySet.hostsAt_updateHosts]
    split
    next h => rw [h]
    next => rfl

/-- So do all the levels that a change speaks of. -/
theorem checker_applyLevels (levels : List LevelChange) :
    (levels.foldl applyLevel c).checker = c.checker := by
  refine List.foldlRecOn (motive := fun c' : Cluster => c'.checker = c.checker) _ _ rfl ?_
  intro c' ih change _
  rw [checker_applyLevel, ih]

/-- A membership change without any host is none. -/
theorem applyLevels_of_isEmpty {levels : List LevelChange}
    (h : levels.all (·.isEmpty) = true) : levels.foldl applyLevel c = c := by
  induction levels with
  | nil => rfl
  | cons change rest ih =>
    rw [List.all_cons, Bool.and_eq_true] at h
    rw [List.foldl_cons, applyLevel, if_pos h.1, ih h.2]

/-- A cluster carries out the parts of a change as they say. -/
theorem carriedOut_applyLevel :
    LevelChange.CarriedOut (fun c : Cluster => c.set.hostsAt) applyLevel :=
  hostsAt_applyLevel

/-- Levels that a membership change does not speak of keep their hosts. -/
theorem hostsAt_applyLevels_of_not_mem {levels : List LevelChange} {p : Nat}
    (h : p ∉ levels.map (·.priority)) :
    (levels.foldl applyLevel c).set.hostsAt p = c.set.hostsAt p :=
  carriedOut_applyLevel.foldl_of_not_mem h c

/-- Where a membership change speaks of each level once, each part of it is what happens
to the hosts of its level. -/
theorem hostsAt_applyLevels {levels : List LevelChange} (distinct : (levels.map (·.priority)).Nodup)
    {change : LevelChange} (hmem : change ∈ levels) :
    (levels.foldl applyLevel c).set.hostsAt change.priority =
      (c.set.hostsAt change.priority).filter
          (fun h => !HostSet.isDropped change.added change.removed h) ++ change.added :=
  carriedOut_applyLevel.foldl_of_mem distinct hmem c

/-- Of a membership change with its weights, the checker hears in the beginning only. -/
@[simp] theorem checker_applyChange (now : Nat) (change : MembershipChange) :
    (c.applyChange now change).checker = (c.informChecker now change.levels).checker := by
  rw [applyChange]
  dsimp only
  split <;> exact checker_applyLevels _ _

/-- The weights of hosts that come with a change are not in its levels. -/
@[simp] theorem set_applyChange (now : Nat) (change : MembershipChange) :
    (c.applyChange now change).set =
      (change.levels.foldl applyLevel (c.informChecker now change.levels)).set := by
  rw [applyChange]
  dsimp only
  split <;> rfl

end Cluster

/-! ## Changes towards a list of hosts -/

/-- Those who come and go are gathered by the levels they are at, each of which comes up once. -/
theorem LevelChange.levels_gather (added removed : List (Nat × Host)) :
    (gather added removed).map (·.priority) =
      (SortedMap.ofList ((added ++ removed).map fun h => (h.1, ()))).keys := by
  rw [gather, List.map_map]
  exact List.map_id _

/-- Hosts that come and go are gathered by level, lowest level first. -/
theorem LevelChange.ascending_gather (added removed : List (Nat × Host)) :
    ((gather added removed).map (·.priority)).Pairwise (· < ·) := by
  -- the levels are the keys of a map
  rw [levels_gather]
  exact (SortedMap.increasing_keys _).imp Nat.compare_eq_lt.1

/-- So there is one part for each level. -/
theorem LevelChange.nodup_gather (added removed : List (Nat × Host)) :
    ((gather added removed).map (·.priority)).Nodup :=
  (ascending_gather added removed).imp Nat.ne_of_lt

/-- The levels that come up are those of the hosts that come and go. -/
theorem LevelChange.mem_levels_gather {added removed : List (Nat × Host)} {p : Nat} :
    p ∈ (gather added removed).map (·.priority) ↔ p ∈ (added ++ removed).map (·.1) := by
  rw [levels_gather, SortedMap.mem_keys_ofList, List.map_map]
  rfl

/-- So the way to a list of hosts speaks of each level once. -/
theorem MembershipChange.nodup_toReach (t : HostTable) (s : PrioritySet)
    (desired : List HostConfig) :
    ((toReach t s desired).1.levels.map (·.priority)).Nodup :=
  LevelChange.nodup_gather _ _

end LoadBalancing
