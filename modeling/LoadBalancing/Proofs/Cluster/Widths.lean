/-
The sums of a new cluster stay within their words, those of its subsets as well.

Levels and weights are followed from the first steps of the build to its end. What bounds the
sums is that a cluster has no more hosts than its configuration (`Cluster.length_hosts_new`).
-/
import LoadBalancing.Proofs.Cluster.LocalityWeights
import LoadBalancing.Proofs.Cluster.Partitions
import LoadBalancing.Proofs.Subset.Widths

set_option autoImplicit false

namespace LoadBalancing

/-- Gathered weights are weights that are listed. -/
theorem LocalityWeights.words_gathered {configs : List LocalityWeightConfig}
    (words : ∀ w ∈ configs, w.weight < 2 ^ 32) (p : Nat) : (gathered configs p).Words := by
  induction configs using List.reverseRecOn with
  | nil => exact words_empty
  | append_singleton configs w ih =>
    specialize ih fun w hw => words w (List.mem_append_left _ hw)
    have hlast := words w (List.mem_append_right _ List.mem_cons_self)
    rw [gathered, byPriority_concat, SortedMap.get?_insert]
    split
    next hp =>
      -- the last weight for a locality is the one that counts, and the others were gathered before
      intro l weight hweight
      rw [Option.getD_some, SortedMap.get?_insert] at hweight
      split at hweight
      · cases hweight
        exact hlast
      · rw [← hp] at hweight
        exact ih l weight hweight
    next => exact ih

/-- New sessions write verdicts, and no weights. -/
theorem Checker.words_add (c : Checker) {t : HostTable} (h : t.Words) (now : Nat)
    (hosts : List Host) : (c.add t now hosts).2.Words := by
  refine List.foldlRecOn (motive := fun s : Checker × HostTable => s.2.Words) hosts _ h ?_
  rintro ⟨c', t'⟩ ih host _
  refine List.foldlRecOn (motive := fun s : Checker × HostTable => s.2.Words) c'.checks.zipIdx _
    ih ?_
  rintro ⟨c'', t''⟩ ih' ⟨settings, index⟩ _
  exact ih'.setVerdict host index _

namespace Cluster

/-! ## Weights -/

/-- Weights that are words stay words one after the other. -/
theorem words_setWeights {t : HostTable} (h : t.Words) {weights : List (Host × Nat)}
    (words : ∀ w ∈ weights, w.2 < 2 ^ 32) : (setWeights t weights).2.Words := by
  refine List.foldlRecOn (motive := fun s : Bool × HostTable => s.2.Words) _ _ h ?_
  intro s ih w hw
  exact ih.setWeight w.1 (words w hw)

variable {c : Cluster}

/-- The checker hears of hosts, and their weights stay as they are. -/
theorem words_informChecker (h : c.hosts.Words) (now : Nat) (levels : List LevelChange) :
    (c.informChecker now levels).hosts.Words := by
  rw [informChecker]
  split
  · exact h
  · refine List.foldlRecOn (motive := fun s : Checker × HostTable => s.2.Words) levels _ h ?_
    rintro ⟨checker, t⟩ ih change _
    exact checker.words_add ih now change.added

/-- **A membership change** sets weights that are words to words. -/
theorem words_applyChange (h : c.hosts.Words) (now : Nat) {change : MembershipChange}
    (words : ∀ w ∈ change.weights, w.2 < 2 ^ 32) : (c.applyChange now change).hosts.Words := by
  have hset := words_setWeights (t := (c.told now change).hosts)
    (hosts_told c now change ▸ words_informChecker h now change.levels) words
  rw [applyChange]
  dsimp only
  split <;> exact hset

/-- So do the weights of a list of hosts, whether a host on it is kept or comes anew. -/
theorem words_reach (h : c.hosts.Words) (now : Nat) {desired : List HostConfig}
    (words : ∀ d ∈ desired, d.weight < 2 ^ 32) : (c.reach now desired).hosts.Words := by
  rw [reach]
  refine words_applyChange (h.enrollAll fun d hd => words d (List.mem_filter.1 hd).1) now ?_
  intro w hw
  obtain ⟨d, hd, heq⟩ := List.mem_filterMap.1 hw
  split at heq
  · split at heq
    · cases heq
    · cases heq
      exact words d hd
  · cases heq

/-! ## Levels -/

/-- The levels of a cluster are regular, and those of its subsets as well. -/
structure Regular (c : Cluster) (factor : Nat) : Prop where
  set : c.set.Regular factor
  engine : ∀ e, c.balancing.engine? = some e → e.plan.numerics.Words ∧ e.Regular factor

variable {factor : Nat}

/-- What is not looked at may be anything. -/
theorem Regular.congr {c' : Cluster} (h : c.Regular factor) (set : c'.set = c.set)
    (engine : c'.balancing.engine? = c.balancing.engine?) : c'.Regular factor :=
  ⟨set ▸ h.set, engine ▸ h.engine⟩

/-- **One part of a change.** -/
theorem Regular.applyLevel (h : c.Regular factor) (change : LevelChange) :
    (c.applyLevel change).Regular factor := by
  rw [Cluster.applyLevel]
  split
  · exact h
  · have hset := h.set.updateHosts (HostSet.lasting_regular c.hosts) change.priority change.added
      change.removed
    refine ⟨hset, fun e he => ?_⟩
    rw [Balancing.engine?_update] at he
    obtain ⟨engine, hb, rfl⟩ := Option.map_eq_some_iff.1 he
    obtain ⟨words, regular⟩ := h.engine engine hb
    -- the plan says how weights are scaled, and no change replaces it
    rw [SubsetEngine.plan_update]
    exact ⟨words, regular.update words hset c.hosts _ _ _⟩

/-- A change is its parts one after the other, and perhaps all subsets catching up with the
weights. -/
theorem Regular.applyChange (h : c.Regular factor) (now : Nat) (change : MembershipChange) :
    (c.applyChange now change).Regular factor := by
  have informed : (c.informChecker now change.levels).Regular factor :=
    h.congr (set_informChecker c now _)
      (congrArg Balancing.engine? (balancing_informChecker c now change.levels))
  have told : (c.told now change).Regular factor :=
    List.foldlRecOn (motive := fun c : Cluster => c.Regular factor) _ _ informed
      fun c h part _ => h.applyLevel part
  rw [applyChange_eq]
  dsimp only
  split
  · refine ⟨told.set, fun e he => ?_⟩
    rw [Balancing.engine?_refresh] at he
    obtain ⟨engine, hb, rfl⟩ := Option.map_eq_some_iff.1 he
    obtain ⟨words, regular⟩ := told.engine engine hb
    exact ⟨words, regular.refresh words told.set _⟩
  · exact told.congr rfl rfl

/-- Live parts of hosts are nothing that levels are built of. -/
theorem Regular.outside (h : c.Regular factor) (hosts : HostTable) :
    ({ c with hosts } : Cluster).Regular factor :=
  h.congr rfl rfl

/-- **The hosts of a list** come to regular levels. -/
theorem Regular.reach (h : c.Regular factor) (now : Nat) (desired : List HostConfig) :
    (c.reach now desired).Regular factor :=
  (h.outside _).applyChange now _

/-! ## Numbers of hosts -/

/-- No subset has more hosts than the cluster, at any level. -/
def Within (c : Cluster) : Prop :=
  ∀ e, c.balancing.engine? = some e → e.Throughout (HostSubset.Within c.set)

/-- What is not looked at may be anything. -/
theorem Within.congr {c' : Cluster} (h : c.Within) (set : c'.set = c.set)
    (engine : c'.balancing.engine? = c.balancing.engine?) : c'.Within := by
  rw [Within, set, engine]
  exact h

/-- The first hosts of a level come. -/
theorem Within.applyLevel (h : c.Within) {change : LevelChange}
    (nobody : c.set.hostsAt change.priority = []) : (c.applyLevel change).Within := by
  have hosts (p : Nat) : (c.applyLevel change).set.hostsAt p =
      if p = change.priority then change.added else c.set.hostsAt p := by
    rw [hostsAt_applyLevel]
    split
    next hp => rw [hp, nobody, List.filter_nil, List.nil_append]
    next => rfl
  -- a part without hosts is passed over, and then the engine is the one there was
  rcases engine?_applyLevel c change with same | updated
  · intro e he
    rw [same] at he
    exact (h e he).imp fun s hs => hs.mono nobody hosts
  · intro e he
    rw [updated] at he
    obtain ⟨engine, hb, rfl⟩ := Option.map_eq_some_iff.1 he
    exact (h engine hb).update (fun s w hs => hs.update nobody hosts w)
      (fun s hs => hs.mono nobody hosts) fun tuple w => HostSubset.within_new _ _ tuple _ w

/-- The first hosts of several levels come. -/
theorem Within.applyLevels (h : c.Within) {levels : List LevelChange}
    (distinct : (levels.map (·.priority)).Nodup)
    (nobody : ∀ change ∈ levels, c.set.hostsAt change.priority = []) :
    (levels.foldl Cluster.applyLevel c).Within := by
  induction levels generalizing c with
  | nil => exact h
  | cons first rest ih =>
    rw [List.map_cons, List.nodup_cons] at distinct
    rw [List.foldl_cons]
    refine ih (h.applyLevel (nobody first List.mem_cons_self)) distinct.2 fun change hchange => ?_
    -- the first part filled its own level, and the others speak of levels that are still empty
    have hne : change.priority ≠ first.priority := by
      intro heq
      exact distinct.1 (heq ▸ List.mem_map_of_mem hchange)
    rw [hostsAt_applyLevel, if_neg hne]
    exact nobody change (List.mem_cons_of_mem _ hchange)

/-- The first hosts come in one change. -/
theorem Within.applyChange (h : c.Within) (nobody : ∀ p, c.set.hostsAt p = []) (now : Nat)
    {change : MembershipChange} (distinct : (change.levels.map (·.priority)).Nodup) :
    (c.applyChange now change).Within := by
  have informed : (c.informChecker now change.levels).Within :=
    h.congr (set_informChecker c now _)
      (congrArg Balancing.engine? (balancing_informChecker c now _))
  -- each level is empty when its part comes
  have told : (c.told now change).Within := by
    refine informed.applyLevels distinct fun part _ => ?_
    rw [set_informChecker]
    exact nobody part.priority
  rw [applyChange_eq]
  dsimp only
  split
  · intro e he
    rw [Balancing.engine?_refresh] at he
    obtain ⟨engine, hb, rfl⟩ := Option.map_eq_some_iff.1 he
    exact (told engine hb).refresh fun s w hs => hs.refresh w
  · exact told.congr rfl rfl

/-- The live part of the hosts does not count. -/
theorem Within.outside (h : c.Within) (hosts : HostTable) :
    ({ c with hosts } : Cluster).Within :=
  h.congr rfl rfl

/-- The first hosts of a cluster come. -/
theorem Within.reach (h : c.Within) (nobody : ∀ p, c.set.hostsAt p = []) (now : Nat)
    (desired : List HostConfig) : (c.reach now desired).Within := by
  refine Within.applyChange (h.outside _) ?_ now ?_
  · exact nobody
  · exact MembershipChange.nodup_toReach c.hosts c.set desired

/-! ## New clusters -/

/-- A cluster is regular before its first hosts come. -/
theorem IsOpening.regular {config : ClusterConfig} {transports : List ProbeKind}
    {numerics : Numerics} (h : c.IsOpening config transports numerics) (words : numerics.Words)
    (weights : ∀ w ∈ config.localityWeights, w.weight < 2 ^ 32) :
    c.Regular config.common.overprovisioning := by
  have started := PrioritySet.regular_empty config.common.overprovisioning
  constructor
  · exact everywhere_applyLocalityWeights? h.set started (HostSet.lasting_regular .empty)
      (LocalityWeights.words_gathered weights)
  · intro e he
    obtain ⟨plan, rfl, rfl⟩ := engine_of_build h.balancing he
    have planned : (SubsetEngine.new plan 0 .empty (.empty config.common.overprovisioning)
      .new).plan = plan := rfl
    rw [planned]
    exact ⟨words, SubsetEngine.regular_new words started 0 .empty .new⟩

/-- Where nobody is, subsets have nobody. -/
theorem IsOpening.within {config : ClusterConfig} {transports : List ProbeKind}
    {numerics : Numerics} (h : c.IsOpening config transports numerics) : c.Within := by
  intro e he
  refine (h.inStep.engine e he).throughout.imp fun s hs p => ?_
  rw [hs.hosts]
  exact List.length_filter_le _ _

/-- Whoever is there at the end was there before, or is on the list. -/
theorem mem_hosts_reach {now : Nat} {desired : List HostConfig} {h : Host}
    (hmem : h ∈ (c.reach now desired).set.hosts) :
    h ∈ c.set.hosts ∨ ∃ d ∈ desired, d.address = h.address := by
  obtain ⟨p, hp⟩ := PrioritySet.mem_hosts.1 hmem
  rw [reach, MembershipChange.toReach] at hp
  dsimp only at hp
  rw [changes_gather { c with hosts := _ }, List.mem_append] at hp
  rcases hp with hkept | hcame
  · exact .inl (PrioritySet.mem_hosts.2 ⟨p, (List.mem_filter.1 hkept).1⟩)
  · rw [LevelChange.mem_atLevel] at hcame
    obtain ⟨d, hd, -, haddress, -⟩ := HostTable.exists_of_mem_zip_enrollAll hcame
    exact .inr ⟨d, (List.mem_filter.1 hd).1, haddress.symm⟩

/-- A new cluster has no more hosts than its configuration. -/
theorem length_hosts_new {config : ClusterConfig} {transports : List ProbeKind}
    {numerics : Numerics} {now : Nat}
    (h : Cluster.new config transports numerics now = .ok (.ok c)) :
    c.set.hosts.length ≤ config.hosts.length := by
  have distinct := distinct_new h
  obtain ⟨opening, isOpening, rfl⟩ := exists_opening h
  have addresses : (opening.reach now config.hosts).set.hosts.map (·.address) ⊆
      config.hosts.map (·.address) := by
    intro address haddress
    obtain ⟨o, ho, rfl⟩ := List.mem_map.1 haddress
    rcases mem_hosts_reach ho with hbefore | ⟨d, hd, heq⟩
    · rw [isOpening.hosts_eq_nil] at hbefore
      cases hbefore
    · exact List.mem_map.2 ⟨d, hd, heq⟩
  have hle := (List.subperm_of_subset distinct addresses).length_le
  rwa [List.length_map, List.length_map] at hle

/-- What shares are computed from fits its words, in the cluster and in its subsets. -/
structure Fits (c : Cluster) : Prop where
  set : c.set.Fits c.hosts
  engine : ∀ e, c.balancing.engine? = some e → e.Throughout fun s => s.set.Fits c.hosts

end Cluster

end LoadBalancing
