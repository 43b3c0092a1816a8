/-
Numbers and counts that fit together, after any run.

The parts of a cluster are told about each other's changes, and some facts tie them together
whatever happens. The table knows the hosts of all levels by numbers of their own. The checker
has the checks of the configuration, of which there are no more than a host has verdicts. And
all levels have one factor, the one that new levels get.

For this it takes no more than that hosts come by numbers of their own and are not dropped from
the table while they are there. Addresses may repeat in any way.
-/
import LoadBalancing.Proofs.Cluster.Partitions
import LoadBalancing.Proofs.Cluster.Sessions

set_option autoImplicit false

namespace LoadBalancing

/-! ## One factor for all levels -/

/-- Nothing that happens to a level changes its factor. -/
theorem HostSet.lasting_factor (t : HostTable) (factor : Nat) :
    Lasting (fun l => l.overprovisioning = factor) t fun _ => True where
  update {l} added removed h := by
    rw [HostSet.update]
    split <;> exact h
  setLocalityWeights _ h := h
  refreshHealth h := h

namespace PrioritySet

variable {s : PrioritySet} {factor : Nat}

/-- All levels have a factor, and new ones get it. -/
def HasFactor (s : PrioritySet) (factor : Nat) : Prop :=
  s.Everywhere fun l => l.overprovisioning = factor

/-- A set without levels has the factor it was made with. -/
theorem hasFactor_empty (factor : Nat) : (empty factor).HasFactor factor :=
  everywhere_empty fun _ => rfl

/-- What new levels get shows in an empty one. -/
theorem HasFactor.overprovisioning (h : s.HasFactor factor) : s.overprovisioning = factor :=
  h.fresh 0

end PrioritySet

namespace Cluster

variable {c c' : Cluster} {p : Nat}

/-! ## What every run keeps -/

/-- Numbers and counts fit together: the table knows the hosts by numbers of their own, there
are `n` checks, not too many, and all levels have one factor. -/
structure Coherent (c : Cluster) (n : Nat) : Prop where
  numbers : c.hosts.Numbers c.set.hosts
  checks : checkCount c.checker = n
  few : n ≤ maxHealthChecks
  factor : ∃ factor, c.set.HasFactor factor

variable {n factor : Nat} (now : Nat)

/-- What moves no host, drops none from the table and leaves the checks as they are. -/
theorem Coherent.congr (coherent : c.Coherent n) (same : ∀ p, c'.set.hostsAt p = c.set.hostsAt p)
    (size : c.hosts.states.size ≤ c'.hosts.states.size)
    (checks : checkCount c'.checker = checkCount c.checker)
    (factor : ∃ factor, c'.set.HasFactor factor) : c'.Coherent n where
  numbers := by
    refine coherent.numbers.mono (fun o ho => ?_) size
    -- the table is asked about whole levels, so a host is looked up where it stands
    obtain ⟨p, hp⟩ := PrioritySet.mem_hosts.1 ho
    exact PrioritySet.mem_hosts.2 ⟨p, same p ▸ hp⟩
  checks := checks.trans coherent.checks
  few := coherent.few
  factor := factor

/-- A snapshot is made of what is there, and changes nothing of it. -/
theorem Coherent.publish (coherent : c.Coherent n) : c.publish.Coherent n :=
  ⟨coherent.numbers, coherent.checks, coherent.few, coherent.factor⟩

/-- Catching up with health moves no host and leaves the factor. -/
theorem Coherent.refresh (coherent : c.Coherent n) : c.refresh.Coherent n :=
  coherent.congr (PrioritySet.hostsAt_refreshHealth c.hosts) (Nat.le_refl _) rfl
    (coherent.factor.imp fun _ h => h.refreshHealth (HostSet.lasting_factor c.hosts _))

/-! ### Membership changes -/

/-- Hosts that come and go bring no checks. -/
theorem checkCount_informChecker (c : Cluster) (levels : List LevelChange) :
    checkCount (c.informChecker now levels).checker = checkCount c.checker := by
  -- without a checker there is nobody to tell
  cases hk : c.checker with
  | none => rw [checker_informChecker_none c now levels hk]
  | some k =>
    obtain ⟨k', hk', hears⟩ := hears_informChecker c now levels hk
    rw [hk', checkCount, checkCount, hears.checks]

/-- A membership change touches the hosts, the levels, the balancing and the checker. -/
theorem exists_applyChange_eq (c : Cluster) (change : MembershipChange) :
    ∃ hosts set balancing checker,
      c.applyChange now change = { c with hosts, set, balancing, checker } := by
  -- four fields at once, since the parts of a change follow one another and each writes several
  have told : ∃ hosts set balancing checker,
      c.told now change = { c with hosts, set, balancing, checker } := by
    refine List.foldlRecOn (motive := fun c' : Cluster => ∃ hosts set balancing checker,
      c' = { c with hosts, set, balancing, checker }) change.levels _ ?_ ?_
    · rw [informChecker]
      split
      · exact ⟨c.hosts, c.set, c.balancing, c.checker, rfl⟩
      · exact ⟨_, c.set, c.balancing, _, rfl⟩
    · rintro - ⟨hosts, set, balancing, checker, rfl⟩ l -
      rw [applyLevel]
      split
      · exact ⟨hosts, set, balancing, checker, rfl⟩
      · exact ⟨hosts, _, _, checker, rfl⟩
  obtain ⟨hosts, set, balancing, checker, heq⟩ := told
  rw [applyChange_eq]
  dsimp only
  rw [heq]
  split
  · exact ⟨_, set, _, checker, rfl⟩
  · exact ⟨_, set, balancing, checker, rfl⟩

/-- So the configuration stays, and the checker is no other one. -/
theorem config_applyChange (c : Cluster) (change : MembershipChange) :
    (c.applyChange now change).config = c.config ∧
      (c.applyChange now change).checkerNumber = c.checkerNumber := by
  obtain ⟨hosts, set, balancing, checker, heq⟩ := exists_applyChange_eq now c change
  rw [heq]
  exact ⟨rfl, rfl⟩

/-- The same holds where the hosts are taken into the table first. -/
theorem config_reach (c : Cluster) (desired : List HostConfig) :
    (c.reach now desired).config = c.config ∧
      (c.reach now desired).checkerNumber = c.checkerNumber :=
  config_applyChange now (c.withArrivals desired) _

/-- Each part of a change finds its level with the factor, or makes it with the factor. -/
theorem hasFactor_applyLevels (h : c.set.HasFactor factor) (levels : List LevelChange) :
    (levels.foldl applyLevel c).set.HasFactor factor := by
  refine List.foldlRecOn (motive := fun c' : Cluster => c'.set.HasFactor factor) levels _ h ?_
  intro c' before l _
  rw [applyLevel]
  split
  · exact before
  -- the level may be a new one, so the factor of new levels is what counts here
  · exact before.updateHosts (HostSet.lasting_factor c'.hosts factor) l.priority l.added l.removed

/-- A membership change leaves the factor as it is. -/
theorem hasFactor_applyChange (h : c.set.HasFactor factor) (change : MembershipChange) :
    (c.applyChange now change).set.HasFactor factor := by
  rw [set_applyChange]
  refine hasFactor_applyLevels ?_ change.levels
  rw [set_informChecker]
  exact h

/-- The table that a membership change leaves: verdicts of new sessions first, and weights over
it. -/
theorem hosts_applyChange (c : Cluster) (now : Nat) (change : MembershipChange) :
    (c.applyChange now change).hosts =
      (setWeights (c.informChecker now change.levels).hosts change.weights).2 := by
  rw [applyChange_eq, ← hosts_told]
  dsimp only
  split <;> rfl

/-- **A membership change** keeps numbers and counts fitting together, if the hosts that come are
known by numbers of their own. -/
theorem Coherent.applyChange (coherent : c.Coherent n) (change : MembershipChange)
    (numbers : c.hosts.Numbers (c.set.hosts ++ change.levels.flatMap (·.added))) :
    (c.applyChange now change).Coherent n where
  numbers := by
    have told : (c.told now change).hosts.Numbers (c.told now change).set.hosts :=
      numbers_told numbers
    rw [hosts_told] at told
    rw [hosts_applyChange, set_applyChange]
    -- weights come last, and they add no hosts
    exact told.mono (List.Subset.refl _) (HostTable.advances_setWeights _ change.weights).size
  checks := by
    rw [checker_applyChange, checkCount_informChecker, coherent.checks]
  few := coherent.few
  factor := coherent.factor.imp fun _ h => hasFactor_applyChange now h change

/-- The hosts that a list brings are taken into the table under new numbers, so they always are. -/
theorem Coherent.reach (coherent : c.Coherent n) (desired : List HostConfig) :
    (c.reach now desired).Coherent n := by
  have arrived : (c.withArrivals desired).Coherent n :=
    coherent.congr (fun _ => rfl) (HostTable.advances_enrollAll c.hosts _).size rfl coherent.factor
  -- those who come have the numbers behind all others, those who are there have theirs still
  refine arrived.applyChange now _
    ((coherent.numbers.enrollAll _).mono (List.append_subset.2 ⟨?_, fun o ho => ?_⟩)
      (Nat.le_refl _))
  · exact List.subset_append_left _ _
  · exact List.mem_append_right _ (mem_added_toReach ho)

/-! ### Changes of configuration -/

/-- A checker has all checks of the configuration, and they are not too many, or it could not be
built. -/
theorem checkCount_of_buildChecker {config : ClusterConfig} {transports : List ProbeKind}
    {checker : Option Checker} (built : buildChecker config transports = .ok checker) :
    checkCount checker = config.checks.length ∧ config.checks.length ≤ maxHealthChecks := by
  rw [buildChecker] at built
  split at built
  next hnone =>
    cases built
    rw [List.isEmpty_iff.1 hnone]
    exact ⟨rfl, Nat.zero_le _⟩
  · obtain ⟨k, hnew, rfl⟩ := Except.map_eq_ok.1 built
    obtain ⟨-, hlength, hfew⟩ := Checker.eq_fresh_of_new hnew
    exact ⟨hlength, hlength ▸ hfew⟩

variable {config : ClusterConfig} {checker : Option (Option Checker)}

/-- There is a new checker exactly if the checks are others. -/
theorem checks_of_prepare (prepared : c.prepare config = .ok checker) :
    (checker = none ∧ config.checks = c.config.checks) ∨
      ∃ next, checker = some next ∧ config.checks ≠ c.config.checks ∧
        buildChecker config c.transports = .ok next := by
  have next := prepared
  rw [prepare_eq] at next
  obtain ⟨-, -, next⟩ := Except.bind_eq_ok.1 next
  -- what the preparation looks at last, the balancing, does not touch the checker
  obtain ⟨checker', hnext, next⟩ := Except.bind_eq_ok.1 next
  obtain ⟨-, -, rfl⟩ := Except.map_eq_ok.1 next
  rw [nextChecker] at hnext
  split at hnext
  next hsame =>
    cases hnext
    exact .inl ⟨rfl, hsame⟩
  next hother =>
    obtain ⟨built, hbuilt, rfl⟩ := Except.map_eq_ok.1 hnext
    exact .inr ⟨built, rfl, hother, hbuilt⟩

/-- The checks are those of the new checker, however many hosts it takes over. -/
theorem checkCount_replaceChecker (c : Cluster) (next : Option Checker) :
    checkCount (c.replaceChecker now next).checker = checkCount next := by
  cases next with
  | none => rfl
  | some k =>
    rw [replaceChecker]
    exact congrArg List.length (k.hears_adopt _ now c.set.hosts).checks

/-- With the new checker, the count is that of the new configuration. -/
theorem Coherent.adoptChecker (coherent : c.Coherent c.config.checks.length)
    (prepared : c.prepare config = .ok checker) :
    (c.adoptChecker now checker).Coherent config.checks.length := by
  -- with the same checks the old checker stays, and it has as many
  rcases checks_of_prepare prepared with ⟨rfl, hsame⟩ | ⟨next, rfl, -, hbuilt⟩
  · rw [hsame]
    exact coherent
  · obtain ⟨hcount, hfew⟩ := checkCount_of_buildChecker hbuilt
    have hset := set_adoptChecker c now (some next)
    exact
      { numbers := by
          rw [hset]
          exact coherent.numbers.mono (List.Subset.refl _) (size_adoptChecker c now (some next))
        checks := (checkCount_replaceChecker now c next).trans hcount
        few := hfew
        factor := by
          rw [hset]
          exact coherent.factor }

/-- The factor is the configured one, whether the levels had it already or were built anew. -/
theorem hasFactor_adoptWeights? (h : c.set.HasFactor factor)
    (adopted : c.adoptWeights? config = some c') :
    c'.set.HasFactor config.common.overprovisioning := by
  obtain ⟨set, hset, rfl⟩ := (adoptWeights?_eq_some c).1 adopted
  have lasting := HostSet.lasting_factor c.hosts config.common.overprovisioning
  refine everywhere_applyLocalityWeights? hset ?_ lasting fun _ => trivial
  split
  next hsame =>
    -- the levels stay as they are, and their factor is the one that is asked for
    rw [hsame, h.overprovisioning]
    exact h
  next => exact everywhere_withOverprovisioning (fun _ => rfl) lasting fun _ _ => trivial

/-- The hosts of a configuration come to levels with the factor that is there by then. -/
theorem hasFactor_adoptHosts (h : c.set.HasFactor factor) (config : ClusterConfig) :
    (c.adoptHosts now config).set.HasFactor factor := by
  have reached : (c.reach now config.hosts).set.HasFactor factor :=
    hasFactor_applyChange now (c := c.withArrivals config.hosts) h _
  exact reached.refreshHealth (HostSet.lasting_factor _ factor)

/-- Weights and a factor move no host. The levels have some factor before, and the configured one
after. -/
theorem Coherent.adoptWeights? (coherent : c.Coherent n)
    (adopted : c.adoptWeights? config = some c') : c'.Coherent n := by
  obtain ⟨factor, hfactor⟩ := coherent.factor
  have weighed := hasFactor_adoptWeights? hfactor adopted
  have same := hostsAt_adoptWeights? c adopted
  obtain ⟨set, -, rfl⟩ := (adoptWeights?_eq_some c).1 adopted
  exact coherent.congr same (Nat.le_refl _) rfl ⟨_, weighed⟩

/-- The hosts of a configuration come like any others, and partitions catch up. -/
theorem Coherent.adoptHosts (coherent : c.Coherent n) (config : ClusterConfig) :
    (c.adoptHosts now config).Coherent n := by
  have reached := coherent.reach now config.hosts
  exact reached.congr (PrioritySet.hostsAt_refreshHealth _) (Nat.le_refl _) rfl
    (coherent.factor.imp fun _ h => hasFactor_adoptHosts now h config)

/-- **A configuration** is turned down or taken; either way the count is that of the configuration
which the cluster has in the end. -/
theorem Coherent.configured (coherent : c.Coherent c.config.checks.length)
    {result : Except ConfigError Unit} (configured : c.Configured now config result c') :
    c'.Coherent c'.config.checks.length := by
  cases configured with
  | turnedDown => exact coherent
  | taken prepared adopted built =>
    -- the steps of the change in their order, the checker first
    have arrived := ((coherent.adoptChecker now prepared).adoptWeights? adopted).adoptHosts now
      config
    exact arrived.congr (fun _ => rfl) (Nat.le_refl _) rfl arrived.factor

/-! ### Runs -/

/-- Notes of verdicts publish at most. -/
theorem Coherent.noteTransitions (coherent : c.Coherent n) (changed : List Transition) :
    (c.noteTransitions changed).Coherent n := by
  rw [Cluster.noteTransitions]
  split
  · exact coherent.refresh
  · exact coherent

/-- A note of verdicts is no other configuration. -/
theorem config_noteTransitions (c : Cluster) (changed : List Transition) :
    (c.noteTransitions changed).config = c.config := by
  rw [noteTransitions]
  split <;> rfl

/-- What an operation may bring: hosts that the table knows by numbers of their own, and a table
that has all hosts still. -/
def Operation.Known (c : Cluster) : Operation → Prop
  | .membership _ _ added _ => c.hosts.Numbers (c.set.hosts ++ added)
  | .outside table => c.hosts.states.size ≤ table.states.size
  | _ => True

/-- Whatever a checker hears, it keeps its checks, and it writes verdicts about hosts that the table
has. -/
theorem Coherent.heard (coherent : c.Coherent n) (heard : c.Heard c') : c'.Coherent n := by
  cases heard with
  | nothing => exact coherent
  | reported here watch reports =>
    apply Coherent.noteTransitions
    refine coherent.congr (fun _ => rfl) reports.size ?_ coherent.factor
    rw [here]
    exact congrArg List.length watch.checks

/-- A weight that is set from outside leaves the hosts where they are. -/
theorem Coherent.setHostWeight (coherent : c.Coherent n) (address : String) (weight : Nat) :
    (c.setHostWeight address weight).2.Coherent n := by
  rw [Cluster.setHostWeight]
  split
  · exact coherent
  next host _ =>
    have weighted : ({ c with hosts := (c.hosts.setWeight host weight).2 } : Cluster).Coherent n :=
      coherent.congr (fun _ => rfl) (HostTable.advances_setWeight c.hosts host weight).size rfl
        coherent.factor
    dsimp only
    split
    · exact weighted.refresh
    · exact weighted

/-- Replaced hosts come and go like any others; the checks stay. -/
theorem Coherent.setHosts (coherent : c.Coherent n) (desired : List HostConfig) :
    (c.setHosts now desired).Coherent n := by
  have reached := coherent.reach now desired
  rw [Cluster.setHosts]
  dsimp only
  split
  · exact coherent
  · exact reached.congr (fun _ => rfl) (Nat.le_refl _) rfl reached.factor

/-- What a checker hears is no other configuration. -/
theorem config_heard (heard : c.Heard c') : c'.config = c.config := by
  cases heard with
  | nothing => rfl
  | reported => exact config_noteTransitions _ _

/-- A weight is no part of what the cluster keeps of its configuration. -/
theorem config_setHostWeight (c : Cluster) (address : String) (weight : Nat) :
    (c.setHostWeight address weight).2.config = c.config := by
  rw [Cluster.setHostWeight]
  split
  · rfl
  · dsimp only
    split <;> rfl

/-- A list of hosts is a part of the configuration, and its checks are another one. -/
theorem checks_setHosts (c : Cluster) (desired : List HostConfig) :
    (c.setHosts now desired).config.checks = c.config.checks := by
  have hchecks := congrArg ClusterConfig.checks (config_reach now c desired).1
  rw [Cluster.setHosts]
  dsimp only
  split
  · rfl
  · exact hchecks

/-- **One operation** leaves numbers and counts fitting together. Only a configuration brings
other checks. -/
theorem Coherent.perform (coherent : c.Coherent c.config.checks.length) {operation : Operation}
    (known : operation.Known c) (done : c.perform operation = .ok c') :
    c'.Coherent c'.config.checks.length := by
  cases operation with
  | membership now priority added removed =>
    cases done
    have changed : (c.applyChange now
        ⟨[.ofAddresses c.set priority added removed], []⟩).Coherent c.config.checks.length := by
      refine coherent.applyChange now _ ?_
      rw [List.flatMap_singleton]
      exact known
    -- the change is published as it stands, under the old configuration
    rw [← (config_applyChange now c _).1] at changed
    exact changed.publish
  | hosts now desired =>
    cases done
    rw [checks_setHosts]
    exact coherent.setHosts now desired
  | config now config =>
    obtain ⟨result, configured⟩ := configured_of_perform done
    exact coherent.configured now configured
  | hostWeight address weight =>
    cases done
    rw [config_setHostWeight]
    exact coherent.setHostWeight address weight
  | localityWeights priority weights =>
    cases done
    have weighted : ({ c with set := c.set.setLocalityWeights priority weights } :
        Cluster).Coherent c.config.checks.length :=
      coherent.congr (fun p => PrioritySet.hostsAt_setLocalityWeights priority p weights)
        (Nat.le_refl _) rfl (coherent.factor.imp fun _ h =>
          h.setLocalityWeights (HostSet.lasting_factor c.hosts _) priority trivial)
    exact weighted.refresh
  | timers now jitter =>
    rw [config_heard (heard_timers done)]
    exact coherent.heard (heard_timers done)
  | result now jitter asker key probe result =>
    rw [config_heard (heard_deliver done)]
    exact coherent.heard (heard_deliver done)
  | transitions changed =>
    cases done
    rw [config_noteTransitions]
    exact coherent.noteTransitions changed
  | outside table =>
    cases done
    exact coherent.congr (fun _ => rfl) known rfl coherent.factor

/-- A cluster that came about by some operations, each of which brought known hosts. -/
inductive Reached : Cluster → Prop where
  | start {config : ClusterConfig} {transports : List ProbeKind} {numerics : Numerics} {now : Nat}
      {c : Cluster} : Cluster.new config transports numerics now = .ok (.ok c) → Reached c
  | step {c c' : Cluster} (operation : Operation) :
      Reached c → operation.Known c → c.perform operation = .ok c' → Reached c'

/-- A new cluster has the configuration it was built from. -/
theorem config_new {config : ClusterConfig} {transports : List ProbeKind} {numerics : Numerics}
    {now : Nat} (h : Cluster.new config transports numerics now = .ok (.ok c)) :
    c.config = config := by
  obtain ⟨opening, isOpening, rfl⟩ := exists_opening h
  exact (config_reach now opening config.hosts).1.trans isOpening.config

/-- A new cluster begins with numbers and counts that fit together. -/
theorem coherent_new {config : ClusterConfig} {transports : List ProbeKind} {numerics : Numerics}
    {now : Nat} (h : Cluster.new config transports numerics now = .ok (.ok c)) :
    c.Coherent c.config.checks.length := by
  rw [config_new h]
  obtain ⟨opening, isOpening, rfl⟩ := exists_opening h
  -- before the first hosts there is nothing but the checks and the factor
  obtain ⟨hcount, hfew⟩ := checkCount_of_buildChecker isOpening.checker
  have coherent : opening.Coherent config.checks.length :=
    { numbers := by
        rw [isOpening.hosts_eq_nil]
        exact ⟨by simp, by simp⟩
      checks := hcount
      few := hfew
      factor := ⟨_, everywhere_applyLocalityWeights? isOpening.set (PrioritySet.hasFactor_empty _)
        (HostSet.lasting_factor .empty _) fun _ => trivial⟩ }
  have reached := coherent.reach now config.hosts
  exact reached.congr (fun _ => rfl) (Nat.le_refl _) rfl reached.factor

/-- **Any run** keeps numbers and counts fitting together. -/
theorem Reached.coherent (reached : Reached c) : c.Coherent c.config.checks.length := by
  induction reached with
  | start h => exact coherent_new h
  | step _ _ known done ih => exact ih.perform known done

end Cluster

end LoadBalancing
