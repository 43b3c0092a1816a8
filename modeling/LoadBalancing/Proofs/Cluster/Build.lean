/-
A configuration that validates can be built, and what is built is what it says.

Validation (`validate_cluster`) and building (`Cluster::new`) are apart. The one lists what is
wrong with every part, the other reads the parts and gives up at the first that it cannot use.
They go by the same rules, so each error of building has its finding (`Cluster.exists_equip`);
what is left is whether there are transports for the probes, and that is not a matter of the
configuration.

Numbers are another matter. Validation lets every number pass that a field can hold, and what
is computed from them has to fit its words as well. There is one number too many: locality
weights for the last of all priorities pass, and the count of the levels overflows. Such a
configuration is not refused, and no cluster comes of it (`Cluster.new_of_validate`).
-/
import LoadBalancing.Proofs.Check.Operations
import LoadBalancing.Proofs.Cluster.Rejection
import LoadBalancing.Proofs.Cluster.Widths

set_option autoImplicit false

namespace LoadBalancing

/-! ## Health checks -/

theorem ProbePayload.kind_of_ofConfig {config : ProbeConfig} {payload : ProbePayload}
    (h : ofConfig config = .ok payload) : payload.kind = config.kind := by
  cases config with
  | tcp send receive =>
    rw [ofConfig.eq_def] at h
    -- with bytes to send or without, what is read last is the payload
    cases send <;>
    · obtain ⟨_, _, h⟩ := Except.bind_eq_ok.1 h
      obtain ⟨_, _, h⟩ := Except.bind_eq_ok.1 h
      cases h
      rfl
  | http path host statuses =>
    rw [ofConfig] at h
    split at h
    · cases h
    · split at h
      · cases h
      · cases h
        rfl
  | grpc serviceName =>
    cases h
    rfl

theorem CheckSettings.kind_of_ofConfig {config : CheckConfig} {settings : CheckSettings}
    (h : ofConfig config = .ok settings) : settings.kind = config.probe.kind :=
  ProbePayload.kind_of_ofConfig (of_ofConfig h).2.1

namespace Checker

theorem exists_readChecks {configs : List CheckConfig}
    (fine : ∀ config ∈ configs, ∃ settings, CheckSettings.ofConfig config = .ok settings)
    (index : Nat) : ∃ checks, readChecks index configs = .ok checks ∧
      checks.map (·.kind) = configs.map (·.probe.kind) := by
  induction configs generalizing index with
  | nil => exact ⟨[], rfl, rfl⟩
  | cons config rest ih =>
    obtain ⟨settings, hsettings⟩ := fine config List.mem_cons_self
    obtain ⟨checks, hchecks, hkinds⟩ :=
      ih (fun other hother => fine other (List.mem_cons_of_mem _ hother)) (index + 1)
    refine ⟨settings :: checks, ?_, ?_⟩
    · rw [readChecks, hsettings, hchecks]
      rfl
    · rw [List.map_cons, List.map_cons, hkinds, CheckSettings.kind_of_ofConfig hsettings]

/-- Checks that can run, are not too many and have their transports make a checker. -/
theorem exists_new {configs : List CheckConfig} {transports : List ProbeKind}
    (few : configs.length ≤ maxHealthChecks)
    (fine : ∀ config ∈ configs, ∃ settings, CheckSettings.ofConfig config = .ok settings)
    (covered : ∀ config ∈ configs, config.probe.kind ∈ transports) :
    ∃ checker, new configs transports = .ok checker := by
  obtain ⟨checks, hchecks, hkinds⟩ := exists_readChecks fine 0
  have hlength : checks.length = configs.length := by
    rw [← List.length_map (·.kind), hkinds, List.length_map]
  -- there is no check whose transport is missing
  have hfind : checks.find? (fun s => !transports.contains s.kind) = none := by
    rw [List.find?_eq_none]
    intro settings hmem
    have hkind : settings.kind ∈ configs.map (·.probe.kind) := hkinds ▸ List.mem_map_of_mem hmem
    obtain ⟨config, hconfig, heq⟩ := List.mem_map.1 hkind
    have hcovered := covered config hconfig
    rw [heq] at hcovered
    simp [hcovered]
  rw [new, hchecks]
  dsimp only [bind, Except.bind]
  rw [if_neg (by omega), hfind]
  exact ⟨_, rfl⟩

end Checker

/-! ## Balancing -/

/-- What is valid can be balanced. -/
theorem Balancing.check_of_validate {config : ClusterConfig} (h : config.validate = .ok ()) :
    check config = .ok () := by
  obtain ⟨ring, choices, subset⟩ := ClusterConfig.balancing_of_validate h
  -- only two of the policies have anything that could be wrong with them
  have hpolicy : (Policy.ofConfig config).problem? = none := by
    rw [Policy.ofConfig]
    cases config.policy with
    | roundRobin => rfl
    | leastRequest => exact if_neg (Nat.not_lt.2 choices)
    | random => rfl
    | ringHash => exact Option.map_eq_none_iff.2 ring
  rw [check, Strategy.new, hpolicy]
  cases hsubset : config.subset with
  | none => rfl
  | some subsetConfig =>
    obtain ⟨settings, hsettings⟩ := subset subsetConfig hsubset
    dsimp only
    rw [hsettings]
    rfl

namespace Cluster

/-- **What is valid has no error in it**, if there are transports for the probes: whatever a
cluster is made of, apart from its levels, can be made. -/
theorem exists_equip {config : ClusterConfig} {transports : List ProbeKind}
    (valid : config.validate = .ok ())
    (covered : ∀ check ∈ config.checks, check.probe.kind ∈ transports) (numerics : Numerics) :
    ∃ checker balancing, equip config transports numerics = .ok (checker, balancing) := by
  obtain ⟨few, fine⟩ := ClusterConfig.checks_of_validate valid
  obtain ⟨checker, hchecker⟩ : ∃ checker, buildChecker config transports = .ok checker := by
    rw [buildChecker]
    split
    · exact ⟨none, rfl⟩
    · obtain ⟨checker, hnew⟩ := Checker.exists_new few fine covered
      rw [hnew]
      exact ⟨some checker, rfl⟩
  have hcheck := Balancing.check_of_validate valid
  rw [← Balancing.map_build config numerics 0 .empty (.empty config.common.overprovisioning)
    .new] at hcheck
  obtain ⟨balancing, hbalancing, -⟩ := Except.map_eq_ok.1 hcheck
  exact ⟨checker, balancing, equip_eq_ok.2 ⟨valid, hchecker, hbalancing⟩⟩

/-- So nothing but the count of the levels keeps it from being built. -/
theorem new_of_equip {config : ClusterConfig} {transports : List ProbeKind} {numerics : Numerics}
    {made : Option Checker × Balancing} (h : equip config transports numerics = .ok made)
    (now : Nat) :
    match openingSet? config with
    | none => Cluster.new config transports numerics now = .error ⟨.empty⟩
    | some _ => ∃ c, Cluster.new config transports numerics now = .ok (.ok c) := by
  rw [Cluster.new, h]
  cases openingSet? config with
  | none => rfl
  | some set => exact ⟨_, rfl⟩

/-! ## Numbers -/

/-- The numbers of a configuration are what their fields can hold, 32 bits. -/
structure InRange (config : ClusterConfig) : Prop where
  factor : config.common.overprovisioning < 2 ^ 32
  hosts : ∀ h ∈ config.hosts, h.weight < 2 ^ 32
  localityWeights : ∀ w ∈ config.localityWeights, w.priority ≤ lastPriority ∧ w.weight < 2 ^ 32

/-- Every level has the weights that are listed for it, and no others. -/
def Weighted (c : Cluster) (configs : List LocalityWeightConfig) : Prop :=
  ∀ p locality,
    (c.set.weightsAt p).get? locality = LocalityWeights.listed configs p locality

section New

variable {config : ClusterConfig} {transports : List ProbeKind} {numerics : Numerics} {now : Nat}
  {c : Cluster}

/-- Levels can be counted if and only if no weight is for the last of them. -/
theorem openingSet?_eq_none_iff (inRange : InRange config) :
    openingSet? config = none ↔ ∃ w ∈ config.localityWeights, w.priority = lastPriority := by
  rw [openingSet?, applyLocalityWeights?_eq_none_iff, weightedLevels?_eq_none_iff,
    LocalityWeights.mem_keys_byPriority]
  intro p hp
  obtain ⟨w, hw, rfl⟩ := LocalityWeights.mem_keys_byPriority.1 hp
  exact (inRange.localityWeights w hw).1

/-- **The weights of a new cluster** are those of its configuration. -/
theorem weighted_new (h : Cluster.new config transports numerics now = .ok (.ok c)) :
    c.Weighted config.localityWeights := by
  obtain ⟨opening, isOpening, rfl⟩ := exists_opening h
  have once := ClusterConfig.localityWeights_of_validate isOpening.valid
  intro p locality
  have kept : (opening.reach now config.hosts).publish.set.weightsAt p =
      opening.set.weightsAt p := weightsAt_reach opening now config.hosts p
  rw [kept, weightsAt_applyLocalityWeights? isOpening.set, LocalityWeights.get?_gathered once]

/-- **The sums of a new cluster fit**, those of its subsets as well. -/
theorem fits_new (inRange : InRange config) (words : numerics.Words)
    (few : config.hosts.length ≤ PrioritySet.mostHosts)
    (h : Cluster.new config transports numerics now = .ok (.ok c)) : c.Fits := by
  have few := Nat.le_trans (length_hosts_new h) few
  obtain ⟨opening, isOpening, rfl⟩ := exists_opening h
  have weights : (opening.reach now config.hosts).hosts.Words := by
    refine words_reach ?_ now inRange.hosts
    rw [isOpening.hosts]
    exact HostTable.words_empty
  have regular := (isOpening.regular words fun w hw => (inRange.localityWeights w hw).2).reach now
    config.hosts
  have within := isOpening.within.reach isOpening.nobody now config.hosts
  refine ⟨regular.set.fits few inRange.factor weights, fun e he => ?_⟩
  rw [engine?_publish] at he
  exact (regular.engine e he).2.fits (within e he) few inRange.factor weights

end New

/-- **A valid configuration can be built**, if no locality weight is for the last of all
priorities. Then every level has the locality weights that are listed for it, and no others, and
what shares of traffic are computed from fits its words, in the cluster and in all of its
subsets, if the hosts are not too many for a hundred percent each. With a weight for the last
priority there is an overflow, and neither a cluster nor an error. -/
theorem new_of_validate {config : ClusterConfig} {transports : List ProbeKind}
    (valid : config.validate = .ok ()) (inRange : InRange config)
    (covered : ∀ check ∈ config.checks, check.probe.kind ∈ transports) (numerics : Numerics)
    (now : Nat) :
    ((∀ w ∈ config.localityWeights, w.priority ≠ lastPriority) →
      ∃ c, Cluster.new config transports numerics now = .ok (.ok c) ∧
        c.Weighted config.localityWeights ∧
        (numerics.Words → config.hosts.length ≤ PrioritySet.mostHosts → c.Fits)) ∧
    ((∃ w ∈ config.localityWeights, w.priority = lastPriority) →
      ∃ overflow, Cluster.new config transports numerics now = .error overflow) := by
  -- what is valid can be equipped; whether it opens is a matter of its weights alone
  obtain ⟨checker, balancing, hequip⟩ := exists_equip valid covered numerics
  have built := new_of_equip hequip now
  constructor
  · intro notLast
    have hset : openingSet? config ≠ none := by
      rw [ne_eq, openingSet?_eq_none_iff inRange]
      rintro ⟨w, hw, hlast⟩
      exact notLast w hw hlast
    obtain ⟨set, hset⟩ := Option.ne_none_iff_exists'.1 hset
    rw [hset] at built
    obtain ⟨c, hnew⟩ := built
    exact ⟨c, hnew, weighted_new hnew, fun words few => fits_new inRange words few hnew⟩
  · intro last
    rw [(openingSet?_eq_none_iff inRange).2 last] at built
    exact ⟨_, built⟩

/-! ### Weights for the first level, and for the last -/

section Weighed

/-- A weight for hosts of no special place. -/
def weightAt (priority weight : Nat) : LocalityWeightConfig :=
  { priority, locality := default, weight }

/-- One host, whose locality has a weight. -/
def weighedConfig : ClusterConfig :=
  { ClusterConfig.standard with
    checks := [.standard]
    hosts := [plain "a"]
    localityWeights := [weightAt 0 5] }

/-- The same, and a weight for the last of all levels, where nobody is. -/
def overweighedConfig : ClusterConfig :=
  { weighedConfig with localityWeights := [weightAt 0 5, weightAt lastPriority 1] }

def weighedCluster : Cluster :=
  ((Cluster.new weighedConfig [.tcp] .float 0).toOption.bind Except.toOption).get
    (by decide +kernel)

theorem new_weighed :
    Cluster.new weighedConfig [.tcp] .float 0 = .ok (.ok weighedCluster) ∧
      weighedCluster.Weighted [weightAt 0 5] ∧
      (weighedCluster.set.weightsAt 0).get? default = some 5 ∧
      weighedCluster.Fits ∧
      ∃ overflow, Cluster.new overweighedConfig [.tcp] .float 0 = .error overflow := by
  have valid : weighedConfig.validate = .ok () := Except.eq_ok_get (by decide +kernel)
  have overweighed : overweighedConfig.validate = .ok () := Except.eq_ok_get (by decide +kernel)
  have covered : ∀ check ∈ weighedConfig.checks, check.probe.kind ∈ [ProbeKind.tcp] := by decide
  obtain ⟨c, hnew, weighted, fits⟩ :=
    (new_of_validate valid ⟨by decide, by decide, by decide⟩ covered .float 0).1 (by decide)
  obtain rfl : weighedCluster = c :=
    Except.ok.inj (Except.ok.inj ((Except.eq_ok_ok_get (by decide +kernel)).symm.trans hnew))
  exact ⟨hnew, weighted, weighted 0 default, fits Numerics.words_float (by decide),
    (new_of_validate overweighed ⟨by decide, by decide, by decide⟩ covered .float 0).2
      (by decide)⟩

/-- It is valid, its checks have their transports, and it cannot be built. -/
theorem not_built_overweighed :
    overweighedConfig.validate = .ok () ∧ InRange overweighedConfig ∧
      (∀ check ∈ overweighedConfig.checks, check.probe.kind ∈ [ProbeKind.tcp]) ∧
      ¬ ∃ c, Cluster.new overweighedConfig [.tcp] .float 0 = .ok (.ok c) := by
  refine ⟨Except.eq_ok_get (by decide +kernel), ⟨by decide, by decide, by decide⟩, by decide, ?_⟩
  obtain ⟨overflow, hnew⟩ :=
    Except.exists_eq_error (x := Cluster.new overweighedConfig [.tcp] .float 0) (by decide +kernel)
  rintro ⟨c, hc⟩
  cases hnew.symm.trans hc

end Weighed

end Cluster

end LoadBalancing
