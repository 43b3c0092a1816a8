/-
A configuration that cannot be taken leaves no trace.

Whatever may go wrong is tried before anything is changed, but for one step: the balancing
is built once more in the end, for the hosts as they are by then. It cannot fail there,
since whether a balancing can be built is a matter of its configuration alone
(`Balancing.map_build`). Hosts, weights and health have no say in it. Likewise the whole
preparation of a change asks for nothing but the configuration, the checks there are and
the transports at hand (`Cluster.prepare_eq`).

There is a third way for a change to end, when the number of its levels overflows. It is a
matter of the configured weights alone, and then there is neither an answer nor a cluster. The
other two ways are told apart in one place (`Cluster.Configured`), on which all proofs about
changes of configuration rest.
-/
import LoadBalancing.Proofs.Cluster.Run
import LoadBalancing.Proofs.Outcome

set_option autoImplicit false

namespace LoadBalancing

/-! ## What a balancing is built from -/

/-- What may go wrong in building a balancing: the policy may have a problem, and so may the
subsets. -/
def Balancing.check (config : ClusterConfig) : Except ConfigError Unit := do
  let _ ← (Strategy.new (.ofConfig config) config.common.panicThreshold).mapError
    ConfigError.ofPolicy
  match config.subset with
  | none => pure ()
  | some subset =>
    ((SubsetSettings.ofConfig subset).mapError ConfigError.subset).map fun _ => ()

/-- Whether a balancing can be built, and if not, why, is a matter of its configuration alone. -/
theorem Balancing.map_build (config : ClusterConfig) (numerics : Numerics) (engine : Nat)
    (t : HostTable) (s : PrioritySet) (w : Workshop) :
    (build config numerics engine t s w).map (fun _ => ()) = check config := by
  rw [build, check, Except.map_bind]
  congr 1
  funext strategy
  cases config.subset with
  | none => rfl
  | some subset =>
    dsimp only
    rw [Except.map_bind]
    cases (SubsetSettings.ofConfig subset).mapError ConfigError.subset <;> rfl

namespace Cluster

/-! ## Preparing -/

variable (c : Cluster) (now : Nat) (config : ClusterConfig)

/-- The checker that a configuration asks for, if its checks are others than those there are. -/
def nextChecker : Except ConfigError (Option (Option Checker)) :=
  if config.checks = c.config.checks then pure none
  else (buildChecker config c.transports).map some

/-- The answer to a configuration, as far as there is one. -/
def answer : Except ConfigError Unit := do
  config.validate
  let _ ← c.nextChecker config
  Balancing.check config

/-- **What decides about a configuration** is the configuration, the checks there are and the
transports at hand. The balancing that is built in preparation is given up, so all that is
left of it is whether it went well. -/
theorem prepare_eq : c.prepare config = (do
    config.validate
    let checker ← c.nextChecker config
    (Balancing.check config).map fun _ => checker) := by
  have tried (checker : Option (Option Checker)) :
      (do let _ ← c.buildBalancing config; pure checker) =
        (Balancing.check config).map fun _ => checker := by
    rw [← Balancing.map_build config c.numerics (c.generation + 1) c.hosts c.set
      c.balancing.workshop.fresh, ← buildBalancing]
    cases c.buildBalancing config <;> rfl
  rw [prepare, nextChecker]
  cases config.validate with
  | error e => rfl
  | ok valid =>
    split
    · exact tried none
    · cases buildChecker config c.transports with
      | error e => rfl
      | ok checker => exact tried (some checker)

/-- The answer is that of the preparation. -/
theorem map_prepare : (c.prepare config).map (fun _ => ()) = c.answer config := by
  rw [prepare_eq, answer, Except.map_bind]
  congr 1
  funext valid
  rw [Except.map_bind]
  congr 1
  funext checker
  cases Balancing.check config <;> rfl

/-- Once a configuration was prepared, its balancing can be built for any cluster, whatever
became of the hosts. -/
theorem exists_buildBalancing {first : Balancing} (h : c.buildBalancing config = .ok first)
    (c' : Cluster) : ∃ second, c'.buildBalancing config = .ok second := by
  have same : (c'.buildBalancing config).map (fun _ => ()) = .ok () := by
    rw [buildBalancing, Balancing.map_build, ← Balancing.map_build config c.numerics
      (c.generation + 1) c.hosts c.set c.balancing.workshop.fresh, ← buildBalancing, h]
    rfl
  obtain ⟨second, hsecond, -⟩ := Except.map_eq_ok.1 same
  exact ⟨second, hsecond⟩

theorem exists_buildBalancing_of_prepare {checker : Option (Option Checker)}
    (h : c.prepare config = .ok checker) : ∃ first, c.buildBalancing config = .ok first := by
  rw [prepare_eq] at h
  obtain ⟨_, _, h⟩ := Except.bind_eq_ok.1 h
  obtain ⟨_, _, h⟩ := Except.bind_eq_ok.1 h
  obtain ⟨_, h, _⟩ := Except.map_eq_ok.1 h
  rw [← Balancing.map_build config c.numerics (c.generation + 1) c.hosts c.set
    c.balancing.workshop.fresh, ← buildBalancing] at h
  obtain ⟨first, hfirst, -⟩ := Except.map_eq_ok.1 h
  exact ⟨first, hfirst⟩

/-! ## Taking a configuration, or not -/

theorem applyConfig_of_error {e : ConfigError} (h : c.prepare config = .error e) :
    c.applyConfig now config = .ok (.error e, c) := by
  rw [applyConfig, h]

/-- What was prepared is taken, unless the number of the levels overflows. -/
theorem applyConfig_of_ok {checker : Option (Option Checker)} {weighed : Cluster}
    (h : c.prepare config = .ok checker)
    (adopted : (c.adoptChecker now checker).adoptWeights? config = some weighed) :
    ∃ balancing,
      let c' := weighed.adoptHosts now config
      c'.buildBalancing config = .ok balancing ∧ c.applyConfig now config =
        .ok (.ok (), publish { c' with config, balancing, generation := c'.generation + 1 }) := by
  obtain ⟨first, hfirst⟩ := exists_buildBalancing_of_prepare c config h
  obtain ⟨balancing, hbalancing⟩ := exists_buildBalancing c config hfirst
    (weighed.adoptHosts now config)
  refine ⟨balancing, hbalancing, ?_⟩
  rw [applyConfig, h]
  dsimp only
  rw [adopted]
  dsimp only
  rw [hbalancing]

/-- **How a change of configuration ends** that does not overflow: it is turned down and nothing
happened, or it is taken. -/
inductive Configured (c : Cluster) (now : Nat) (config : ClusterConfig) :
    Except ConfigError Unit → Cluster → Prop where
  | turnedDown {e : ConfigError} (unprepared : c.prepare config = .error e) :
      Configured c now config (.error e) c
  | taken {checker : Option (Option Checker)} {weighed : Cluster} {balancing : Balancing}
      (prepared : c.prepare config = .ok checker)
      (adopted : (c.adoptChecker now checker).adoptWeights? config = some weighed)
      (built : (weighed.adoptHosts now config).buildBalancing config = .ok balancing) :
      Configured c now config (.ok ()) (publish
        { weighed.adoptHosts now config with
          config, balancing
          generation := (weighed.adoptHosts now config).generation + 1 })

variable {c now config}

theorem configured_of_applyConfig {result : Except ConfigError Unit} {c' : Cluster}
    (h : c.applyConfig now config = .ok (result, c')) : c.Configured now config result c' := by
  cases hprepare : c.prepare config with
  | error e =>
    rw [applyConfig_of_error c now config hprepare] at h
    cases h
    exact .turnedDown hprepare
  | ok checker =>
    cases hadopted : (c.adoptChecker now checker).adoptWeights? config with
    | none =>
      rw [applyConfig, hprepare] at h
      dsimp only at h
      rw [hadopted] at h
      cases h
    | some weighed =>
      obtain ⟨balancing, hbuilt, heq⟩ := applyConfig_of_ok c now config hprepare hadopted
      rw [heq] at h
      cases h
      exact .taken hprepare hadopted hbuilt

/-- An operation that brings a configuration ends in one of these ways. -/
theorem configured_of_perform {c' : Cluster} (h : c.perform (.config now config) = .ok c') :
    ∃ result, c.Configured now config result c' := by
  obtain ⟨⟨result, after⟩, happly, rfl⟩ := Except.map_eq_ok.1 h
  exact ⟨result, configured_of_applyConfig happly⟩

/-- What is answered is the answer. -/
theorem Configured.result_eq {result : Except ConfigError Unit} {c' : Cluster}
    (configured : c.Configured now config result c') : result = c.answer config := by
  rw [← map_prepare]
  cases configured with
  | turnedDown unprepared => rw [unprepared]; rfl
  | taken prepared => rw [prepared]; rfl

/-- A change overflows exactly if it can be prepared and its weights are at too many levels. -/
theorem applyConfig_overflows_iff :
    (∃ overflow, c.applyConfig now config = .error overflow) ↔
      c.answer config = .ok () ∧
        weightedLevels? (LocalityWeights.byPriority config.localityWeights) = none := by
  rw [← map_prepare]
  constructor
  · rintro ⟨overflow, h⟩
    cases hprepare : c.prepare config with
    | error e =>
      -- a change that cannot be prepared ends before any arithmetic
      rw [applyConfig_of_error c now config hprepare] at h
      cases h
    | ok checker =>
      -- once the weights are taken, all that follows goes well
      refine ⟨rfl, (adoptWeights?_eq_none_iff (c.adoptChecker now checker)).1 ?_⟩
      cases hadopted : (c.adoptChecker now checker).adoptWeights? config with
      | none => rfl
      | some weighed =>
        obtain ⟨balancing, -, heq⟩ := applyConfig_of_ok c now config hprepare hadopted
        rw [heq] at h
        cases h
  · rintro ⟨hok, hnone⟩
    obtain ⟨checker, hprepare, -⟩ := Except.map_eq_ok.1 hok
    refine ⟨⟨(c.adoptChecker now checker).hosts⟩, ?_⟩
    rw [applyConfig, hprepare]
    dsimp only
    rw [(adoptWeights?_eq_none_iff (c.adoptChecker now checker)).2 hnone]

variable (c now config)

/-- **All or nothing.** If a configuration cannot be taken, the cluster is what it was, in
every part: configuration, levels, health and weights, balancing, checker, snapshot. The
balancing that is built last, after everything was changed, can be built if it could be
before. So what comes of a configuration is decided by the configuration, the checks there
are and the transports at hand; and where it is taken, it is in place. There is an answer,
unless the configuration could be taken and the number of its levels overflows. -/
theorem applyConfig_all_or_nothing :
    (∀ e c', c.applyConfig now config = .ok (.error e, c') → c' = c) ∧
    (∀ first, c.buildBalancing config = .ok first → ∀ checker weighed,
      (c.adoptChecker now checker).adoptWeights? config = some weighed → ∃ second,
        (weighed.adoptHosts now config).buildBalancing config = .ok second) ∧
    (∀ result c', c.applyConfig now config = .ok (result, c') → result = c.answer config) ∧
    (∀ c', c.applyConfig now config = .ok (.ok (), c') → c'.config = config) ∧
    ((∃ overflow, c.applyConfig now config = .error overflow) ↔
      c.answer config = .ok () ∧
        weightedLevels? (LocalityWeights.byPriority config.localityWeights) = none) := by
  refine ⟨fun e c' h => ?_, fun first hfirst checker weighed _ => ?_, fun result c' h => ?_,
    fun c' h => ?_, applyConfig_overflows_iff⟩
  · cases configured_of_applyConfig h with
    | turnedDown => rfl
  · exact exists_buildBalancing c config hfirst _
  · exact (configured_of_applyConfig h).result_eq
  · cases configured_of_applyConfig h with
    | taken => rfl

/-! ### A configuration without a transport -/

section Picky

/-- A cluster of two hosts under one check, in which only the simplest probes can be sent. -/
def pickyConfig : ClusterConfig :=
  { ClusterConfig.standard with
    checks := [.standard]
    subset := some { SubsetConfig.standard with
      selectors := [{ SelectorConfig.standard with keys := ["stage"] }] }
    hosts := [
      { address := "a", weight := 1, priority := 0, locality := default, metadata := ∅ },
      { address := "b", weight := 1, priority := 1, locality := default, metadata := ∅ }] }

def pickyCluster : Cluster :=
  ((Cluster.new pickyConfig [.tcp] .float 0).toOption.bind Except.toOption).get (by decide +kernel)

/-- Other hosts, and a check for which there is no transport. -/
def untakenConfig : ClusterConfig :=
  { pickyConfig with
    checks := [{ CheckConfig.standard with probe := .grpc none }]
    hosts := [] }

/-- No hosts any more. -/
def emptyConfig : ClusterConfig :=
  { pickyConfig with hosts := [] }

/-- The one configuration is turned down, although it is valid, and nothing happens; the other
one is taken, with a balancing that is built twice. -/
theorem applyConfig_all_or_nothing_picky :
    (∃ e, pickyCluster.applyConfig 7 untakenConfig = .ok (.error e, pickyCluster)) ∧
    (∃ weighed second, (pickyCluster.adoptChecker 7 none).adoptWeights? emptyConfig = some weighed ∧
      (weighed.adoptHosts 7 emptyConfig).buildBalancing emptyConfig = .ok second) ∧
    ∃ c', pickyCluster.applyConfig 7 emptyConfig = .ok (.ok (), c') ∧ c'.config = emptyConfig := by
  obtain ⟨nothing, -⟩ := applyConfig_all_or_nothing pickyCluster 7 untakenConfig
  obtain ⟨-, rebuilt, -, taken, -⟩ := applyConfig_all_or_nothing pickyCluster 7 emptyConfig
  refine ⟨?_, ?_, ?_⟩
  · -- the answer is an error, so nothing happened
    obtain ⟨⟨result, c'⟩, answered, rejected⟩ := Except.exists_of_any
      (x := pickyCluster.applyConfig 7 untakenConfig) (p := fun after => !after.1.toOption.isSome)
      (by decide +kernel)
    cases result with
    | ok _ => cases rejected
    | error e =>
      obtain rfl := nothing e c' answered
      exact ⟨e, answered⟩
  · -- the balancing is built a second time, for the hosts that came, and must not fail then
    obtain ⟨weighed, hweighed⟩ : ∃ weighed,
        (pickyCluster.adoptChecker 7 none).adoptWeights? emptyConfig = some weighed :=
      Option.isSome_iff_exists.1 (by decide +kernel)
    obtain ⟨second, hsecond⟩ :=
      rebuilt _ (Except.eq_ok_get (by decide +kernel)) none weighed hweighed
    exact ⟨weighed, second, hweighed, hsecond⟩
  · obtain ⟨⟨result, c'⟩, answered, accepted⟩ := Except.exists_of_any
      (x := pickyCluster.applyConfig 7 emptyConfig) (p := fun after => after.1.toOption.isSome)
      (by decide +kernel)
    cases result with
    | ok _ => exact ⟨c', answered, taken c' answered⟩
    | error e => cases accepted

end Picky

/-! ## Whole runs -/

/-- Whether an operation is a configuration that cannot be taken. -/
def turnsDown : Operation → Bool
  | .config _ config => (c.prepare config).toOption.isNone
  | _ => false

/-- A run without the configurations that are turned down on its way. -/
def withoutRejected (c : Cluster) : List Operation → List Operation
  | [] => []
  | first :: rest =>
    if c.turnsDown first then c.withoutRejected rest
    else
      match c.perform first with
      | .ok c' => first :: c'.withoutRejected rest
      | .error _ => first :: rest

theorem perform_of_turnsDown {operation : Operation} (h : c.turnsDown operation = true) :
    c.perform operation = .ok c := by
  cases operation with
  | config now config =>
    cases hprepare : c.prepare config with
    | error e => rw [perform, applyConfig_of_error c now config hprepare]; rfl
    | ok checker =>
      rw [turnsDown, hprepare] at h
      cases h
  | _ => cases h

/-- **A rejected configuration leaves no trace:** the run ends as if it had never come. -/
theorem after_withoutRejected (operations : List Operation) :
    c.after (c.withoutRejected operations) = c.after operations := by
  induction operations generalizing c with
  | nil => rfl
  | cons first rest ih =>
    rw [withoutRejected]
    split
    next h =>
      rw [ih, after_cons, perform_of_turnsDown c h]
      rfl
    next =>
      split
      next c' h =>
        rw [after_cons, after_cons, h]
        exact ih c'
      next => rfl

end Cluster

end LoadBalancing
