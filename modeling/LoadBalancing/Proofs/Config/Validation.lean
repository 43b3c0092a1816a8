/-
What it means that nothing is wrong with a configuration.

A cluster passes if no rule of validation is broken at any of its places. Here the rules are read
back as properties of the configuration, the form in which those who build from it need them.
-/
import LoadBalancing.Cluster.Balancing
import LoadBalancing.Proofs.Config.Findings

set_option autoImplicit false

namespace LoadBalancing

namespace ClusterConfig

variable {c : ClusterConfig}

/-! ## The cluster itself -/

/-- What a valid configuration says about picking hosts. -/
theorem balancing_of_validate (h : c.validate = .ok ()) :
    c.ring.problem? = none ∧ Policy.leastChoices ≤ c.choices ∧
      ∀ subset, c.subset = some subset →
        ∃ settings, SubsetSettings.ofConfig subset = .ok settings := by
  have fine := validate_eq_ok_iff.1 h
  refine ⟨?_, Nat.not_lt.1 (fine .choices), fun config hconfig => ?_⟩
  · refine Option.eq_none_iff_forall_ne_some.2 fun problem hproblem => fine .ring ?_
    exact exists_ring_problem?_iff.1 ⟨.ring problem, by rw [hproblem]; rfl⟩
  · rcases SubsetSettings.ofConfig_cases config with ⟨hok, -⟩ | ⟨problem, -, hbroken, -⟩
    · exact hok
    · exact absurd ((broken_iff_of_subset hconfig problem.part_place).2 hbroken) (fine _)

/-! ## Health checks -/

/-- What a valid configuration says about its health checks. -/
theorem checks_of_validate (h : c.validate = .ok ()) :
    c.checks.length ≤ maxHealthChecks ∧
      ∀ check ∈ c.checks, ∃ settings, CheckSettings.ofConfig check = .ok settings := by
  have fine := validate_eq_ok_iff.1 h
  refine ⟨Nat.not_lt.1 (fine .checks), fun check hcheck => ?_⟩
  obtain ⟨i, hi⟩ := List.getElem?_of_mem hcheck
  cases hread : CheckSettings.ofConfig check with
  | ok settings => exact ⟨settings, rfl⟩
  | error problem => exact absurd ⟨check, hi, problem, hread⟩ (fine (.check i))

/-! ## Hosts -/

/-- A configuration in which nothing is wrong has an address for each host. -/
theorem nodup_of_validate (h : c.validate = .ok ()) : (c.hosts.map (·.address)).Nodup := by
  have fine := validate_eq_ok_iff.1 h
  rw [List.Nodup, List.pairwise_map, List.pairwise_iff_getElem]
  intro i j hi hj hlt heq
  have before : c.hosts[i] ∈ c.hosts.take j := List.mem_take_iff_getElem.2 ⟨i, by omega, rfl⟩
  exact fine (.hostAddress j)
    ⟨c.hosts[j], List.getElem?_eq_getElem hj, .inr ⟨c.hosts[i], before, heq⟩⟩

/-! ## Locality weights -/

/-- A configuration in which nothing is wrong gives a locality of one level one weight. -/
theorem localityWeights_of_validate (h : c.validate = .ok ()) :
    c.localityWeights.Pairwise fun a b =>
      ¬ (a.priority = b.priority ∧ a.locality = b.locality) := by
  have fine := validate_eq_ok_iff.1 h
  rw [List.pairwise_iff_getElem]
  intro i j hi hj hlt hsame
  have before : c.localityWeights[i] ∈ c.localityWeights.take j :=
    List.mem_take_iff_getElem.2 ⟨i, by omega, rfl⟩
  exact fine (.localityWeight j)
    ⟨c.localityWeights[j], List.getElem?_eq_getElem hj, c.localityWeights[i], before, hsame⟩

end ClusterConfig

end LoadBalancing
