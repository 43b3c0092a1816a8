/-
Which of the things that are wrong with a configuration are reported.

Each rule of validation is about one place of the configuration, and what it says there can be said
without the others (`Config.Broken`). A configuration is accepted if no rule is broken anywhere.
Otherwise the places are reported, all but some: subsets are read from their first selector on, and
reading stops at the first one that cannot be used. So of the selectors of a cluster at most one is
reported, and what the subsets fall back to only if all selectors can be used
(`Config.reported_iff`).
-/
import Mathlib.Data.Nat.Find
import LoadBalancing.Config.Validation
import LoadBalancing.Proofs.Config.Places

set_option autoImplicit false

namespace LoadBalancing

/-- Selector number `j` is read before the place is. -/
def Place.IsBehind : Place → Nat → Prop
  | .selector i, j => j < i
  | .subsetFallback, _ => True
  | _, _ => False

/-! ## Subsets -/

namespace SubsetConfig

/-- A selector cannot be used, or what the subsets fall back to is not there. -/
def Broken (s : SubsetConfig) : Place → Prop
  | .selector i => ∃ selector, s.selectors[i]? = some selector ∧
      ∃ problem, Selector.ofConfig selector s.defaultSubset = .error problem
  | .subsetFallback => (s.fallback = .defaultSubset ∧ s.defaultSubset.isEmpty = true) ∨
      (s.scaleLocalityWeight = true ∧ s.localityWeightAware = false)
  | _ => False

/-- The first place of the subsets at which something is wrong. -/
def FirstBroken (s : SubsetConfig) (place : Place) : Prop :=
  s.Broken place ∧ ∀ j, place.IsBehind j → ¬ s.Broken (.selector j)

end SubsetConfig

/-- The place that a problem of subsets is found at. -/
def SubsetProblem.place : SubsetProblem → Place
  | .selector i _ => .selector i
  | .noDefault | .scaleWithoutWeights => .subsetFallback

theorem SubsetProblem.part_place (problem : SubsetProblem) : problem.place.part = .subset := by
  cases problem <;> rfl

theorem SubsetProblem.exists_message_eq (problem : SubsetProblem) :
    ∃ rest, problem.message = problem.place.opening ++ rest := by
  cases problem with
  | selector i problem =>
    exact ⟨problem.message, congrArg (· ++ problem.message) String.append_assoc⟩
  | noDefault => exact ⟨"DEFAULT_SUBSET requires default_subset metadata", rfl⟩
  | scaleWithoutWeights => exact ⟨"scale_locality_weight requires locality_weight_aware", rfl⟩

namespace SubsetSettings

/-- Selectors are read up to the first that cannot be used, which is the one that is reported. The
induction is on the selectors, whatever the number of the first. -/
theorem selectorsOf_cases (clusterDefault : Metadata) (first : Nat)
    (selectors : List SelectorConfig) :
    ((∃ read, selectorsOf clusterDefault first selectors = .ok read) ∧
        ∀ c ∈ selectors, ∃ read, Selector.ofConfig c clusterDefault = .ok read) ∨
      ∃ i c problem, selectors[i]? = some c ∧ Selector.ofConfig c clusterDefault = .error problem ∧
        selectorsOf clusterDefault first selectors = .error (.selector (first + i) problem) ∧
        ∀ j < i, ∀ c, selectors[j]? = some c →
          ∃ read, Selector.ofConfig c clusterDefault = .ok read := by
  induction selectors generalizing first with
  | nil => exact .inl ⟨⟨[], rfl⟩, fun c hc => absurd hc List.not_mem_nil⟩
  | cons c rest ih =>
    rw [selectorsOf]
    cases hc : Selector.ofConfig c clusterDefault with
    | error problem =>
      exact .inr ⟨0, c, problem, rfl, hc, rfl, fun j hj => absurd hj (Nat.not_lt_zero j)⟩
    | ok read =>
      -- this one can be used, so the first that cannot is among the rest, one further on
      rcases ih (first + 1) with ⟨⟨others, hothers⟩, hall⟩ | ⟨i, d, problem, hd, hbad, hfirst, hok⟩
      · refine .inl ⟨⟨read :: others, ?_⟩, List.forall_mem_cons.2 ⟨⟨read, hc⟩, hall⟩⟩
        rw [hothers]
        rfl
      · refine .inr ⟨i + 1, d, problem, hd, hbad, ?_, fun j hj e he => ?_⟩
        · rw [hfirst, Nat.add_right_comm, Nat.add_assoc]
          rfl
        · cases j with
          | zero =>
            rw [List.getElem?_cons_zero, Option.some.injEq] at he
            exact ⟨read, he ▸ hc⟩
          | succ j => exact hok j (Nat.lt_of_succ_lt_succ hj) e he

/-- With selectors and a fallback, what is left is the use of locality weights. -/
theorem ofConfig_of_read {s : SubsetConfig} {read : List Selector}
    (hread : selectorsOf s.defaultSubset 0 s.selectors = .ok read)
    (hfallback : ¬ (s.fallback = .defaultSubset ∧ s.defaultSubset.isEmpty = true)) :
    ∃ settings, ofConfig s =
      if s.scaleLocalityWeight && !s.localityWeightAware then .error .scaleWithoutWeights
      else .ok settings := by
  rw [ofConfig, hread]
  cases hname : s.fallback with
  | none => exact ⟨_, rfl⟩
  | anyEndpoint => exact ⟨_, rfl⟩
  | defaultSubset =>
    have there : s.defaultSubset.isEmpty = false :=
      Bool.eq_false_iff.2 fun hempty => hfallback ⟨hname, hempty⟩
    rw [there]
    exact ⟨_, rfl⟩

/-- **What is reported about subsets is the first thing wrong with them.** -/
theorem ofConfig_cases (s : SubsetConfig) :
    ((∃ settings, ofConfig s = .ok settings) ∧ ∀ place, ¬ s.Broken place) ∨
      ∃ problem, ofConfig s = .error problem ∧ s.FirstBroken problem.place := by
  rcases selectorsOf_cases s.defaultSubset 0 s.selectors with
    ⟨⟨read, hread⟩, hall⟩ | ⟨i, c, problem, hc, hbad, hfirst, hok⟩
  · have usable (j : Nat) : ¬ s.Broken (.selector j) := by
      rintro ⟨c, hc, problem, hproblem⟩
      obtain ⟨read, hread⟩ := hall c (List.mem_of_getElem? hc)
      rw [hread] at hproblem
      cases hproblem
    -- all selectors can be used, so what is wrong is about the fallback, the default first
    by_cases hnone : s.fallback = .defaultSubset ∧ s.defaultSubset.isEmpty = true
    · refine .inr ⟨.noDefault, ?_, .inl hnone, fun j _ => usable j⟩
      rw [ofConfig, hread, hnone.1, hnone.2]
      rfl
    · obtain ⟨settings, hsettings⟩ := ofConfig_of_read hread hnone
      by_cases hscale : s.scaleLocalityWeight = true ∧ s.localityWeightAware = false
      · refine .inr ⟨.scaleWithoutWeights, ?_, .inr hscale, fun j _ => usable j⟩
        rw [hsettings, hscale.1, hscale.2]
        rfl
      · refine .inl ⟨⟨settings, ?_⟩, fun place => ?_⟩
        · rw [hsettings, if_neg (by simpa using hscale)]
        · cases place with
          | selector j => exact usable j
          | subsetFallback => exact not_or_intro hnone hscale
          | _ => exact id
  · -- the first selector that cannot be used ends it all
    refine .inr ⟨.selector i problem, ?_, ⟨c, hc, problem, hbad⟩, fun j hj => ?_⟩
    · rw [ofConfig, hfirst, Nat.zero_add]
      rfl
    · rintro ⟨d, hd, other, hother⟩
      obtain ⟨read, hread⟩ := hok j hj d hd
      rw [hread] at hother
      cases hother

end SubsetSettings

/-- There is only one first. -/
theorem SubsetConfig.FirstBroken.unique {s : SubsetConfig} {place place' : Place}
    (h : s.FirstBroken place) (h' : s.FirstBroken place') : place = place' := by
  obtain ⟨broken, first⟩ := h
  obtain ⟨broken', first'⟩ := h'
  cases place with
  | selector i =>
    cases place' with
    | selector i' =>
      -- of two selectors the earlier one would come first
      rcases Nat.lt_trichotomy i i' with hlt | rfl | hlt
      · exact absurd broken (first' i hlt)
      · rfl
      · exact absurd broken' (first i' hlt)
    | subsetFallback => exact absurd broken (first' i trivial)
    | _ => exact broken'.elim
  | subsetFallback =>
    cases place' with
    | selector i' => exact absurd broken' (first i' trivial)
    | subsetFallback => rfl
    | _ => exact broken'.elim
  | _ => exact broken.elim

/-! ## Clusters -/

theorem mem_flatMap_zipIdx {α β : Type} {items : List α} {g : α × Nat → List β} {b : β} :
    b ∈ items.zipIdx.flatMap g ↔ ∃ i x, items[i]? = some x ∧ b ∈ g (x, i) := by
  rw [List.mem_flatMap]
  constructor
  · rintro ⟨⟨x, i⟩, hx, hb⟩
    exact ⟨i, x, List.mem_zipIdx_iff_getElem?.1 hx, hb⟩
  · rintro ⟨i, x, hx, hb⟩
    exact ⟨(x, i), List.mem_zipIdx_iff_getElem?.2 hx, hb⟩

namespace ClusterConfig

variable {c : ClusterConfig}

/-- The rule about a place is broken. -/
def Broken (c : ClusterConfig) : Place → Prop
  | .name => Text.isBlank c.name = true
  | .ring => c.ring.maximumSize < c.ring.minimumSize ∨ c.ring.minimumSize = 0 ∨
      RingSettings.largestSize < c.ring.maximumSize ∨ c.ring.useStdHash = true
  | .choices => c.choices < Policy.leastChoices
  | .panicThreshold => ¬ (0 ≤ c.common.panicThreshold ∧ c.common.panicThreshold ≤ 100)
  | .overprovisioning => c.common.overprovisioning = 0
  | .selector i => ∃ s ∈ c.subset, s.Broken (.selector i)
  | .subsetFallback => ∃ s ∈ c.subset, s.Broken .subsetFallback
  | .checks => maxHealthChecks < c.checks.length
  | .check i => ∃ check, c.checks[i]? = some check ∧
      ∃ problem, CheckSettings.ofConfig check = .error problem
  | .hostAddress i => ∃ h, c.hosts[i]? = some h ∧
      (Text.isBlank h.address = true ∨ ∃ o ∈ c.hosts.take i, o.address = h.address)
  | .hostWeight i => ∃ h, c.hosts[i]? = some h ∧ h.weight = 0
  | .localityWeight i => ∃ w, c.localityWeights[i]? = some w ∧
      ∃ o ∈ c.localityWeights.take i, o.priority = w.priority ∧ o.locality = w.locality

/-- The cause that is found at a part. -/
def cause? (c : ClusterConfig) : ClusterPart → Option Cause
  | .name => causeIf (Text.isBlank c.name) .blank
  | .ring => c.ring.problem?.map .ring
  | .choices => causeIf (c.choices < Policy.leastChoices) .tooFewChoices
  | .panicThreshold =>
    causeIf (!(0 ≤ c.common.panicThreshold && c.common.panicThreshold ≤ 100)) .notPercentage
  | .overprovisioning => causeIf (c.common.overprovisioning = 0) .zeroFactor
  | .subset => c.subset.bind fun s => (problem? (SubsetSettings.ofConfig s)).map .subset
  | .checks => causeIf (maxHealthChecks < c.checks.length) .tooManyChecks
  | .check i => c.checks[i]?.bind fun check =>
      (problem? (CheckSettings.ofConfig check)).map (.check i)
  | .hostAddress i => c.hosts[i]?.bind fun h => addressCause? (c.hosts.take i) h
  | .hostWeight i => c.hosts[i]?.bind fun h => causeIf (h.weight = 0) .zeroWeight
  | .localityWeight i => c.localityWeights[i]?.bind fun w =>
      causeIf ((c.localityWeights.take i).any fun o =>
          o.priority = w.priority && decide (o.locality = w.locality))
        (.repeatedLocality w.locality)

theorem mem_findingIf {part : ClusterPart} {cause : Option Cause} {f : Finding} :
    f ∈ findingIf part cause ↔ f.cluster = none ∧ f.part = part ∧ cause = some f.cause := by
  obtain ⟨cluster, own, found⟩ := f
  rw [findingIf, Option.mem_toList, Option.map_eq_some_iff]
  constructor
  · rintro ⟨d, rfl, heq⟩
    cases heq
    exact ⟨rfl, rfl, rfl⟩
  · rintro ⟨rfl, rfl, rfl⟩
    exact ⟨found, rfl, rfl⟩

/-- **A cluster has one finding for each part with a cause**, and no others. -/
theorem mem_findings {f : Finding} :
    f ∈ c.findings ↔ f.cluster = none ∧ c.cause? f.part = some f.cause := by
  -- A part with a number has its finding from the item of that number.
  have own {α : Type} (items : List α) (i : Nat) (found : Nat → α → Prop) (p : Prop) :
      (∃ j x, items[j]? = some x ∧ p ∧ i = j ∧ found j x) ↔
        p ∧ ∃ x, items[i]? = some x ∧ found i x := by
    constructor
    · rintro ⟨j, x, hx, hp, rfl, hfound⟩
      exact ⟨hp, x, hx, hfound⟩
    · rintro ⟨hp, x, hx, hfound⟩
      exact ⟨i, x, hx, hp, rfl, hfound⟩
  obtain ⟨cluster, part, cause⟩ := f
  simp only [findings, ownFindings, checkFindings, hostFindings, localityFindings, List.mem_append,
    mem_flatMap_zipIdx, mem_findingIf]
  cases part with
  | check | hostAddress | hostWeight | localityWeight =>
    simp only [reduceCtorEq, false_and, and_false, or_self, or_false, false_or, exists_false,
      Option.map_eq_some_iff, Option.bind_eq_some_iff, cause?,
      ClusterPart.check.injEq, ClusterPart.hostAddress.injEq, ClusterPart.hostWeight.injEq,
      ClusterPart.localityWeight.injEq]
    exact own _ _ _ _
  | _ => simp [cause?]

/-- The first place of the cluster at which something is wrong, of those that are read in turn. -/
def FirstBroken (c : ClusterConfig) (place : Place) : Prop :=
  c.Broken place ∧ ∀ j, place.IsBehind j → ¬ c.Broken (.selector j)

theorem exists_causeIf_iff {wrong : Bool} {cause : Cause} :
    (∃ found, causeIf wrong cause = some found) ↔ wrong = true := by
  cases wrong <;> simp [causeIf]

theorem exists_problem?_map_iff {ε α : Type} {x : Except ε α} {g : ε → Cause} :
    (∃ found, (problem? x).map g = some found) ↔ ∃ problem, x = .error problem := by
  cases x <;> simp [problem?]

theorem exists_ring_problem?_iff {s : RingSettings} :
    (∃ found, s.problem?.map Cause.ring = some found) ↔
      s.maximumSize < s.minimumSize ∨ s.minimumSize = 0 ∨
        RingSettings.largestSize < s.maximumSize ∨ s.useStdHash = true := by
  rw [RingSettings.problem?]
  split_ifs <;> simp_all

theorem exists_addressCause?_iff {before : List HostConfig} {h : HostConfig} :
    (∃ found, addressCause? before h = some found) ↔
      Text.isBlank h.address = true ∨ ∃ o ∈ before, o.address = h.address := by
  rw [addressCause?]
  split_ifs with hblank
  · simp [hblank]
  · simp [exists_causeIf_iff, hblank]

/-- Outside of the subsets there is a cause where a rule is broken. -/
theorem exists_cause?_iff {place : Place} (h : place.part ≠ .subset) :
    (∃ cause, c.cause? place.part = some cause) ↔ c.Broken place := by
  -- The cause for an item of a list is found from the item of that number.
  have own {α : Type} {items : List α} {i : Nat} {found : α → Option Cause} {broken : α → Prop}
      (hbroken : ∀ x, (∃ cause, found x = some cause) ↔ broken x) :
      (∃ cause, items[i]?.bind found = some cause) ↔ ∃ x, items[i]? = some x ∧ broken x := by
    cases items[i]? <;> simp [hbroken]
  cases place with
  | name | choices | overprovisioning | checks =>
    simp [Place.part, cause?, Broken, exists_causeIf_iff]
  | ring => exact exists_ring_problem?_iff
  | panicThreshold => simp [Place.part, cause?, Broken, exists_causeIf_iff, imp_iff_not_or]
  | selector | subsetFallback => exact absurd rfl h
  | check i => exact own fun check => exists_problem?_map_iff
  | hostAddress i => exact own fun h => exists_addressCause?_iff
  | hostWeight i => exact own fun h => by simp [exists_causeIf_iff]
  | localityWeight i => exact own fun w => by simp [exists_causeIf_iff]

/-- What is wrong with the subsets of a cluster is wrong with its subset settings. -/
theorem broken_iff_of_subset {s : SubsetConfig} (hs : c.subset = some s) {place : Place}
    (hplace : place.part = .subset) : c.Broken place ↔ s.Broken place := by
  rcases Place.of_part_eq_subset hplace with ⟨i, rfl⟩ | rfl <;> simp [Broken, hs]

theorem firstBroken_iff_of_subset {s : SubsetConfig} (hs : c.subset = some s) {place : Place}
    (hplace : place.part = .subset) : c.FirstBroken place ↔ s.FirstBroken place :=
  and_congr (broken_iff_of_subset hs hplace) (forall_congr' fun j => imp_congr_right fun _ =>
    have selector : c.Broken (.selector j) ↔ s.Broken (.selector j) := broken_iff_of_subset hs rfl
    not_congr selector)

/-- The one cause found in the subsets is about the first of their places that is broken. -/
theorem exists_subset_message_iff {place : Place} (hplace : place.part = .subset) :
    (∃ cause, c.cause? .subset = some cause ∧ ∃ rest, cause.message = place.opening ++ rest) ↔
      c.FirstBroken place := by
  cases hs : c.subset with
  | none =>
    have whole : ¬ c.Broken place := by
      rcases Place.of_part_eq_subset hplace with ⟨i, rfl⟩ | rfl <;> simp [Broken, hs]
    simp [cause?, hs, FirstBroken, whole]
  | some s =>
    rw [firstBroken_iff_of_subset hs hplace]
    rcases SubsetSettings.ofConfig_cases s with ⟨⟨settings, hok⟩, whole⟩ | ⟨problem, herror, hfirst⟩
    · simp [cause?, hs, hok, problem?, SubsetConfig.FirstBroken, whole place]
    · have found : c.cause? .subset = some (.subset problem) := by
        simp [cause?, hs, herror, problem?]
      obtain ⟨rest, hrest⟩ := problem.exists_message_eq
      constructor
      · rintro ⟨cause, hcause, rest', hrest'⟩
        obtain rfl : .subset problem = cause := Option.some.inj (found.symm.trans hcause)
        -- the message begins with the place that it is about, and with no other one
        have same : problem.place.opening ++ rest = place.opening ++ rest' :=
          hrest.symm.trans hrest'
        exact Place.opening_injective (problem.part_place.trans hplace.symm) same ▸ hfirst
      · intro h
        exact ⟨.subset problem, found, rest, hfirst.unique h ▸ hrest⟩

/-- **A cause is found, with words about the place, exactly at the places that are broken and
behind no other.** -/
theorem exists_message_iff {place : Place} :
    (∃ cause, c.cause? place.part = some cause ∧ ∃ rest, cause.message = place.opening ++ rest) ↔
      c.FirstBroken place := by
  by_cases hplace : place.part = .subset
  · rw [hplace]
    exact exists_subset_message_iff hplace
  · have alone : place.opening = "" ∧ ∀ j, ¬ place.IsBehind j := by
      cases place <;> first | exact ⟨rfl, fun _ => id⟩ | exact absurd rfl hplace
    have fits (message : String) : ∃ rest, message = place.opening ++ rest :=
      ⟨message, by rw [alone.1, String.empty_append]⟩
    simp only [fits, and_true, exists_cause?_iff hplace, FirstBroken, alone.2, false_imp_iff,
      implies_true]

/-- Where something is broken there is a first of it. -/
theorem exists_firstBroken {place : Place} (h : c.Broken place) : ∃ place, c.FirstBroken place := by
  by_cases hselector : ∃ j, c.Broken (.selector j)
  · classical
    refine ⟨.selector (Nat.find hselector), Nat.find_spec hselector, fun j hj => ?_⟩
    exact Nat.find_min hselector hj
  · exact ⟨place, h, fun j _ hj => hselector ⟨j, hj⟩⟩

/-- Each cause is about a place. -/
theorem exists_place_of_cause? {part : ClusterPart} {cause : Cause}
    (h : c.cause? part = some cause) :
    ∃ place : Place, part = place.part ∧ ∃ rest, cause.message = place.opening ++ rest := by
  by_cases hsubset : part = .subset
  · subst hsubset
    obtain ⟨s, -, hs⟩ := Option.bind_eq_some_iff.1 h
    obtain ⟨problem, -, rfl⟩ := Option.map_eq_some_iff.1 hs
    exact ⟨problem.place, problem.part_place.symm, problem.exists_message_eq⟩
  · obtain ⟨place, hplace⟩ := Place.exists_ofPart? hsubset
    obtain ⟨hpart, hopening⟩ := Place.part_of_ofPart? hplace
    exact ⟨place, hpart.symm, cause.message, by rw [hopening, String.empty_append]⟩

/-- **A cluster is accepted if nothing in it is broken.** -/
theorem validate_eq_ok_iff : c.validate = .ok () ↔ ∀ place, ¬ c.Broken place := by
  have hnil : c.validate = .ok () ↔ c.findings = [] := by
    rw [validate]
    cases c.findings <;> simp
  rw [hnil, List.eq_nil_iff_forall_not_mem]
  constructor
  · intro hnone place hbroken
    obtain ⟨first, hfirst⟩ := exists_firstBroken hbroken
    obtain ⟨cause, hcause, -⟩ := exists_message_iff.2 hfirst
    exact hnone ⟨none, first.part, cause⟩ (mem_findings.2 ⟨rfl, hcause⟩)
  · intro hwhole f hf
    have hcause := (mem_findings.1 hf).2
    obtain ⟨place, hpart, hmessage⟩ := exists_place_of_cause? hcause
    exact hwhole place (exists_message_iff.1 ⟨f.cause, hpart ▸ hcause, hmessage⟩).1

end ClusterConfig

/-! ## Configurations -/

namespace Config

variable {c : Config}

/-- The rule about a place of cluster number `i` is broken. That a name repeats an earlier one is
seen only with the other clusters. -/
def Broken (c : Config) (i : Nat) (place : Place) : Prop :=
  ∃ cluster, c.clusters[i]? = some cluster ∧
    (cluster.Broken place ∨
      place = .name ∧ ∃ o ∈ c.clusters.take i, o.name = cluster.name)

/-- An entry of validation names the place. -/
def Reported (c : Config) (i : Nat) (place : Place) : Prop :=
  ∃ f ∈ c.findings, f.Names i place

/-- The findings of a configuration are those of its clusters and the names that repeat. -/
theorem mem_findings {f : Finding} :
    f ∈ c.findings ↔ ∃ i cluster, c.clusters[i]? = some cluster ∧ f.cluster = some i ∧
      ((f.part = .name ∧ f.cause = .repeatedName cluster.name ∧
          ∃ o ∈ c.clusters.take i, o.name = cluster.name) ∨
        cluster.cause? f.part = some f.cause) := by
  have repeated (i : Nat) (cluster : ClusterConfig) :
      f ∈ (if (c.clusters.take i).any fun o => o.name == cluster.name then
          [(⟨some i, .name, .repeatedName cluster.name⟩ : Finding)] else []) ↔
        f.cluster = some i ∧ f.part = .name ∧ f.cause = .repeatedName cluster.name ∧
          ∃ o ∈ c.clusters.take i, o.name = cluster.name := by
    obtain ⟨number, part, cause⟩ := f
    split_ifs with h <;> simp_all
  have numbered (i : Nat) (cluster : ClusterConfig) :
      f ∈ cluster.findings.map (fun f => { f with cluster := some i }) ↔
        f.cluster = some i ∧ cluster.cause? f.part = some f.cause := by
    rw [List.mem_map]
    constructor
    · rintro ⟨g, hg, rfl⟩
      exact ⟨rfl, (ClusterConfig.mem_findings.1 hg).2⟩
    · obtain ⟨number, part, cause⟩ := f
      rintro ⟨rfl, hcause⟩
      exact ⟨⟨none, part, cause⟩, ClusterConfig.mem_findings.2 ⟨rfl, hcause⟩, rfl⟩
  rw [findings, mem_flatMap_zipIdx]
  refine exists_congr fun i => exists_congr fun cluster => and_congr_right fun _ => ?_
  rw [List.mem_append, repeated, numbered, ← and_or_left]

theorem reported_iff_exists {i : Nat} {place : Place} :
    c.Reported i place ↔ ∃ cluster, c.clusters[i]? = some cluster ∧
      (cluster.FirstBroken place ∨
        place = .name ∧ ∃ o ∈ c.clusters.take i, o.name = cluster.name) := by
  constructor
  · rintro ⟨f, hf, hnames⟩
    obtain ⟨j, cluster, hcluster, hnumber, hcause⟩ := mem_findings.1 hf
    obtain ⟨rfl, hpart, hmessage⟩ := (Finding.names_iff hnumber).1 hnames
    refine ⟨cluster, hcluster, ?_⟩
    rcases hcause with ⟨hname, -, hrepeats⟩ | hcause
    · have isName : place.part = .name := hpart.symm.trans hname
      -- only one place is the name
      cases place <;> first | exact .inr ⟨rfl, hrepeats⟩ | cases isName
    · exact .inl (ClusterConfig.exists_message_iff.1 ⟨f.cause, hpart ▸ hcause, hmessage⟩)
  · rintro ⟨cluster, hcluster, hfirst | ⟨rfl, hrepeats⟩⟩
    · obtain ⟨cause, hcause, hmessage⟩ := ClusterConfig.exists_message_iff.2 hfirst
      exact ⟨⟨some i, place.part, cause⟩, mem_findings.2 ⟨i, cluster, hcluster, rfl, .inr hcause⟩,
        (Finding.names_iff rfl).2 ⟨rfl, rfl, hmessage⟩⟩
    · exact ⟨⟨some i, .name, .repeatedName cluster.name⟩,
        mem_findings.2 ⟨i, cluster, hcluster, rfl, .inl ⟨rfl, rfl, hrepeats⟩⟩,
        (Finding.names_iff rfl).2 ⟨rfl, rfl, _, String.empty_append.symm⟩⟩

/-- **What is reported.** A broken place is reported if it is not behind a broken selector. -/
theorem reported_iff {i : Nat} {place : Place} :
    c.Reported i place ↔
      c.Broken i place ∧ ∀ j, place.IsBehind j → ¬ c.Broken i (.selector j) := by
  have selector {cluster : ClusterConfig} (hcluster : c.clusters[i]? = some cluster) (j : Nat) :
      c.Broken i (.selector j) ↔ cluster.Broken (.selector j) := by
    simp [Broken, hcluster]
  rw [reported_iff_exists, Broken]
  constructor
  · rintro ⟨cluster, hcluster, ⟨hbroken, hfirst⟩ | hrepeats⟩
    · exact ⟨⟨cluster, hcluster, .inl hbroken⟩,
        fun j hj => mt (selector hcluster j).1 (hfirst j hj)⟩
    · -- the name is behind no selector
      refine ⟨⟨cluster, hcluster, .inr hrepeats⟩, fun j hj => ?_⟩
      rw [hrepeats.1] at hj
      exact hj.elim
  · rintro ⟨⟨cluster, hcluster, hbroken | hrepeats⟩, hfirst⟩
    · exact ⟨cluster, hcluster,
        .inl ⟨hbroken, fun j hj => mt (selector hcluster j).2 (hfirst j hj)⟩⟩
    · exact ⟨cluster, hcluster, .inr hrepeats⟩

/-- Where something is broken, something is reported. -/
theorem exists_reported {i : Nat} {place : Place} (h : c.Broken i place) :
    ∃ place, c.Reported i place := by
  obtain ⟨cluster, hcluster, hbroken | hrepeats⟩ := h
  · obtain ⟨first, hfirst⟩ := ClusterConfig.exists_firstBroken hbroken
    exact ⟨first, reported_iff_exists.2 ⟨cluster, hcluster, .inl hfirst⟩⟩
  · exact ⟨place, reported_iff_exists.2 ⟨cluster, hcluster, .inr hrepeats⟩⟩

/-- Each entry names a place. -/
theorem exists_names {f : Finding} (hf : f ∈ c.findings) : ∃ i place, f.Names i place := by
  obtain ⟨i, cluster, -, hnumber, ⟨hname, -⟩ | hcause⟩ := mem_findings.1 hf
  · exact ⟨i, .name, (Finding.names_iff hnumber).2
      ⟨rfl, hname, f.cause.message, String.empty_append.symm⟩⟩
  · obtain ⟨place, hplace⟩ := ClusterConfig.exists_place_of_cause? hcause
    exact ⟨i, place, (Finding.names_iff hnumber).2 ⟨rfl, hplace⟩⟩

theorem findings_eq_nil_iff : c.findings = [] ↔ ∀ i place, ¬ c.Broken i place := by
  constructor
  · intro hnil i place hbroken
    obtain ⟨place, f, hf, -⟩ := exists_reported hbroken
    rw [hnil] at hf
    exact List.not_mem_nil hf
  · intro hwhole
    refine List.eq_nil_iff_forall_not_mem.2 fun f hf => ?_
    obtain ⟨i, place, hnames⟩ := exists_names hf
    exact hwhole i place (reported_iff.1 ⟨f, hf, hnames⟩).1

theorem validate_eq_ok_iff : c.validate = .ok () ↔ ∀ i place, ¬ c.Broken i place := by
  rw [← findings_eq_nil_iff, validate]
  cases c.findings <;> simp

/-- What validation says about a configuration. -/
structure Diagnosed (c : Config) : Prop where
  /-- A configuration passes if nothing is wrong with it, -/
  accepted_iff : c.validate = .ok () ↔ ∀ i place, ¬ c.Broken i place
  /-- and otherwise there are entries. -/
  refused : (∃ i place, c.Broken i place) →
    c.validate = .error (.invalid c.findings) ∧ c.findings ≠ []
  /-- Each entry names one place, -/
  named : ∀ f ∈ c.findings, ∃! place : Nat × Place, f.Names place.1 place.2
  /-- and named are the places that are broken and not behind a broken selector. -/
  reported_iff : ∀ i place, c.Reported i place ↔
    c.Broken i place ∧ ∀ j, place.IsBehind j → ¬ c.Broken i (.selector j)
  /-- To repair what was named is enough if no broken place was behind a broken selector. -/
  repaired : ∀ repaired : Config,
    (∀ i place, repaired.Broken i place ↔ c.Broken i place ∧ ¬ c.Reported i place) →
    (repaired.validate = .ok () ↔
      ∀ i place j, c.Broken i place → place.IsBehind j → ¬ c.Broken i (.selector j))

/-- **Validation reports what is broken, up to the first broken selector of each cluster.** -/
theorem diagnosed (c : Config) : c.Diagnosed where
  accepted_iff := validate_eq_ok_iff
  refused := by
    rintro ⟨i, place, hbroken⟩
    have hne : c.findings ≠ [] := fun hnil => findings_eq_nil_iff.1 hnil i place hbroken
    exact ⟨by rw [validate, if_neg (by simpa using hne)], hne⟩
  named := by
    intro f hf
    obtain ⟨i, place, hnames⟩ := exists_names hf
    refine ⟨(i, place), hnames, fun other hother => ?_⟩
    obtain ⟨hi, hplace⟩ := Finding.Names.unique hother hnames
    exact Prod.ext hi hplace
  reported_iff := fun _ _ => reported_iff
  repaired := by
    intro repaired hrepaired
    rw [validate_eq_ok_iff]
    constructor
    · intro hwhole i place j hbroken hbehind
      -- what is broken and not reported would still be there
      have hreported : c.Reported i place := by
        by_contra hmissed
        exact hwhole i place ((hrepaired i place).2 ⟨hbroken, hmissed⟩)
      exact (reported_iff.1 hreported).2 j hbehind
    · intro hclear i place hbroken
      obtain ⟨hbroken, hmissed⟩ := (hrepaired i place).1 hbroken
      exact hmissed (reported_iff.2 ⟨hbroken, fun j => hclear i place j hbroken⟩)

end Config

/-! ## Two broken selectors -/

/-- A cluster in which nothing can be wrong but the selectors of its subsets. -/
def ClusterConfig.ofSelectors (selectors : List SelectorConfig) : ClusterConfig :=
  { ClusterConfig.standard with subset := some { SubsetConfig.standard with selectors } }

theorem ClusterConfig.broken_ofSelectors_iff {selectors : List SelectorConfig} {place : Place} :
    (ofSelectors selectors).Broken place ↔ ∃ j, place = .selector j ∧
      ∃ selector, selectors[j]? = some selector ∧
        ∃ problem, Selector.ofConfig selector ∅ = .error problem := by
  cases place with
  | name =>
    have named : Text.isBlank "default" = false := by decide
    simp [Broken, ofSelectors, standard, named]
  | panicThreshold =>
    have sane : 0 ≤ CommonConfig.standard.panicThreshold ∧
        CommonConfig.standard.panicThreshold ≤ 100 := by decide
    simp [Broken, ofSelectors, standard, sane]
  | ring => simp [Broken, ofSelectors, standard, RingSettings.standard, RingSettings.largestSize]
  | choices => simp [Broken, ofSelectors, standard, Policy.leastChoices]
  | overprovisioning => simp [Broken, ofSelectors, standard, CommonConfig.standard]
  | selector | subsetFallback =>
    simp [Broken, ofSelectors, standard, SubsetConfig.Broken, SubsetConfig.standard]
  | _ => simp [Broken, ofSelectors, standard]

namespace Config

/-- A configuration of one cluster with the given selectors. -/
def ofSelectors (selectors : List SelectorConfig) : Config :=
  ⟨.standard, [.ofSelectors selectors]⟩

theorem broken_ofSelectors_iff {selectors : List SelectorConfig} {i : Nat} {place : Place} :
    (ofSelectors selectors).Broken i place ↔ i = 0 ∧ ∃ j, place = .selector j ∧
      ∃ selector, selectors[j]? = some selector ∧
        ∃ problem, Selector.ofConfig selector ∅ = .error problem := by
  rw [← ClusterConfig.broken_ofSelectors_iff]
  cases i <;> simp [Broken, ofSelectors]

/-- Two selectors that cannot be used. -/
def keylessAndRepeating : List SelectorConfig :=
  [{ SelectorConfig.standard with keys := [] },
    { SelectorConfig.standard with keys := ["stage", "stage"] }]

/-- The second of them, behind one that can be used. -/
def repeating : List SelectorConfig :=
  [{ SelectorConfig.standard with keys := ["stage"] },
    { SelectorConfig.standard with keys := ["stage", "stage"] }]

theorem broken_ofSelectors_pair_iff {first second : SelectorConfig} {i : Nat} {place : Place} :
    (ofSelectors [first, second]).Broken i place ↔ i = 0 ∧
      ((place = .selector 0 ∧ ∃ problem, Selector.ofConfig first ∅ = .error problem) ∨
        place = .selector 1 ∧ ∃ problem, Selector.ofConfig second ∅ = .error problem) := by
  rw [broken_ofSelectors_iff]
  refine and_congr_right fun _ => ?_
  constructor
  · rintro ⟨j, rfl, selector, hselector, hproblem⟩
    match j, hselector with
    | 0, rfl => exact .inl ⟨rfl, hproblem⟩
    | 1, rfl => exact .inr ⟨rfl, hproblem⟩
  · rintro (⟨rfl, hproblem⟩ | ⟨rfl, hproblem⟩)
    · exact ⟨0, rfl, first, rfl, hproblem⟩
    · exact ⟨1, rfl, second, rfl, hproblem⟩

/-- Of two selectors that cannot be used, the second is not reported, and to repair the first is
not enough. -/
theorem unreported_repeating :
    (ofSelectors keylessAndRepeating).Broken 0 (.selector 1) ∧
      ¬ (ofSelectors keylessAndRepeating).Reported 0 (.selector 1) ∧
      (∀ i place, (ofSelectors repeating).Broken i place ↔
        (ofSelectors keylessAndRepeating).Broken i place ∧
          ¬ (ofSelectors keylessAndRepeating).Reported i place) ∧
      (ofSelectors repeating).validate ≠ .ok () := by
  have keyless : Selector.ofConfig { SelectorConfig.standard with keys := [] } ∅ =
      .error .noKeys := by decide
  have repeats : Selector.ofConfig { SelectorConfig.standard with keys := ["stage", "stage"] } ∅ =
      .error .repeatedKeys := by decide
  obtain ⟨read, usable⟩ : ∃ read, Selector.ofConfig
      { SelectorConfig.standard with keys := ["stage"] } ∅ = .ok read := ⟨_, rfl⟩
  -- in the first configuration both selectors are broken, in the second one only the other
  have both (i : Nat) (place : Place) : (ofSelectors keylessAndRepeating).Broken i place ↔
      i = 0 ∧ (place = .selector 0 ∨ place = .selector 1) := by
    simp [keylessAndRepeating, broken_ofSelectors_pair_iff, keyless, repeats]
  have second (i : Nat) (place : Place) : (ofSelectors repeating).Broken i place ↔
      i = 0 ∧ place = .selector 1 := by
    simp [repeating, broken_ofSelectors_pair_iff, usable, repeats]
  have reported (i : Nat) (place : Place) : (ofSelectors keylessAndRepeating).Reported i place ↔
      i = 0 ∧ place = .selector 0 := by
    rw [reported_iff, both]
    constructor
    · rintro ⟨⟨rfl, rfl | rfl⟩, hfirst⟩
      · exact ⟨rfl, rfl⟩
      · exact absurd ((both 0 _).2 ⟨rfl, .inl rfl⟩) (hfirst 0 Nat.one_pos)
    · rintro ⟨rfl, rfl⟩
      exact ⟨⟨rfl, .inl rfl⟩, fun j hj => absurd hj (Nat.not_lt_zero j)⟩
  refine ⟨(both 0 _).2 ⟨rfl, .inr rfl⟩, ?_, fun i place => ?_, ?_⟩
  · simp [reported]
  · -- what was broken and not reported is what is broken once the report is followed
    rw [second, both, reported]
    constructor
    · rintro ⟨rfl, rfl⟩
      exact ⟨⟨rfl, .inr rfl⟩, by simp⟩
    · rintro ⟨⟨rfl, rfl | rfl⟩, hmissed⟩
      · exact absurd ⟨rfl, rfl⟩ hmissed
      · exact ⟨rfl, rfl⟩
  · rw [Ne, validate_eq_ok_iff]
    exact fun hwhole => hwhole 0 (.selector 1) ((second 0 _).2 ⟨rfl, rfl⟩)

end Config

end LoadBalancing
