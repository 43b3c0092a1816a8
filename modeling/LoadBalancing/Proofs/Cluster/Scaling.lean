/-
Which subsets of a cluster have the locality weights that their hosts are worth.

Where weights are scaled, the weight of a locality in a subset depends on hosts outside of the
subset: it is the part of the locality's hosts that the subset has. But a change of membership
is told only to the subsets of its own hosts. So if hosts come to a locality or leave it, the
subsets of other hosts there go on with the weights that they had, until a host of theirs comes
or leaves at that level, or until all subsets catch up, with health, weights or a configuration.

A ledger says which number of hosts each subset was last weighed by (`Tally`). The weights of a
subset are exactly those by the ledger, so they are what they should be if and only if the
ledger's numbers make no difference to the present ones.
-/
import LoadBalancing.Proofs.Cluster.Partitions
import LoadBalancing.Proofs.Subset.Weights

set_option autoImplicit false

namespace LoadBalancing

namespace Cluster

open SubsetEngine (Concerns)

/-! ## The ledger -/

/-- Whether a host with some tuple comes or leaves at some level. -/
def concerned (c : Cluster) (levels : List LevelChange) (tuple : Tuple) (p : Nat) : Bool :=
  c.balancing.engine?.any fun e => levels.any fun change =>
    change.priority = p ∧ Concerns e.plan.settings tuple change.added change.removed

/-- The ledger after some parts of a membership change: the subsets that it concerns are weighed
anew, at the levels that it concerns them at. -/
def counted (c : Cluster) (levels : List LevelChange) (after : PrioritySet)
    (ledger : Tuple → Nat → Locality → Nat) : Tuple → Nat → Locality → Nat :=
  fun tuple p => if c.concerned levels tuple p then after.countAt p else ledger tuple p

/-- The ledger on the way to a list of hosts. If weights of hosts come with it, all subsets catch
up. -/
def reached (c : Cluster) (now : Nat) (desired : List HostConfig)
    (ledger : Tuple → Nat → Locality → Nat) : Tuple → Nat → Locality → Nat :=
  let (change, hosts) := MembershipChange.toReach c.hosts c.set desired
  if setsWeights { c with hosts } now change then fun _ => (c.reach now desired).set.countAt
  else c.counted change.levels (c.reach now desired).set ledger

/-- The ledger after an operation that moves no hosts. All subsets catch up if anything is
published, and else nothing happens to them. -/
def published (c c' : Cluster) (ledger : Tuple → Nat → Locality → Nat) :
    Tuple → Nat → Locality → Nat :=
  if c'.snapshot.version = c.snapshot.version then ledger else fun _ => c'.set.countAt

/-- The ledger after an operation, by the cluster before and after it. With a configuration that is
taken, all subsets are made anew. -/
def noted (c c' : Cluster) (operation : Operation) (ledger : Tuple → Nat → Locality → Nat) :
    Tuple → Nat → Locality → Nat :=
  match operation with
  | .membership _ priority added removed =>
    c.counted [.ofAddresses c.set priority added removed] c'.set ledger
  | .hosts now desired => c.reached now desired ledger
  | .config _ config =>
    if (c.prepare config).toOption.isSome then fun _ => c'.set.countAt else ledger
  | _ => c.published c' ledger

variable {c c' : Cluster} {ledger : Tuple → Nat → Locality → Nat} {after : PrioritySet}

/-- Whom a change concerns is a matter of the engine alone. -/
theorem counted_congr (engine : c'.balancing.engine? = c.balancing.engine?)
    (levels : List LevelChange) :
    c'.counted levels after ledger = c.counted levels after ledger := by
  funext tuple p
  rw [counted, counted, concerned, concerned, engine]

/-- A change without hosts concerns nobody. -/
theorem counted_of_isEmpty {levels : List LevelChange} (hempty : levels.all (·.isEmpty) = true) :
    c.counted levels after ledger = ledger := by
  funext tuple p
  refine if_neg fun hconcerned => ?_
  rw [concerned, Option.any_eq_true] at hconcerned
  obtain ⟨e, -, hany⟩ := hconcerned
  obtain ⟨change, hchange, hconcerns⟩ := List.any_eq_true.1 hany
  obtain ⟨-, host, hhost, -⟩ := of_decide_eq_true hconcerns
  have hnobody := List.all_eq_true.1 hempty change hchange
  rw [LevelChange.isEmpty, Bool.and_eq_true, List.isEmpty_iff, List.isEmpty_iff] at hnobody
  rw [hnobody.1, hnobody.2] at hhost
  cases hhost

/-- One part after the other. The parts that are still to come speak of other levels. -/
theorem counted_cons {first : LevelChange} {rest : List LevelChange}
    (distinct : ((first :: rest).map (·.priority)).Nodup)
    (same : ∀ tuple p, c'.concerned rest tuple p = c.concerned rest tuple p)
    (hosts : ∀ p, p ∉ rest.map (·.priority) → after.hostsAt p = c'.set.hostsAt p) :
    c'.counted rest after (c.counted [first] c'.set ledger) =
      c.counted (first :: rest) after ledger := by
  have either (tuple : Tuple) (p : Nat) : c.concerned (first :: rest) tuple p =
      (c.concerned [first] tuple p || c.concerned rest tuple p) := by
    rw [concerned, concerned, concerned]
    cases c.balancing.engine? <;> simp
  funext tuple p
  rw [counted, counted, counted, either, same]
  cases hrest : c.concerned rest tuple p with
  | true => rw [Bool.or_true, if_pos rfl, if_pos rfl]
  | false =>
    rw [Bool.or_false, if_neg Bool.false_ne_true]
    cases hfirst : c.concerned [first] tuple p with
    | false => rfl
    | true =>
      rw [if_pos rfl, if_pos rfl]
      -- the numbers of this level were entered with the first part, and no later part speaks of it
      refine (PrioritySet.countAt_congr (hosts p ?_)).symm
      rw [concerned, Option.any_eq_true] at hfirst
      obtain ⟨e, -, hany⟩ := hfirst
      rw [List.any_cons, List.any_nil, Bool.or_false, decide_eq_true_eq] at hany
      rw [List.map_cons, List.nodup_cons, hany.1] at distinct
      exact distinct.1

/-! ## Clusters with their ledgers -/

/-- The subsets, if their weights are scaled, are weighed by the ledger. -/
structure Weighed (c : Cluster) (ledger : Tuple → Nat → Locality → Nat) : Prop where
  grouped : c.set.Grouped
  engine : ∀ e, c.balancing.engine? = some e → e.plan.Scales → e.Weighed c.set ledger

/-- What leaves the levels and the engine alone leaves the weights as they are. -/
theorem Weighed.congr (h : c.Weighed ledger) (set : c'.set = c.set)
    (engine : c'.balancing.engine? = c.balancing.engine?) : c'.Weighed ledger := by
  refine ⟨set ▸ h.grouped, fun e he scales => ?_⟩
  rw [engine] at he
  rw [set]
  exact h.engine e he scales

/-- To publish weighs nothing. -/
theorem Weighed.publish (h : c.Weighed ledger) : c.publish.Weighed ledger :=
  h.congr rfl (engine?_publish c)

/-- Subsets that just caught up are weighed by the hosts that there are. -/
theorem weighed_of_refresh {b : Balancing} {before after : PrioritySet} {t : HostTable}
    (inStep : ∀ e, b.engine? = some e → e.InStep before)
    (same : ∀ p, after.hostsAt p = before.hostsAt p) (grouped : after.Grouped) (e : SubsetEngine)
    (he : (b.refresh t after).engine? = some e) (scales : e.plan.Scales) :
    e.Weighed after fun _ => after.countAt := by
  rw [Balancing.engine?_refresh] at he
  obtain ⟨engine, hb, rfl⟩ := Option.map_eq_some_iff.1 he
  exact SubsetEngine.weighed_refresh (inStep engine hb) scales same grouped

/-- After a refresh all subsets are weighed by the hosts that there are. -/
theorem weighed_refresh (inStep : c.InStep) : c.refresh.Weighed fun _ => c.refresh.set.countAt := by
  apply Weighed.publish
  have grouped := PrioritySet.grouped_refreshHealth c.hosts c.set
  exact ⟨grouped, weighed_of_refresh inStep.engine
    (PrioritySet.hostsAt_refreshHealth c.hosts) grouped⟩

/-! ## Membership changes -/

/-- An engine goes by the same settings when it has heard of a change. -/
theorem concerned_applyLevel (c : Cluster) (change : LevelChange) (levels : List LevelChange)
    (tuple : Tuple) (p : Nat) :
    (c.applyLevel change).concerned levels tuple p = c.concerned levels tuple p := by
  rw [concerned, concerned]
  rcases engine?_applyLevel c change with same | updated
  · rw [same]
  · rw [updated, Option.any_map]
    congr 1
    funext e
    rw [SubsetEngine.plan_update]

/-- One part of a change is entered for the tuples of its own hosts, at its own level. -/
theorem counted_singleton {change : LevelChange} {e : SubsetEngine}
    (he : c.balancing.engine? = some e) :
    c.counted [change] after ledger = fun tuple p =>
      if p = change.priority ∧ Concerns e.plan.settings tuple change.added change.removed then
        after.countAt p
      else ledger tuple p := by
  funext tuple p
  rw [counted, concerned, he, Option.any_some, List.any_cons, List.any_nil, Bool.or_false]
  exact if_congr (decide_eq_true_iff.trans (and_congr_left' eq_comm)) rfl rfl

/-- **One part of a change.** -/
theorem Weighed.applyLevel (h : c.Weighed ledger) (inStep : c.InStep) {change : LevelChange}
    (fits : change.Fits c.set) :
    (c.applyLevel change).Weighed (c.counted [change] (c.applyLevel change).set ledger) := by
  by_cases hempty : change.isEmpty = true
  · rw [counted_of_isEmpty (by rw [List.all_cons, hempty]; rfl), Cluster.applyLevel, if_pos hempty]
    exact h
  · rw [Cluster.applyLevel, if_neg hempty]
    have grouped := h.grouped.updateHosts (HostSet.lasting_grouped c.hosts) change.priority
      change.added change.removed
    refine ⟨grouped, fun e he scales => ?_⟩
    rw [Balancing.engine?_update] at he
    obtain ⟨engine, hb, rfl⟩ := Option.map_eq_some_iff.1 he
    rw [SubsetEngine.plan_update] at scales
    have step := LevelStep.updateHosts c.set c.hosts fits.listed
    have hlevel : (c.set.updateHosts c.hosts change.priority change.added change.removed).level?
        change.priority = some _ := (PrioritySet.level?_modifyLevel _ _).trans (if_pos rfl)
    rw [counted_singleton hb]
    exact (h.engine engine hb scales).update scales (inStep.engine engine hb) step fits.flat grouped
      hlevel fun p => PrioritySet.weightsAt_updateHosts c.hosts _ _ _ _

/-- **All parts of a change.** -/
theorem Weighed.applyLevels (h : c.Weighed ledger) (inStep : c.InStep) {levels : List LevelChange}
    (distinct : (levels.map (·.priority)).Nodup) (fits : ∀ change ∈ levels, change.Fits c.set) :
    (levels.foldl Cluster.applyLevel c).Weighed
      (c.counted levels (levels.foldl Cluster.applyLevel c).set ledger) := by
  induction levels generalizing c ledger with
  | nil =>
    rw [counted_of_isEmpty rfl]
    exact h
  | cons first rest ih =>
    have hfirst := fits first List.mem_cons_self
    have nodup := distinct
    rw [List.map_cons, List.nodup_cons] at nodup
    rw [List.foldl_cons, ← counted_cons distinct (concerned_applyLevel c first rest)
      fun p hp => hostsAt_applyLevels_of_not_mem _ hp]
    refine ih (h.applyLevel inStep hfirst) (inStep.applyLevel hfirst) nodup.2 ?_
    intro change hchange
    -- the rest speaks of other levels, so it fits as it did before
    refine (fits change (List.mem_cons_of_mem _ hchange)).congr ?_
    have hne : change.priority ≠ first.priority := by
      intro heq
      exact nodup.1 (heq ▸ List.mem_map_of_mem hchange)
    rw [hostsAt_applyLevel, if_neg hne]

/-- **A membership change.** If weights of hosts come with it, all subsets catch up. -/
theorem Weighed.applyChange (h : c.Weighed ledger) (inStep : c.InStep) (now : Nat)
    {change : MembershipChange} (distinct : (change.levels.map (·.priority)).Nodup)
    (fits : ∀ part ∈ change.levels, part.Fits c.set) :
    (c.applyChange now change).Weighed
      (if c.setsWeights now change then fun _ => (c.applyChange now change).set.countAt
      else c.counted change.levels (c.applyChange now change).set ledger) := by
  have engine := congrArg Balancing.engine? (balancing_informChecker c now change.levels)
  have set := set_informChecker c now change.levels
  have informed : (c.told now change).InStep ∧ (c.told now change).Weighed
      (c.counted change.levels (c.told now change).set ledger) := by
    have fits' : ∀ part ∈ change.levels, part.Fits (c.informChecker now change.levels).set :=
      set ▸ fits
    have before := inStep.informChecker now change.levels
    rw [← counted_congr engine]
    exact ⟨before.applyLevels distinct fits',
      (h.congr set engine).applyLevels before distinct fits'⟩
  -- what remains are the weights of hosts, after which the engine catches up
  obtain ⟨toldInStep, told⟩ := informed
  rw [applyChange_eq]
  dsimp only
  split
  · exact ⟨told.grouped, weighed_of_refresh toldInStep.engine (fun _ => rfl) told.grouped⟩
  · exact told.congr rfl rfl

/-- No host has a weight of localities, so the table has no part in it. -/
theorem Weighed.outside (h : c.Weighed ledger) (hosts : HostTable) :
    ({ c with hosts } : Cluster).Weighed ledger :=
  h.congr rfl rfl

/-- What discovery says weighs the subsets of those who come and go, and no others. -/
theorem Weighed.changeMembership (h : c.Weighed ledger) (inStep : c.InStep) (now priority : Nat)
    {added : List Host} (distinct : (added.map (·.address)).Nodup) (flat : ∀ o ∈ added, o.Flat)
    (removed : List String) :
    (c.changeMembership now priority added removed).Weighed
      (c.counted [.ofAddresses c.set priority added removed]
        (c.changeMembership now priority added removed).set ledger) := by
  apply Weighed.publish
  have fits : ∀ part ∈ [LevelChange.ofAddresses c.set priority added removed], part.Fits c.set := by
    intro part hpart
    rw [List.mem_singleton.1 hpart]
    exact LevelChange.fits_ofAddresses inStep.distinct priority distinct flat removed
  exact h.applyChange inStep now (List.nodup_singleton _) fits

/-- **The way to a list of hosts.** -/
theorem Weighed.reach (h : c.Weighed ledger) (inStep : c.InStep) (oneLevel : c.set.OneLevel)
    (now : Nat) {desired : List HostConfig} (proper : ProperHosts desired) :
    (c.reach now desired).Weighed (c.reached now desired ledger) :=
  (h.outside _).applyChange (inStep.outside _) now
    (MembershipChange.nodup_toReach c.hosts c.set desired)
    fun _ hpart => MembershipChange.fits_toReach inStep.distinct oneLevel c.hosts proper hpart

/-- A list that changes nothing is not carried out, and nobody is weighed. -/
theorem Weighed.setHosts (h : c.Weighed ledger) (inStep : c.InStep) (oneLevel : c.set.OneLevel)
    (now : Nat) {desired : List HostConfig} (proper : ProperHosts desired) :
    (c.setHosts now desired).Weighed (c.reached now desired ledger) := by
  rw [Cluster.setHosts]
  dsimp only
  split
  next hempty =>
    rw [MembershipChange.isEmpty, Bool.and_eq_true, List.isEmpty_iff] at hempty
    have unset : setsWeights { c with hosts := (MembershipChange.toReach c.hosts c.set desired).2 }
        now (MembershipChange.toReach c.hosts c.set desired).1 = false := by
      rw [setsWeights, hempty.2]
      rfl
    rw [reached]
    dsimp only
    rw [unset, if_neg Bool.false_ne_true, counted_of_isEmpty hempty.1]
    exact h
  next => exact Weighed.publish ((h.reach inStep oneLevel now proper).congr rfl rfl)

/-! ## Configurations -/

/-- **A configuration**, taken or not. Its subsets are made for the hosts as they are in the
end. -/
theorem Weighed.configured (h : c.Weighed ledger) {now : Nat} {config : ClusterConfig}
    {result : Except ConfigError Unit} (configured : c.Configured now config result c') :
    c'.Weighed (c.noted c' (.config now config) ledger) := by
  cases configured with
  | turnedDown unprepared =>
    rw [noted, unprepared]
    exact h
  | @taken checker weighed balancing prepared adopted built =>
    rw [noted, prepared]
    apply Weighed.publish
    have grouped : (weighed.adoptHosts now config).set.Grouped :=
      PrioritySet.grouped_refreshHealth _ _
    refine ⟨grouped, fun e he scales => ?_⟩
    obtain ⟨plan, -, rfl⟩ := engine_of_build built he
    exact SubsetEngine.weighed_new plan _ _ grouped _ scales

/-! ## Health and weights -/

/-- Where nothing is published, nothing is entered. -/
theorem Weighed.unpublished (h : c'.Weighed ledger)
    (version : c'.snapshot.version = c.snapshot.version) : c'.Weighed (c.published c' ledger) := by
  rw [published, if_pos version]
  exact h

/-- All subsets caught up, and that was published. -/
theorem weighed_published (inStep : c'.InStep)
    (version : c'.snapshot.version = c.snapshot.version) :
    c'.refresh.Weighed (c.published c'.refresh ledger) := by
  have differs : c'.refresh.snapshot.version ≠ c.snapshot.version := by
    rw [← version]
    exact Nat.succ_ne_self _
  rw [published, if_neg differs]
  exact weighed_refresh inStep

/-- A change of health weighs all subsets. What changes nobody's health weighs none. -/
theorem Weighed.noteTransitions (h : c'.Weighed ledger) (inStep : c'.InStep)
    (version : c'.snapshot.version = c.snapshot.version) (changed : List Transition) :
    (c'.noteTransitions changed).Weighed (c.published (c'.noteTransitions changed) ledger) := by
  rw [Cluster.noteTransitions]
  split
  · exact weighed_published inStep version
  · exact h.unpublished version

/-- So does what a cluster hears from its checker. -/
theorem Weighed.heard (h : c.Weighed ledger) (inStep : c.InStep) (heard : c.Heard c') :
    c'.Weighed (c.published c' ledger) := by
  cases heard with
  | nothing => exact h.unpublished rfl
  | reported =>
    refine Weighed.noteTransitions ?_ ?_ rfl _
    · exact h.congr rfl rfl
    · exact inStep.congrSet (fun _ => rfl) rfl

/-- The weight of a host weighs all subsets if there is such a host, and it had another weight. -/
theorem Weighed.setHostWeight (h : c.Weighed ledger) (inStep : c.InStep) (address : String)
    (weight : Nat) : (c.setHostWeight address weight).2.Weighed
      (c.published (c.setHostWeight address weight).2 ledger) := by
  rw [Cluster.setHostWeight]
  split
  · exact h.unpublished rfl
  · dsimp only
    split
    · exact weighed_published (inStep.outside _) rfl
    · exact (h.outside _).unpublished rfl

/-! ## Whole runs -/

/-- **One operation**, and what is noted about it. -/
theorem Weighed.perform (h : c.Weighed ledger) (inStep : c.InStep) (oneLevel : c.set.OneLevel)
    {operation : Operation} (proper : operation.Proper) (done : c.perform operation = .ok c') :
    c'.Weighed (c.noted c' operation ledger) := by
  cases operation with
  | membership now priority added removed =>
    cases done
    exact h.changeMembership inStep now priority proper.1 proper.2 removed
  | hosts now desired =>
    cases done
    exact h.setHosts inStep oneLevel now proper
  | config now config =>
    obtain ⟨result, configured⟩ := configured_of_perform done
    exact h.configured configured
  | hostWeight address weight =>
    cases done
    exact h.setHostWeight inStep address weight
  | localityWeights priority weights =>
    cases done
    refine weighed_published ?_ rfl
    exact inStep.congrSet (fun p => PrioritySet.hostsAt_setLocalityWeights priority p weights) rfl
  | timers now jitter => exact h.heard inStep (heard_timers done)
  | result now jitter asker key probe result => exact h.heard inStep (heard_deliver done)
  | transitions changed =>
    cases done
    exact h.noteTransitions inStep rfl changed
  | outside hosts =>
    cases done
    exact (h.outside hosts).unpublished rfl

/-- A cluster that came about by some operations, none of which began while an address was at
two levels, and the numbers of hosts that its subsets of tuples were last weighed by. -/
inductive Tally : Cluster → (Tuple → Nat → Locality → Nat) → Prop where
  | start {config : ClusterConfig} {transports : List ProbeKind} {numerics : Numerics} {now : Nat}
      {c : Cluster} :
      Cluster.new config transports numerics now = .ok (.ok c) → ProperHosts config.hosts →
        Tally c fun _ => c.set.countAt
  | step {c c' : Cluster} {ledger : Tuple → Nat → Locality → Nat} (operation : Operation) :
      Tally c ledger → c.set.OneLevel → operation.Proper → c.perform operation = .ok c' →
        Tally c' (c.noted c' operation ledger)

/-- To keep a ledger is no more than to watch a run. -/
theorem Tally.properRun (tally : Tally c ledger) : ProperRun c := by
  induction tally with
  | start h proper => exact .start h proper
  | step operation _ oneLevel proper done ih => exact ih.step operation oneLevel proper done

/-- Before the first hosts come, no subset has any, so any numbers will do. -/
theorem IsOpening.weighed {config : ClusterConfig} {transports : List ProbeKind}
    {numerics : Numerics} (h : c.IsOpening config transports numerics)
    (ledger : Tuple → Nat → Locality → Nat) : c.Weighed ledger where
  grouped := everywhere_applyLocalityWeights? h.set (PrioritySet.grouped_empty _)
    (HostSet.lasting_grouped .empty) fun _ => trivial
  engine e he scales := by
    have inStep := (h.inStep.engine e he).throughout
    -- in step with nobody, no subset has a host, so its weights are asked at no level
    have nobody {s : HostSubset} (hs : s.InStep e.plan c.set) (p : Nat) : s.set.hostsAt p = [] := by
      rw [hs.hosts, h.nobody, List.filter_nil]
    obtain ⟨plan, -, rfl⟩ := engine_of_build h.balancing he
    have made := SubsetEngine.weighed_new plan 0 .empty (PrioritySet.grouped_empty
      config.common.overprovisioning) .new scales
    exact ⟨⟨made.any.grouped, fun p hp => absurd (nobody inStep.any p) hp⟩,
      fun s hs => ⟨(made.defaults s hs).grouped,
        fun p hp => absurd (nobody (inStep.defaults s hs) p) hp⟩,
      fun tuple s hs => ⟨(made.held tuple s hs).grouped,
        fun p hp => absurd (nobody (inStep.held tuple s hs) p) hp⟩⟩

/-- A new cluster. Whatever its subsets were weighed by before the first hosts came, it may as
well have been the numbers of those. -/
theorem weighed_new {config : ClusterConfig} {transports : List ProbeKind} {numerics : Numerics}
    {now : Nat} (h : Cluster.new config transports numerics now = .ok (.ok c))
    (proper : ProperHosts config.hosts) : c.Weighed fun _ => c.set.countAt := by
  obtain ⟨opening, isOpening, rfl⟩ := exists_opening h
  apply Weighed.publish
  have came := (isOpening.weighed fun _ => (opening.reach now config.hosts).set.countAt).reach
    isOpening.inStep isOpening.oneLevel now proper
  have same : opening.reached now config.hosts
      (fun _ => (opening.reach now config.hosts).set.countAt) =
        fun _ => (opening.reach now config.hosts).set.countAt := by
    rw [reached]
    dsimp only
    split
    · rfl
    · funext tuple p
      rw [counted, ite_self]
  -- whether weights of hosts came with them or not, the ledger says the same
  rw [same] at came
  exact came

/-- By induction over the operations, together with what they leave in step. -/
theorem Tally.weighed (tally : Tally c ledger) : c.Weighed ledger := by
  induction tally with
  | start h proper => exact weighed_new h proper
  | step _ tally oneLevel proper done ih =>
    exact ih.perform tally.properRun.inStep oneLevel proper done

end Cluster

/-! ## What subsets are worth -/

/-- Wherever the subset has hosts, the weight of a locality is that of the cluster times the hosts
that the subset has there, over the total, to the nearest integer. -/
def HostSubset.FollowsWeights (s : HostSubset) (whole : PrioritySet)
    (totals : Nat → Locality → Nat) : Prop :=
  ∀ p, s.set.hostsAt p ≠ [] → ∀ l w, (whole.weightsAt p).get? l = some w →
    (s.set.weightsAt p).get? l = some (nearestWeight w (s.set.countAt p l) (totals p l))

/-- With exact numbers, to be weighed by some total is to follow the weights by that total. -/
theorem HostSubset.WeighedBy.follows {plan : SubsetPlan} {whole : PrioritySet}
    {totals : Nat → Locality → Nat} {s : HostSubset} (h : WeighedBy plan whole totals s.set)
    {inPanic : Float → HostSet → Bool} (exact : plan.numerics = .exact inPanic) :
    s.FollowsWeights whole totals := by
  intro p hp l w hw
  rw [h.weights p hp, SubsetPlan.scaled, SortedMap.get?_mapValues, hw, exact]
  exact congrArg some (scaledWeight_rat _ _ _)

namespace Cluster

/-- **Weights of subsets are as good as what was counted last.** After any run, the subsets that
are always there have the weights that the hosts of the cluster give. The subset of a tuple has
those that the ledger gives, that is, the hosts there were when last a host with the tuple came
to the level in question or left it, or when last all subsets caught up. So it has the weights
that it should have if and only if the other hosts that came and went since make no difference
after rounding. -/
theorem Tally.followsWeights {c : Cluster} {ledger : Tuple → Nat → Locality → Nat}
    (tally : Tally c ledger) {e : SubsetEngine} (he : c.balancing.engine? = some e)
    (scales : e.plan.Scales) {inPanic : Float → HostSet → Bool}
    (exact : e.plan.numerics = .exact inPanic) :
    (∀ s, s = e.view.any ∨ s ∈ e.view.defaults → s.FollowsWeights c.set c.set.countAt) ∧
      ∀ tuple s, e.view.root.get? tuple = some s →
        s.FollowsWeights c.set (ledger tuple) ∧
          (s.FollowsWeights c.set c.set.countAt ↔
            ∀ p, s.set.hostsAt p ≠ [] → ∀ l w, (c.set.weightsAt p).get? l = some w →
              nearestWeight w (s.set.countAt p l) (ledger tuple p l) =
                nearestWeight w (s.set.countAt p l) (c.set.countAt p l)) := by
  have weighed := tally.weighed.engine e he scales
  refine ⟨fun s hs => ?_, fun tuple s hs => ?_⟩
  · rcases hs with rfl | hdefault
    · exact weighed.any.follows exact
    · exact (weighed.defaults s hdefault).follows exact
  · have follows := (weighed.held tuple s hs).follows exact
    refine ⟨follows, fun up p hp l w hw => ?_, fun same p hp l w hw => ?_⟩
    · exact Option.some.inj ((follows p hp l w hw).symm.trans (up p hp l w hw))
    · rw [follows p hp l w hw, same p hp l w hw]

/-! ### A host of another tuple

A host of one stage has a locality for itself, and the whole of its weight. Then a host of another
stage comes there, and should take half of it. -/

section Crowded

/-- A cluster that groups its hosts by stage, and scales the weight of the one locality. -/
def scaledConfig : ClusterConfig :=
  { ClusterConfig.standard with
    subset := some { SubsetConfig.standard with
      selectors := [{ SelectorConfig.standard with keys := ["stage"] }]
      localityWeightAware := true
      scaleLocalityWeight := true }
    hosts := [staged "a" "prod" 0]
    localityWeights := [{ priority := 0, locality := default, weight := 8 }] }

/-- No level is in panic. Weights have no part in panic. -/
def neverInPanic : Float → HostSet → Bool :=
  fun _ _ => false

/-- The cluster as it opens. Its one host has all of the weight. -/
def scaledCluster : Cluster :=
  ((Cluster.new scaledConfig [] (.exact neverInPanic) 0).toOption.bind Except.toOption).get
    (by decide +kernel)

/-- The host that comes to the same locality, at another stage. -/
def developer : Host :=
  { id := 1, address := "b", locality := default, metadata := .ofList [("stage", .text "dev")] }

/-- The second host came. -/
def crowdedCluster : Cluster :=
  scaledCluster.changeMembership 0 0 [developer] []

/-- The weights are set once more, to what they are. -/
def reweighedCluster : Cluster :=
  crowdedCluster.setLocalityWeights 0 (.ofList [(default, 8)])

/-- The tuple of the first host. -/
def prod : Tuple :=
  [("stage", .text "prod")]

/-- Its engine. -/
def crowdedEngine : SubsetEngine :=
  crowdedCluster.balancing.engine?.get (by decide +kernel)

/-- The subset of the first host, which the second one did not concern. -/
def crowdedProd : HostSubset :=
  (crowdedEngine.view.root.get? prod).get (by decide +kernel)

/-- The engine once weights were set. -/
def reweighedEngine : SubsetEngine :=
  reweighedCluster.balancing.engine?.get (by decide +kernel)

/-- The subset of the first host once weights were set. -/
def reweighedProd : HostSubset :=
  (reweighedEngine.view.root.get? prod).get (by decide +kernel)

/-- The second host came in the course of a run, so there is a ledger. -/
theorem tally_crowdedCluster : Tally crowdedCluster
    (scaledCluster.noted crowdedCluster (.membership 0 0 [developer] []) fun _ =>
      scaledCluster.set.countAt) :=
  .step (.membership 0 0 [developer] [])
    (.start (Except.eq_ok_ok_get (by decide +kernel)) ⟨by decide, by decide⟩)
    (by decide +kernel) ⟨by decide, by decide⟩ rfl

/-- When the weights are set, all subsets catch up, and the first one has half of the weight. -/
theorem followsWeights_reweighed :
    reweighedCluster.balancing.engine? = some reweighedEngine ∧
      reweighedEngine.view.root.get? prod = some reweighedProd ∧
      reweighedProd.FollowsWeights reweighedCluster.set reweighedCluster.set.countAt ∧
      (reweighedProd.set.weightsAt 0).get? default = some 4 := by
  have hengine : reweighedCluster.balancing.engine? = some reweighedEngine :=
    (Option.some_get _).symm
  have hprod : reweighedEngine.view.root.get? prod = some reweighedProd := (Option.some_get _).symm
  have exact : reweighedEngine.plan.numerics = .exact neverInPanic := rfl
  have tally : Tally reweighedCluster (crowdedCluster.noted reweighedCluster _ _) :=
    tally_crowdedCluster.step (.localityWeights 0 (.ofList [(default, 8)]))
      (by decide +kernel) trivial rfl
  have follows := ((tally.followsWeights hengine ⟨rfl, rfl⟩ exact).2 prod reweighedProd hprod).2.2
  have differs : reweighedCluster.snapshot.version ≠ crowdedCluster.snapshot.version := by
    decide +kernel
  have caughtUp (ledger : Tuple → Nat → Locality → Nat) :
      crowdedCluster.noted reweighedCluster (.localityWeights 0 (.ofList [(default, 8)])) ledger =
        fun _ => reweighedCluster.set.countAt := by
    show crowdedCluster.published reweighedCluster ledger = _
    rw [published, if_neg differs]
  rw [caughtUp] at follows
  exact ⟨hengine, hprod, follows fun _ _ _ _ _ => rfl, by decide +kernel⟩

/-- Before that, it still has the whole weight. It has one of two hosts. -/
theorem not_followsWeights_crowded :
    (∃ ledger, Tally crowdedCluster ledger) ∧
      crowdedCluster.balancing.engine? = some crowdedEngine ∧ crowdedEngine.plan.Scales ∧
      crowdedEngine.view.root.get? prod = some crowdedProd ∧
      (crowdedCluster.set.weightsAt 0).get? default = some 8 ∧
      crowdedProd.set.countAt 0 default = 1 ∧ crowdedCluster.set.countAt 0 default = 2 ∧
      (crowdedProd.set.weightsAt 0).get? default = some 8 ∧
      ¬ crowdedProd.FollowsWeights crowdedCluster.set crowdedCluster.set.countAt := by
  have weight : (crowdedCluster.set.weightsAt 0).get? default = some 8 := by decide +kernel
  refine ⟨⟨_, tally_crowdedCluster⟩, (Option.some_get _).symm, ⟨rfl, rfl⟩,
    (Option.some_get _).symm, weight, by decide +kernel, by decide +kernel, by decide +kernel,
    fun follows => ?_⟩
  have hget := follows 0 (by decide +kernel) default 8 weight
  revert hget
  decide +kernel

end Crowded

end Cluster

end LoadBalancing
