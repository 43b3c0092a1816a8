/-
How the locality weights of subsets follow those of their cluster.

A subset that has a part of the hosts of a locality is worth a part of the weight of that
locality: the weight is scaled by how many of the locality's hosts the subset has. How many
there are in all is a matter of the whole cluster. A subset knows it as of the last time that
it was told: it hears of all changes of weights, but of comings and goings only if a host of
its own is concerned, and then only of the level in question. So the numbers of hosts that a
subset was last weighed by are kept in a ledger beside the engine (`SubsetEngine.Weighed`).
The subsets that are always there hear of everything, and need no ledger.
-/
import LoadBalancing.Proofs.HostSet.Localities
import LoadBalancing.Proofs.HostSet.Weights
import LoadBalancing.Proofs.Subset.Partitions
import Mathlib.Data.Rat.Floor

set_option autoImplicit false

namespace LoadBalancing

/-! ## Scaling -/

/-- A weight times `kept` over `total` to the nearest integer, a half going up, in integers. It
is nothing if there is no total, and no more than the largest weight. -/
def nearestWeight (weight kept total : Nat) : Nat :=
  min largestWeight ((2 * (weight * kept) + total) / (2 * total))

/-- **Without rounding errors**, weights are scaled to the nearest integer. -/
theorem scaledWeight_rat (weight kept total : Nat) :
    scaledWeight Rat weight kept total = nearestWeight weight kept total := by
  rw [scaledWeight, nearestWeight]
  split
  next htotal => rw [htotal, Nat.mul_zero, Nat.div_zero, Nat.min_zero]
  next htotal =>
    congr 1
    show (((weight : Rat) * (kept : Rat) / (total : Rat) + 1 / 2).floor).toNat = _
    -- over a common denominator, adding a half and rounding down is a division of integers
    have hsum : (weight : Rat) * (kept : Rat) / (total : Rat) + 1 / 2 =
        ((2 * (weight * kept) + total : Nat) : Rat) / ((2 * total : Nat) : Rat) := by
      have : (total : Rat) ≠ 0 := Nat.cast_ne_zero.2 htotal
      push_cast
      field_simp
    have hfloor : Rat.floor ((2 * (weight * kept) + total : Nat) / (2 * total : Nat)) =
        ((2 * (weight * kept) + total) / (2 * total) : Nat) :=
      (Rat.floor_natCast_div_natCast _ _).trans (Int.natCast_div _ _).symm
    rw [hsum, hfloor, Int.toNat_natCast]

/-- Less than a half is rounded to nothing. -/
theorem nearestWeight_eq_zero_iff {weight kept total : Nat} (htotal : 0 < total) :
    nearestWeight weight kept total = 0 ↔ 2 * (weight * kept) < total := by
  have hlargest : largestWeight ≠ 0 := by decide
  rw [nearestWeight, Nat.min_eq_zero_iff, or_iff_right hlargest, Nat.div_eq_zero_iff]
  omega

/-- Locality weights of subsets are scaled. -/
structure SubsetPlan.Scales (plan : SubsetPlan) : Prop where
  aware : plan.settings.localityWeightAware = true
  scale : plan.settings.scaleLocalityWeight = true

/-! ## One subset -/

namespace HostSubset

variable {plan : SubsetPlan} {t : HostTable} {whole before after set : PrioritySet}
  {totals : Nat → Locality → Nat} {level : HostSet} {priority : Nat}

theorem grouped_weigh (h : set.Grouped) (whole : PrioritySet) (p : Nat) :
    (weigh plan whole set p).Grouped :=
  everywhere_weigh h (HostSet.lasting_grouped .empty) (plan.passesOn_any whole) p

theorem weigh_of_none {p : Nat} (hnone : whole.level? p = none) : weigh plan whole set p = set := by
  rw [weigh, hnone]
  split <;> rfl

/-- **Weighing** sets the weights of one level, by the hosts that the subset and the cluster have
there. -/
theorem weightsAt_weigh (scales : plan.Scales) (hset : set.Grouped) (hwhole : whole.Grouped)
    {p : Nat} (hlevel : whole.level? p = some level) (q : Nat) :
    (weigh plan whole set p).weightsAt q =
      if q = p then plan.scaled (whole.weightsAt p) (set.countAt p) (whole.countAt p)
      else set.weightsAt q := by
  have kept (l : Locality) := PrioritySet.Grouped.count (hset.ensureLevel p) p l
  have total (l : Locality) := hwhole.count p l
  rw [PrioritySet.countAt_congr (PrioritySet.hostsAt_ensureLevel p p)] at kept
  rw [hlevel, Option.map_some, Option.getD_some] at total
  rw [weigh, scales.aware, hlevel, scales.scale, Bool.not_true, if_neg Bool.false_ne_true]
  dsimp only
  rw [if_neg Bool.false_ne_true, PrioritySet.weightsAt_setLocalityWeights]
  split
  · rw [PrioritySet.weightsAt_of_level? hlevel, SubsetPlan.scaled]
    simp only [kept, total]
  · exact PrioritySet.weightsAt_ensureLevel p q

/-- Wherever the set has hosts, its weights are those of the cluster, scaled by the hosts that it
has and by the hosts that were counted in all. -/
structure WeighedBy (plan : SubsetPlan) (whole : PrioritySet) (totals : Nat → Locality → Nat)
    (set : PrioritySet) : Prop where
  grouped : set.Grouped
  weights : ∀ p, set.hostsAt p ≠ [] →
    set.weightsAt p = plan.scaled (whole.weightsAt p) (set.countAt p) (totals p)

theorem weighedBy_empty (overprovisioning : Nat) :
    WeighedBy plan whole totals (.empty overprovisioning) :=
  ⟨PrioritySet.grouped_empty _, fun p hp => absurd (PrioritySet.hostsAt_empty _ p) hp⟩

theorem WeighedBy.congr (h : WeighedBy plan before totals set) {totals' : Nat → Locality → Nat}
    (weights : ∀ p, after.weightsAt p = before.weightsAt p)
    (counts : ∀ p, set.hostsAt p ≠ [] → totals' p = totals p) :
    WeighedBy plan after totals' set :=
  ⟨h.grouped, fun p hp => by rw [h.weights p hp, weights, counts p hp]⟩

/-- **A subset that hears of a change** is weighed by the hosts that its cluster has now, at the
level of the change. -/
theorem WeighedBy.updateSet (scales : plan.Scales) (h : WeighedBy plan before totals set)
    (hafter : after.Grouped) (hlevel : after.level? priority = some level)
    (weights : ∀ p, after.weightsAt p = before.weightsAt p) (metadata : Tuple)
    (added removed : List Host) :
    WeighedBy plan after (fun p => if p = priority then after.countAt p else totals p)
      (updateSet plan t metadata after set priority added removed) := by
  have changed := h.grouped.updateHosts (HostSet.lasting_grouped t) priority
    (added.filter fun h => h.matchesTuple plan.settings.listAsAny metadata) removed
  refine ⟨grouped_weigh changed after priority, fun p hp => ?_⟩
  rw [HostSubset.updateSet, hostsAt_weigh] at hp
  rw [HostSubset.updateSet, weightsAt_weigh scales changed hafter hlevel,
    PrioritySet.countAt_congr (hostsAt_weigh plan after _ priority p)]
  -- at its own level it is weighed anew, and at the others it goes on as it was
  by_cases hpriority : p = priority
  · rw [if_pos hpriority, if_pos hpriority, hpriority]
  · have same := PrioritySet.hostsAt_updateHosts (s := set) t priority p
      (added.filter fun h => h.matchesTuple plan.settings.listAsAny metadata) removed
    rw [if_neg hpriority] at same
    rw [same] at hp
    rw [if_neg hpriority, if_neg hpriority, PrioritySet.weightsAt_updateHosts, h.weights p hp,
      weights, PrioritySet.countAt_congr same]

/-- The same, for a set that its cluster was weighed by already. -/
theorem WeighedBy.updateSet_again (scales : plan.Scales)
    (h : WeighedBy plan whole whole.countAt set) (hwhole : whole.Grouped) {l : HostSet}
    (hl : l ∈ whole.levels) (metadata : Tuple) (added removed : List Host) :
    WeighedBy plan whole whole.countAt
      (HostSubset.updateSet plan t metadata whole set l.priority added removed) := by
  have updated := h.updateSet (t := t) scales hwhole (PrioritySet.level?_of_mem hl) (fun _ => rfl)
    metadata added removed
  simpa only [ite_self] using updated

/-- A subset that is made anew is weighed by the hosts that its cluster has. -/
theorem weighedBy_fullSet (scales : plan.Scales) (hwhole : whole.Grouped) (metadata : Tuple) :
    WeighedBy plan whole whole.countAt (fullSet plan t metadata whole) := by
  refine List.foldlRecOn (motive := WeighedBy plan whole whole.countAt) _ _ (weighedBy_empty _) ?_
  intro set h l hl
  exact h.updateSet_again scales hwhole hl metadata l.hosts []

/-- **A subset that catches up** is weighed by the hosts that its cluster has, at all levels. -/
theorem weighedBy_refreshSet (scales : plan.Scales) (hwhole : whole.Grouped)
    (levels : ∀ p, set.hostsAt p ≠ [] → whole.hostsAt p ≠ []) :
    WeighedBy plan whole whole.countAt (refreshSet plan t whole set) := by
  -- one level after the other, the first ones are weighed
  have weighed (n : Nat) :
      ((List.range n).foldl (weigh plan whole) (set.refreshHealth t)).Grouped ∧
      (∀ p, ((List.range n).foldl (weigh plan whole) (set.refreshHealth t)).hostsAt p =
        set.hostsAt p) ∧
      ∀ p < n, set.hostsAt p ≠ [] →
        ((List.range n).foldl (weigh plan whole) (set.refreshHealth t)).weightsAt p =
          plan.scaled (whole.weightsAt p) (set.countAt p) (whole.countAt p) := by
    induction n with
    | zero =>
      exact ⟨PrioritySet.grouped_refreshHealth t set, PrioritySet.hostsAt_refreshHealth t,
        fun p hp => absurd hp (Nat.not_lt_zero p)⟩
    | succ n ih =>
      obtain ⟨grouped, hosts, weights⟩ := ih
      rw [List.range_succ, List.foldl_append, List.foldl_cons, List.foldl_nil]
      refine ⟨grouped_weigh grouped whole n, fun p => (hostsAt_weigh ..).trans (hosts p),
        fun p hp hne => ?_⟩
      cases hlevel : whole.level? n with
      | none =>
        rw [weigh_of_none hlevel]
        refine weights p (Nat.lt_of_le_of_ne (Nat.le_of_lt_succ hp) ?_) hne
        rintro rfl
        exact levels p hne (by rw [PrioritySet.hostsAt, hlevel]; rfl)
      | some level =>
        rw [weightsAt_weigh scales grouped hwhole hlevel, PrioritySet.countAt_congr (hosts n)]
        by_cases heq : p = n
        · rw [if_pos heq, heq]
        · rw [if_neg heq]
          exact weights p (by omega) hne
  obtain ⟨grouped, hosts, weights⟩ := weighed (set.refreshHealth t).levels.length
  refine ⟨grouped, fun p hp => ?_⟩
  rw [hostsAt_refreshSet] at hp
  rw [PrioritySet.countAt_congr (hostsAt_refreshSet plan t whole set p)]
  refine weights p ?_ hp
  -- a level with hosts is one of the levels
  by_contra hlength
  refine hp ?_
  rw [← PrioritySet.hostsAt_refreshHealth t, PrioritySet.hostsAt, PrioritySet.level?,
    List.getElem?_eq_none (Nat.le_of_not_lt hlength)]
  rfl

end HostSubset

/-! ## All subsets -/

namespace SubsetEngine

open HostSubset (WeighedBy)

/-- Whether a host with the tuple comes or leaves. -/
def Concerns (settings : SubsetSettings) (tuple : Tuple) (added removed : List Host) : Prop :=
  ∃ host ∈ added ++ removed, tuple ∈ tuplesOf settings host

instance (settings : SubsetSettings) (tuple : Tuple) (added removed : List Host) :
    Decidable (Concerns settings tuple added removed) :=
  inferInstanceAs (Decidable (∃ host ∈ added ++ removed, tuple ∈ tuplesOf settings host))

/-- The subsets that are always there are weighed by the hosts that the cluster has, and those of
tuples by the hosts that are in the ledger. -/
structure Weighed (e : SubsetEngine) (whole : PrioritySet)
    (ledger : Tuple → Nat → Locality → Nat) : Prop where
  any : WeighedBy e.plan whole whole.countAt e.view.any.set
  defaults : ∀ s ∈ e.view.defaults, WeighedBy e.plan whole whole.countAt s.set
  held : ∀ tuple s, e.view.root.get? tuple = some s → WeighedBy e.plan whole (ledger tuple) s.set

variable {e : SubsetEngine} {plan : SubsetPlan} {t : HostTable} {whole before after : PrioritySet}
  {ledger : Tuple → Nat → Locality → Nat} {priority : Nat} {added removed : List Host}
  {tuple : Tuple}

/-- A subset that is made in the midst of a change has hosts at the level of the change only. If
it had any at another level, they had been there before, and the subset as well. -/
theorem hostsAt_made (inStep : e.InStep before)
    (step : LevelStep before after priority added removed) (flat : ∀ h ∈ added, h.Flat)
    (hnone : e.view.root.get? tuple = none)
    (touched : (tuple, true) ∈ touched e.plan.settings added removed) {p : Nat}
    (hp : p ≠ priority) : (HostSubset.fullSet e.plan t tuple after).hostsAt p = [] := by
  obtain ⟨host, hhost, htuple⟩ := exists_added_of_touched touched
  have entry : Entry e.plan after tuple (HostSubset.new e.plan t tuple after e.workshop).1 :=
    entry_new (flat host hhost) htuple t after e.workshop
  rw [HostSubset.hostsAt_fullSet, List.filter_eq_nil_iff]
  intro o ho hmatches
  rw [step.hosts, if_neg hp] at ho
  have held := inStep.complete o (PrioritySet.mem_hosts.2 ⟨p, ho⟩) tuple
    ((entry.matches_iff o).1 hmatches)
  rw [hnone] at held
  cases held

/-- **An engine that hears of a change** counts anew for the subsets that it concerns, at the
level of the change. -/
theorem Weighed.update (h : e.Weighed before ledger) (scales : e.plan.Scales)
    (inStep : e.InStep before) (step : LevelStep before after priority added removed)
    (flat : ∀ h ∈ added, h.Flat) (hafter : after.Grouped) {level : HostSet}
    (hlevel : after.level? priority = some level)
    (weights : ∀ p, after.weightsAt p = before.weightsAt p) :
    (e.update t after priority added removed).Weighed after fun tuple p =>
      if p = priority ∧ Concerns e.plan.settings tuple added removed then after.countAt p
      else ledger tuple p := by
  have frame := sameFrame_updateTrie
    (e.changeStanding fun s w => s.update e.plan t after priority added removed w)
    t after priority added removed
  -- at all other levels there are as many hosts as before
  have standing {set : PrioritySet} (metadata : Tuple)
      (hset : WeighedBy e.plan before before.countAt set) :
      WeighedBy e.plan after after.countAt
        (HostSubset.updateSet e.plan t metadata after set priority added removed) := by
    refine (hset.updateSet scales hafter hlevel weights metadata added removed).congr
      (fun _ => rfl) fun p _ => ?_
    split
    · rfl
    next hp => exact PrioritySet.countAt_congr (by rw [step.hosts, if_neg hp])
  refine ⟨?_, fun s hs => ?_, fun tuple s hs => ?_⟩
  · rw [plan_update, SubsetEngine.update, frame.any]
    exact standing _ h.any
  · rw [SubsetEngine.update, frame.defaults] at hs
    rw [plan_update]
    obtain ⟨s', hs', w, rfl⟩ := exists_of_mem_mapDefaults _ hs
    exact standing _ (h.defaults s' hs')
  · rw [plan_update]
    cases outcome_updateTrie hs with
    | untouched hnot hbefore =>
      refine (h.held tuple s hbefore).congr weights fun p _ => if_neg ?_
      rintro ⟨-, concerns⟩
      obtain ⟨adding, hmem⟩ := exists_touched_iff.2 concerns
      exact hnot adding hmem
    | @updated s adding w hmem hbefore =>
      have concerns := exists_touched_iff.1 ⟨adding, hmem⟩
      refine ((h.held tuple s hbefore).updateSet scales hafter hlevel weights s.metadata added
        removed).congr (fun _ => rfl) fun p _ => ?_
      exact if_congr (and_iff_left concerns) rfl rfl
    | made w hmem hnone =>
      have concerns := exists_touched_iff.1 ⟨true, hmem⟩
      refine (HostSubset.weighedBy_fullSet scales hafter tuple).congr (fun _ => rfl) fun p hp => ?_
      by_cases hpriority : p = priority
      · exact if_pos ⟨hpriority, concerns⟩
      · exact absurd (hostsAt_made inStep step flat hnone hmem hpriority) hp

/-- Where all subsets were weighed by the same hosts, all entries of the ledger are the same. -/
theorem Throughout.weighed
    (h : e.Throughout fun s => WeighedBy e.plan whole whole.countAt s.set) :
    e.Weighed whole fun _ => whole.countAt :=
  ⟨h.any, h.defaults, h.held⟩

/-- **An engine that catches up** counts anew for all subsets. -/
theorem weighed_refresh (inStep : e.InStep before) (scales : e.plan.Scales)
    (same : ∀ p, after.hostsAt p = before.hostsAt p) (hafter : after.Grouped) :
    (e.refresh t after).Weighed after fun _ => after.countAt := by
  apply Throughout.weighed
  refine inStep.throughout.refresh fun s w hs => ?_
  refine HostSubset.weighedBy_refreshSet scales hafter fun p hp hnobody => hp ?_
  rw [hs.hosts, ← same, hnobody, List.filter_nil]

/-- A new engine has counted for all subsets. -/
theorem weighed_new (plan : SubsetPlan) (engine : Nat) (t : HostTable) (hwhole : whole.Grouped)
    (w : Workshop) (scales : (new plan engine t whole w).plan.Scales) :
    (new plan engine t whole w).Weighed whole fun _ => whole.countAt := by
  have built : (new plan engine t whole w).plan = plan ∧ (new plan engine t whole w).Throughout
      fun s => plan.Scales → WeighedBy plan whole whole.countAt s.set := by
    refine throughout_new (fun tuple w scales => ?_) (fun l hl s w hs scales => ?_) engine w
    · exact HostSubset.weighedBy_fullSet scales hwhole tuple
    · exact (hs scales).updateSet_again scales hwhole hl s.metadata l.hosts []
  obtain ⟨hplan, weighed⟩ := built
  rw [hplan] at scales
  refine Throughout.weighed (weighed.imp fun s hs => ?_)
  rw [hplan]
  exact hs scales

end SubsetEngine

end LoadBalancing
