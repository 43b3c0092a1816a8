/-
A subset follows its cluster: after every change it has, level by level, those of the
cluster's hosts that match its tuple, in their order.

A subset is not told what hosts the cluster has. It is told who was added, of which it
takes those that match, and who was removed. That is enough if every host that leaves is
named: as one of the removed or, where it comes again, as one of the added (`LevelStep`).
A host that goes only because another one with its address comes, without being named,
would stay behind in subsets that do not take the newcomer.

Beside its hosts, a subset in step has sound partitions and a balancer that was built for
the hosts it has. What the levels of subsets have besides is said once, for all that a level
keeps whatever happens to it (`HostSet.Lasting`): weighing keeps it (`everywhere_weigh`), and so
the subset has it however it came about.
-/
import LoadBalancing.Proofs.HostSet.Levels
import LoadBalancing.Proofs.Subset.Membership
import LoadBalancing.Subset.HostSubset

set_option autoImplicit false

namespace LoadBalancing

/-! ## Changes of one level -/

/-- A membership change at one level, as the priority sets before and after it show it. -/
structure LevelStep (before after : PrioritySet) (priority : Nat) (added removed : List Host) :
    Prop where
  hosts : ∀ p, after.hostsAt p =
    if p = priority then
      (before.hostsAt priority).filter (fun h => !HostSet.isDropped added removed h) ++ added
    else before.hostsAt p
  /-- Whoever leaves is named. -/
  listed : ∀ h ∈ before.hostsAt priority, HostSet.isDropped added removed h = true →
    h ∈ removed ∨ h ∈ added

namespace LevelStep

variable {before after : PrioritySet} {priority : Nat} {added removed : List Host}

/-- What a priority set does is such a change, if whoever leaves is named. -/
theorem updateHosts (s : PrioritySet) (t : HostTable)
    (listed : ∀ h ∈ s.hostsAt priority, HostSet.isDropped added removed h = true →
      h ∈ removed ∨ h ∈ added) :
    LevelStep s (s.updateHosts t priority added removed) priority added removed :=
  ⟨fun p => PrioritySet.hostsAt_updateHosts t priority p added removed, listed⟩

/-- All hosts of a level coming again is no change. -/
theorem self (s : PrioritySet) (p : Nat) : LevelStep s s p (s.hostsAt p) [] := by
  have hall : ∀ h ∈ s.hostsAt p, HostSet.isDropped (s.hostsAt p) [] h = true :=
    fun h hh => HostSet.isDropped_iff.2 (.inr ⟨h, hh, rfl⟩)
  refine ⟨fun q => ?_, fun h hh _ => .inr hh⟩
  split
  next hq =>
    have hnone : (s.hostsAt p).filter (fun h => !HostSet.isDropped (s.hostsAt p) [] h) = [] := by
      rw [List.filter_eq_nil_iff]
      intro h hh
      rw [hall h hh]
      exact Bool.false_ne_true
    rw [hq, hnone, List.nil_append]
  next => rfl

/-- Whoever is there afterwards was there before, or came. -/
theorem mem_hosts (step : LevelStep before after priority added removed) {h : Host}
    (hh : h ∈ after.hosts) : h ∈ before.hosts ∨ h ∈ added := by
  obtain ⟨p, hp⟩ := PrioritySet.mem_hosts.1 hh
  rw [step.hosts] at hp
  split at hp
  · rcases List.mem_append.1 hp with hkept | hadded
    · exact .inl (PrioritySet.mem_hosts.2 ⟨priority, (List.mem_filter.1 hkept).1⟩)
    · exact .inr hadded
  · exact .inl (PrioritySet.mem_hosts.2 ⟨p, hp⟩)

/-- What is said of all hosts of a level by some test goes on in the same way: the part of
the level that passes loses whoever is dropped, as the whole level does. The newcomers that
do not pass drop nobody who does, because whoever leaves is named. -/
theorem filter_hosts (step : LevelStep before after priority added removed) (test : Host → Bool) :
    (after.hostsAt priority).filter test =
      ((before.hostsAt priority).filter test).filter
          (fun h => !HostSet.isDropped (added.filter test) removed h) ++ added.filter test := by
  have hsame : ∀ h ∈ before.hostsAt priority, test h = true →
      HostSet.isDropped added removed h = HostSet.isDropped (added.filter test) removed h := by
    intro h hh htest
    rw [Bool.eq_iff_iff]
    constructor
    · -- whoever is dropped is named, and if it passes, among those who pass
      intro hdrop
      rcases step.listed h hh hdrop with hremoved | hadded
      · exact HostSet.isDropped_iff.2 (.inl ⟨h, hremoved, rfl⟩)
      · exact HostSet.isDropped_iff.2 (.inr ⟨h, List.mem_filter.2 ⟨hadded, htest⟩, rfl⟩)
    · intro hdrop
      rcases HostSet.isDropped_iff.1 hdrop with hremoved | ⟨o, ho, haddress⟩
      · exact HostSet.isDropped_iff.2 (.inl hremoved)
      · exact HostSet.isDropped_iff.2 (.inr ⟨o, (List.mem_filter.1 ho).1, haddress⟩)
  rw [step.hosts, if_pos rfl, List.filter_append, List.filter_filter, List.filter_filter]
  congr 1
  apply List.filter_congr
  intro h hh
  cases htest : test h with
  | false => rw [Bool.false_and, Bool.and_false]
  | true => rw [hsame h hh htest, Bool.true_and, Bool.and_true]

/-- A part of all hosts that no one who comes or leaves belongs to stays as it is. -/
theorem filter_hosts_of_untouched (step : LevelStep before after priority added removed)
    {test : Host → Bool} (hadded : ∀ h ∈ added, test h = false)
    (hremoved : ∀ h ∈ removed, test h = false) (p : Nat) :
    (after.hostsAt p).filter test = (before.hostsAt p).filter test := by
  by_cases hp : p = priority
  · subst hp
    have hnone : added.filter test = [] := by
      rw [List.filter_eq_nil_iff]
      intro h hh
      rw [hadded h hh]
      exact Bool.false_ne_true
    rw [step.hosts, if_pos rfl, List.filter_append, hnone, List.append_nil, List.filter_filter]
    apply List.filter_congr
    intro h hh
    cases htest : test h with
    | false => rw [Bool.false_and]
    | true =>
      -- one who passes the test is not named, so it is not dropped
      cases hdrop : HostSet.isDropped added removed h with
      | false => rfl
      | true =>
        rcases step.listed h hh hdrop with hin | hin
        · rw [hremoved h hin] at htest
          cases htest
        · rw [hadded h hin] at htest
          cases htest
  · rw [step.hosts, if_neg hp]

end LevelStep

/-! ## Subsets in step -/

/-- Every weight scaled by how many hosts of its locality are kept, and how many there are. -/
def SubsetPlan.scaled (plan : SubsetPlan) (weights : LocalityWeights)
    (kept total : Locality → Nat) : LocalityWeights :=
  weights.mapValues fun l w => plan.numerics.scaleWeight w (kept l) (total l)

/-- All weights that a cluster may pass on to a subset are fit, as they are and scaled. -/
def SubsetPlan.PassesOn (plan : SubsetPlan) (whole : PrioritySet) (fit : LocalityWeights → Prop) :
    Prop :=
  ∀ p level, whole.level? p = some level → fit level.configuredWeights ∧
    ∀ kept total, fit (plan.scaled level.configuredWeights kept total)

theorem SubsetPlan.passesOn_any (plan : SubsetPlan) (whole : PrioritySet) :
    plan.PassesOn whole fun _ => True :=
  fun _ _ _ => ⟨trivial, fun _ _ => trivial⟩

namespace HostSubset

variable (plan : SubsetPlan) (t : HostTable)

/-- The subset has the hosts of its cluster that match it, at every level and in order,
and a balancer for them. -/
structure InStep (whole : PrioritySet) (s : HostSubset) : Prop where
  hosts : ∀ p, s.set.hostsAt p =
    (whole.hostsAt p).filter fun h => h.matchesTuple plan.settings.listAsAny s.metadata
  sound : s.set.Sound
  built : ∃ t w, s.balancer = (plan.strategy.build plan.numerics t s.set w).1

/-! ### Weights are no hosts -/

@[simp] theorem hostsAt_weigh (whole set : PrioritySet) (priority p : Nat) :
    (weigh plan whole set priority).hostsAt p = set.hostsAt p := by
  rw [weigh]
  split
  · rfl
  · split
    · rfl
    · split
      · rw [PrioritySet.hostsAt_setLocalityWeights]
      · dsimp only
        rw [PrioritySet.hostsAt_setLocalityWeights, PrioritySet.hostsAt_ensureLevel]

theorem hostsAt_updateSet (metadata : Tuple) (whole set : PrioritySet) (priority p : Nat)
    (added removed : List Host) :
    (updateSet plan t metadata whole set priority added removed).hostsAt p =
      if p = priority then
        (set.hostsAt priority).filter (fun h => !HostSet.isDropped
            (added.filter fun h => h.matchesTuple plan.settings.listAsAny metadata) removed h) ++
          added.filter fun h => h.matchesTuple plan.settings.listAsAny metadata
      else set.hostsAt p := by
  rw [updateSet, hostsAt_weigh, PrioritySet.hostsAt_updateHosts]

/-- What is made from nothing has all hosts that match. -/
theorem hostsAt_fullSet (metadata : Tuple) (whole : PrioritySet) (p : Nat) :
    (fullSet plan t metadata whole).hostsAt p =
      (whole.hostsAt p).filter fun h => h.matchesTuple plan.settings.listAsAny metadata := by
  -- every level comes to a level without hosts, so nobody is dropped on the way
  refine PrioritySet.hostsAt_foldl_levels
    (f := fun hosts => hosts.filter fun h => h.matchesTuple plan.settings.listAsAny metadata)
    (PrioritySet.hostsAt_empty _) rfl ?_ p
  intro set l hempty p
  rw [hostsAt_updateSet, hempty]
  rfl

@[simp] theorem hostsAt_refreshSet (whole set : PrioritySet) (p : Nat) :
    (refreshSet plan t whole set).hostsAt p = set.hostsAt p := by
  rw [refreshSet]
  refine List.foldlRecOn (motive := fun set' : PrioritySet => set'.hostsAt p = set.hostsAt p) _ _
    (PrioritySet.hostsAt_refreshHealth t p) ?_
  intro set' ih q _
  rw [hostsAt_weigh, ih]

/-! ### What holds of every level -/

section Everywhere

variable {plan t} {whole set : PrioritySet} {P : HostSet → Prop} {fit : LocalityWeights → Prop}

/-- **Weighing keeps what lasts.** It creates a level at most, and sets weights that are fit. -/
theorem everywhere_weigh (h : set.Everywhere P) (lasting : HostSet.Lasting P t fit)
    (passesOn : plan.PassesOn whole fit) (p : Nat) : (weigh plan whole set p).Everywhere P := by
  rw [weigh]
  split
  · exact h
  · split
    · exact h
    next level hlevel =>
      obtain ⟨plain, scaled⟩ := passesOn p level hlevel
      split
      · exact h.setLocalityWeights lasting p plain
      · exact (h.ensureLevel p).setLocalityWeights lasting p (scaled _ level.byLocality.count)

theorem everywhere_updateSet (h : set.Everywhere P) (lasting : HostSet.Lasting P t fit)
    (passesOn : plan.PassesOn whole fit) (metadata : Tuple) (p : Nat) (added removed : List Host) :
    (updateSet plan t metadata whole set p added removed).Everywhere P :=
  everywhere_weigh (h.updateHosts lasting p _ removed) lasting passesOn p

theorem everywhere_fullSet (fresh : ∀ p, P (.empty p whole.overprovisioning))
    (lasting : HostSet.Lasting P t fit) (passesOn : plan.PassesOn whole fit) (metadata : Tuple) :
    (fullSet plan t metadata whole).Everywhere P := by
  refine List.foldlRecOn (motive := fun set : PrioritySet => set.Everywhere P) _ _
    (PrioritySet.everywhere_empty fresh) ?_
  intro set h l _
  exact everywhere_updateSet h lasting passesOn metadata l.priority l.hosts []

/-- Weights come last, after all partitions were computed. -/
theorem everywhere_refreshSet (h : (set.refreshHealth t).Everywhere P)
    (lasting : HostSet.Lasting P t fit) (passesOn : plan.PassesOn whole fit) :
    (refreshSet plan t whole set).Everywhere P := by
  refine List.foldlRecOn (motive := fun set : PrioritySet => set.Everywhere P) _ _ h ?_
  intro set h p _
  exact everywhere_weigh h lasting passesOn p

end Everywhere

/-! ### Staying in step -/

variable {plan t} {whole before after : PrioritySet} {s : HostSubset}

theorem inStep_build {metadata : Tuple} {set : PrioritySet}
    (hosts : ∀ p, set.hostsAt p =
      (whole.hostsAt p).filter fun h => h.matchesTuple plan.settings.listAsAny metadata)
    (sound : set.Sound) (w : Workshop) : InStep plan whole (build plan t metadata set w).1 :=
  ⟨hosts, sound, t, w, rfl⟩

/-- A subset that is made anew is in step. -/
theorem inStep_new (metadata : Tuple) (whole : PrioritySet) (w : Workshop) :
    InStep plan whole (new plan t metadata whole w).1 :=
  inStep_build (hostsAt_fullSet plan t metadata whole)
    (everywhere_fullSet (fun p => HostSet.sound_empty p _) (HostSet.lasting_sound t)
      (plan.passesOn_any whole) metadata) w

/-- A subset that is told about a change stays in step. -/
theorem InStep.update {priority : Nat} {added removed : List Host} (h : InStep plan before s)
    (step : LevelStep before after priority added removed) (w : Workshop) :
    InStep plan after (s.update plan t after priority added removed w).1 := by
  refine inStep_build (fun p => ?_) (everywhere_updateSet h.sound (HostSet.lasting_sound t)
    (plan.passesOn_any after) s.metadata priority added removed) w
  rw [hostsAt_updateSet]
  by_cases hp : p = priority
  · rw [if_pos hp, hp, step.filter_hosts, h.hosts]
  · rw [if_neg hp, h.hosts, step.hosts, if_neg hp]

/-- A subset that catches up with health and weights stays in step. -/
theorem InStep.refresh (h : InStep plan before s)
    (same : ∀ p, after.hostsAt p = before.hostsAt p) (w : Workshop) :
    InStep plan after (s.refresh plan t after w).1 := by
  refine inStep_build (fun p => ?_) (everywhere_refreshSet
    (PrioritySet.sound_refreshHealth t s.set) (HostSet.lasting_sound t) (plan.passesOn_any after)) w
  rw [hostsAt_refreshSet, h.hosts, same]

/-- A subset that is not told about a change stays in step, if nobody who comes or leaves
belongs to it. -/
theorem InStep.untouched {priority : Nat} {added removed : List Host} (h : InStep plan before s)
    (step : LevelStep before after priority added removed)
    (hadded : ∀ o ∈ added, o.matchesTuple plan.settings.listAsAny s.metadata = false)
    (hremoved : ∀ o ∈ removed, o.matchesTuple plan.settings.listAsAny s.metadata = false) :
    InStep plan after s :=
  ⟨fun p => by rw [h.hosts, step.filter_hosts_of_untouched hadded hremoved], h.sound, h.built⟩

theorem InStep.congr (h : InStep plan before s)
    (same : ∀ p, after.hostsAt p = before.hostsAt p) : InStep plan after s :=
  ⟨fun p => by rw [h.hosts, same], h.sound, h.built⟩

/-- The hosts of a subset are those of the cluster that match it. -/
theorem InStep.mem_hosts (h : InStep plan whole s) {host : Host} :
    host ∈ s.set.hosts ↔
      host ∈ whole.hosts ∧ host.matchesTuple plan.settings.listAsAny s.metadata = true := by
  rw [PrioritySet.mem_hosts, PrioritySet.mem_hosts]
  simp only [h.hosts, List.mem_filter]
  constructor
  · rintro ⟨p, hp, hmatches⟩
    exact ⟨⟨p, hp⟩, hmatches⟩
  · rintro ⟨⟨p, hp⟩, hmatches⟩
    exact ⟨p, hp, hmatches⟩

end HostSubset

end LoadBalancing
