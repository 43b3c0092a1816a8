/-
The sums of subsets stay within their words where those of their cluster do.

A subset has levels of its own, with some of the hosts of its cluster, and shares of traffic are
computed from them in the same way. Its weights may be others than those of the cluster, but
scaling stops at the largest weight that there is (`Numerics.Words`). Its hosts are no more than
those of the cluster, as long as hosts only come (`HostSubset.Within`).
-/
import LoadBalancing.Proofs.HostSet.Widths
import LoadBalancing.Proofs.Subset.Partitions

set_option autoImplicit false

namespace LoadBalancing

/-! ## Scaled weights -/

namespace Numerics

/-- Scaled weights are numbers of 32 bits. -/
def Words (n : Numerics) : Prop :=
  ∀ weight kept total, n.scaleWeight weight kept total < 2 ^ 32

/-- Where nobody is counted the weight is 0, and otherwise scaling stops at the largest weight. -/
theorem scaledWeight_lt (α : Type) [Quantity α] (weight kept total : Nat) :
    scaledWeight α weight kept total < 2 ^ 32 := by
  rw [scaledWeight]
  split
  · exact Nat.two_pow_pos 32
  · exact Nat.lt_of_le_of_lt (Nat.min_le_left _ _) (by decide)

/-- The program's own numerics scale to words. -/
theorem words_float : float.Words :=
  scaledWeight_lt Float

end Numerics

/-! ## One subset -/

namespace HostSubset

variable {plan : SubsetPlan} {whole set : PrioritySet} {factor : Nat}

/-! ### Regular levels -/

/-- The weights that a regular cluster passes on are words, since scaling stops at the largest. -/
theorem passesOn_words (words : plan.numerics.Words) (hwhole : whole.Regular factor) :
    plan.PassesOn whole LocalityWeights.Words := by
  intro p level hlevel
  refine ⟨(hwhole.levels p level hlevel).words, fun kept total l w hw => ?_⟩
  -- whatever the weight was, what is passed on went through the scale
  rw [SubsetPlan.scaled, SortedMap.get?_mapValues] at hw
  obtain ⟨weight, -, rfl⟩ := Option.map_eq_some_iff.1 hw
  exact words weight _ _

/-- A membership change keeps a subset regular, with the weights it takes over from its cluster. -/
theorem regular_updateSet (words : plan.numerics.Words) (hwhole : whole.Regular factor)
    (h : set.Regular factor) (t : HostTable) (metadata : Tuple) (p : Nat)
    (added removed : List Host) :
    (updateSet plan t metadata whole set p added removed).Regular factor :=
  everywhere_updateSet h (HostSet.lasting_regular t) (passesOn_words words hwhole) metadata p added
    removed

/-- All levels of a new subset are regular. -/
theorem regular_fullSet (words : plan.numerics.Words) (hwhole : whole.Regular factor)
    (t : HostTable) (metadata : Tuple) : (fullSet plan t metadata whole).Regular factor :=
  everywhere_fullSet hwhole.fresh (HostSet.lasting_regular t) (passesOn_words words hwhole) metadata

/-- Catching up leaves a subset regular, also where it takes over weights anew. -/
theorem regular_refreshSet (words : plan.numerics.Words) (hwhole : whole.Regular factor)
    (h : set.Regular factor) (t : HostTable) : (refreshSet plan t whole set).Regular factor :=
  everywhere_refreshSet (h.refreshHealth (HostSet.lasting_regular t)) (HostSet.lasting_regular t)
    (passesOn_words words hwhole)

/-! ### Numbers of hosts -/

/-- The subset has no more hosts than its cluster, at every level. -/
def Within (whole : PrioritySet) (s : HostSubset) : Prop :=
  ∀ p, (s.set.hostsAt p).length ≤ (whole.hostsAt p).length

variable {before after : PrioritySet} {t : HostTable} {s : HostSubset} {priority : Nat}
  {added removed : List Host}

/-- A new subset filters the hosts of its cluster. -/
theorem within_new (plan : SubsetPlan) (t : HostTable) (tuple : Tuple) (whole : PrioritySet)
    (w : Workshop) : (new plan t tuple whole w).1.Within whole := by
  intro p
  rw [(inStep_new tuple whole w).hosts]
  exact List.length_filter_le _ _

/-- The first hosts of a level come, and some of them to the subset. -/
theorem Within.update (h : s.Within before) (nobody : before.hostsAt priority = [])
    (hosts : ∀ p, after.hostsAt p = if p = priority then added else before.hostsAt p)
    (w : Workshop) : (s.update plan t after priority added removed w).1.Within after := by
  intro p
  show ((updateSet plan t s.metadata after s.set priority added removed).hostsAt p).length ≤ _
  rw [hostsAt_updateSet, hosts]
  split
  -- nobody was at the level, so nobody of the subset was, and those who come are filtered
  · have hnobody := h priority
    rw [nobody, List.length_nil, Nat.le_zero, List.length_eq_zero_iff] at hnobody
    rw [hnobody, List.filter_nil, List.nil_append]
    exact List.length_filter_le _ _
  · exact h p

/-- They come, and none of them to the subset. -/
theorem Within.mono (h : s.Within before) (nobody : before.hostsAt priority = [])
    (hosts : ∀ p, after.hostsAt p = if p = priority then added else before.hostsAt p) :
    s.Within after := by
  intro p
  have hp := h p
  rw [hosts]
  split
  next heq =>
    -- the subset has nobody there, and the cluster may have anyone by now
    rw [heq, nobody] at hp
    exact Nat.le_trans (heq ▸ hp) (Nat.zero_le _)
  next => exact hp

/-- Catching up moves no host. -/
theorem Within.refresh (h : s.Within whole) (w : Workshop) :
    (s.refresh plan t whole w).1.Within whole := by
  intro p
  show ((refreshSet plan t whole s.set).hostsAt p).length ≤ _
  rw [hostsAt_refreshSet]
  exact h p

end HostSubset

/-! ## All subsets -/

namespace SubsetEngine

/-- The levels of all subsets are regular. -/
def Regular (e : SubsetEngine) (factor : Nat) : Prop :=
  e.Throughout fun s => s.set.Regular factor

variable {e : SubsetEngine} {whole : PrioritySet} {factor : Nat}

/-- **A membership change** keeps all subsets regular, those that it makes included. -/
theorem Regular.update (h : e.Regular factor) (words : e.plan.numerics.Words)
    (hwhole : whole.Regular factor) (t : HostTable) (p : Nat) (added removed : List Host) :
    (e.update t whole p added removed).Regular factor :=
  Throughout.update h
    (fun s _ hs => HostSubset.regular_updateSet words hwhole hs t s.metadata p added removed)
    (fun _ hs => hs) fun tuple _ => HostSubset.regular_fullSet words hwhole t tuple

/-- Catching up keeps all subsets regular. -/
theorem Regular.refresh (h : e.Regular factor) (words : e.plan.numerics.Words)
    (hwhole : whole.Regular factor) (t : HostTable) : (e.refresh t whole).Regular factor :=
  Throughout.refresh h fun _ _ hs => HostSubset.regular_refreshSet words hwhole hs t

/-- The subsets of a new engine are regular, however many hosts they are made from. -/
theorem regular_new {plan : SubsetPlan} (words : plan.numerics.Words)
    (hwhole : whole.Regular factor) (engine : Nat) (t : HostTable) (w : Workshop) :
    (new plan engine t whole w).Regular factor :=
  (throughout_new (fun tuple _ => HostSubset.regular_fullSet words hwhole t tuple)
    (fun l _ s _ hs =>
      HostSubset.regular_updateSet words hwhole hs t s.metadata l.priority l.hosts []) engine w).2

/-- **Subsets of a cluster that is not too large** fit as well. -/
theorem Regular.fits (h : e.Regular factor) (within : e.Throughout (HostSubset.Within whole))
    (few : whole.hosts.length ≤ PrioritySet.mostHosts) (word : factor < 2 ^ 32) {t : HostTable}
    (weights : t.Words) : e.Throughout fun s => s.set.Fits t :=
  (h.and within).imp fun _ hs =>
    hs.1.fits (Nat.le_trans (PrioritySet.length_hosts_le hs.2) few) word weights

end SubsetEngine

end LoadBalancing
