/-
Partitions that are not out of date.

A level keeps its healthy hosts, its degraded hosts and its groupings beside the hosts
themselves. They are current if computing them anew would change nothing. Health moves on
without them, so this is a matter of the level and of the host table together: partitions
stay current as long as no host of the level gets another health (`HostSet.Current.congr`),
and they become current whenever they are computed. All else that happens to a level leaves
current partitions current.
-/
import LoadBalancing.Proofs.HostSet.Levels

set_option autoImplicit false

namespace LoadBalancing

/-- The parts of a grouping depend on the hosts that were grouped only. -/
theorem ByLocality.filter_ofHosts_congr {hosts : List Host} {keep keep' : Host → Bool}
    (same : ∀ h ∈ hosts, keep' h = keep h) :
    (ofHosts hosts).filter keep' = (ofHosts hosts).filter keep := by
  rw [ofHosts, filter, filter]
  dsimp only
  rw [List.map_map, List.map_map]
  congr 1
  apply List.map_congr_left
  intro locality _
  have part : ∀ h ∈ hosts.filter (fun h => h.locality = locality), keep' h = keep h :=
    fun h hh => same h (List.mem_filter.1 hh).1
  dsimp only [Function.comp]
  rw [List.filter_congr part]

/-! ## One level -/

namespace HostSet

/-- Computing the partitions anew would change nothing. -/
def Current (s : HostSet) (t : HostTable) : Prop :=
  s.rebuild t = s

variable {s : HostSet} {t t' : HostTable}

/-- The partitions of the level have its hosts, by the health that they have now. -/
structure MatchesHealth (s : HostSet) (t : HostTable) : Prop where
  healthy : s.healthy = s.hosts.filter fun o => decide (t.health o = .healthy)
  degraded : s.degraded = s.hosts.filter fun o => decide (t.health o = .degraded)
  healthyByLocality : s.healthyByLocality =
    (ByLocality.ofHosts s.hosts).filter fun o => decide (t.health o = .healthy)
  degradedByLocality : s.degradedByLocality =
    (ByLocality.ofHosts s.hosts).filter fun o => decide (t.health o = .degraded)

theorem Current.matchesHealth (h : s.Current t) : s.MatchesHealth t where
  healthy := (congrArg HostSet.healthy h).symm
  degraded := (congrArg HostSet.degraded h).symm
  healthyByLocality := (congrArg HostSet.healthyByLocality h).symm
  degradedByLocality := (congrArg HostSet.degradedByLocality h).symm

/-- Partitions by the health of some time hold hosts of their level only. -/
theorem MatchesHealth.sound (h : s.MatchesHealth t) : s.Sound where
  healthy _ ho := (List.mem_filter.1 (h.healthy ▸ ho)).1
  degraded _ ho := (List.mem_filter.1 (h.degraded ▸ ho)).1

theorem current_empty (priority overprovisioning : Nat) (t : HostTable) :
    (empty priority overprovisioning).Current t := rfl

theorem current_rebuild (s : HostSet) (t : HostTable) : (s.rebuild t).Current t := rfl

/-- **Whatever happens to a level** leaves current partitions current: they are computed anew, or
only the weights change, and weights have no part in them. -/
theorem lasting_current (t : HostTable) : Lasting (fun l => l.Current t) t fun _ => True := by
  refine .of_rebuild t (fun l => current_rebuild l t) fun {l weights} _ h => ?_
  have same : (l.setLocalityWeights weights).rebuild t =
      (l.rebuild t).setLocalityWeights weights := rfl
  rw [Current, same, h]

/-- Whoever comes or goes, the partitions are computed anew. -/
theorem current_update (s : HostSet) (t : HostTable) {added removed : List Host}
    (h : added ≠ [] ∨ removed ≠ []) : (s.update t added removed).Current t := by
  rw [update, if_neg]
  · exact current_rebuild _ t
  · rwa [Bool.and_eq_true, List.isEmpty_iff, List.isEmpty_iff, Classical.not_and_iff_not_or_not]

/-- What is computed depends on the health of the hosts of the level, and on nobody else's. -/
theorem rebuild_congr (same : ∀ h ∈ s.hosts, t'.health h = t.health h) :
    s.rebuild t' = s.rebuild t := by
  have parts (health : Health) : ∀ h ∈ s.hosts,
      decide (t'.health h = health) = decide (t.health h = health) :=
    fun h hh => by rw [same h hh]
  simp only [rebuild]
  rw [List.filter_congr (parts .healthy), List.filter_congr (parts .degraded),
    ByLocality.filter_ofHosts_congr (parts .healthy),
    ByLocality.filter_ofHosts_congr (parts .degraded)]

theorem Current.congr (h : s.Current t) (same : ∀ o ∈ s.hosts, t'.health o = t.health o) :
    s.Current t' :=
  (rebuild_congr same).trans h

end HostSet

/-! ## All levels -/

namespace PrioritySet

/-- The partitions of all levels are current. -/
def Current (s : PrioritySet) (t : HostTable) : Prop :=
  s.Everywhere fun l => l.Current t

/-- The partitions of all levels have the hosts of their levels, by their health now. -/
def MatchesHealth (s : PrioritySet) (t : HostTable) : Prop :=
  ∀ l ∈ s.levels, l.MatchesHealth t

variable {s : PrioritySet} {t t' : HostTable}

/-- An empty level is always current, so it is enough to look at the levels there are. -/
theorem current_of_levels (h : ∀ p l, s.level? p = some l → l.Current t) : s.Current t :=
  ⟨h, fun p => HostSet.current_empty p s.overprovisioning t⟩

theorem Current.matchesHealth (h : s.Current t) : s.MatchesHealth t :=
  fun _ hl => (Everywhere.of_mem h hl).matchesHealth

theorem current_empty (overprovisioning : Nat) (t : HostTable) :
    (empty overprovisioning).Current t :=
  everywhere_empty fun p => HostSet.current_empty p overprovisioning t

/-- What is computed everywhere is current everywhere. -/
theorem current_refreshHealth (s : PrioritySet) (t : HostTable) :
    (s.refreshHealth t).Current t :=
  everywhere_refreshHealth (fun _ l _ => HostSet.current_rebuild l t) fun p =>
    HostSet.current_empty p s.overprovisioning t

/-- **A membership change.** The level that it changes may be out of date before, if anyone
comes to it or leaves it. -/
theorem current_updateHosts {p : Nat} {added removed : List Host}
    (others : ∀ q l, q ≠ p → s.level? q = some l → l.Current t)
    (level : ∀ l, s.level? p = some l → l.Current t ∨ added ≠ [] ∨ removed ≠ []) :
    (s.updateHosts t p added removed).Current t := by
  refine everywhere_modifyLevel others (fun _ => HostSet.current_empty ..) ?_
  cases hp : s.level? p with
  | some l =>
    rcases level l hp with h | h
    · exact (HostSet.lasting_current t).update added removed h
    · exact HostSet.current_update l t h
  | none => exact (HostSet.lasting_current t).update added removed (HostSet.current_empty ..)

theorem Current.congr (h : s.Current t) (same : ∀ o ∈ s.hosts, t'.health o = t.health o) :
    s.Current t' := by
  refine current_of_levels fun p l hl => ?_
  exact (h.levels p l hl).congr fun o ho => same o (mem_hosts.2 ⟨p, hostsAt_of_level? hl ▸ ho⟩)

end PrioritySet

end LoadBalancing
