/-
Hosts by locality.

A level keeps its hosts grouped by locality, beside the hosts themselves. Other than the
partitions by health, groups go by the hosts alone, so they are never out of date
(`PrioritySet.Grouped`). What is read off them is how many hosts a locality has
(`PrioritySet.countAt`).
-/
import LoadBalancing.Proofs.HostSet.Levels
import LoadBalancing.Proofs.SortedMap.Lookup
import LoadBalancing.Subset.HostSubset

set_option autoImplicit false

namespace LoadBalancing

/-- Localities that compare as equal are equal in all three parts. -/
instance : Std.LawfulEqOrd Locality where
  eq_of_compare {a b} h := by
    obtain ⟨region, h⟩ := Ordering.then_eq_eq.1 h
    obtain ⟨zone, subZone⟩ := Ordering.then_eq_eq.1 h
    cases a
    cases b
    rw [Locality.mk.injEq]
    exact ⟨Std.LawfulEqOrd.eq_of_compare region, Std.LawfulEqOrd.eq_of_compare zone,
      Std.LawfulEqOrd.eq_of_compare subZone⟩

namespace ByLocality

theorem lookup_map_pair {α β : Type} [BEq α] [LawfulBEq α] (f : α → β) (keys : List α) (a : α) :
    (keys.map fun k => (k, f k)).lookup a = if a ∈ keys then some (f a) else none := by
  induction keys with
  | nil => rfl
  | cons k rest ih =>
    rw [List.map_cons, List.lookup_cons, ih]
    cases h : a == k with
    | true =>
      rw [beq_iff_eq] at h
      simp [h]
    | false =>
      rw [beq_eq_false_iff_ne] at h
      simp [h]

/-- What is counted in a locality are the hosts that are there. -/
theorem count_ofHosts (hosts : List Host) (l : Locality) :
    (ofHosts hosts).count l = (hosts.filter fun h => h.locality = l).length := by
  rw [count, ofHosts, lookup_map_pair]
  split
  · rfl
  next hnot =>
    -- a locality that is not listed has no host
    rw [SortedMap.mem_keys_ofList, List.map_map] at hnot
    have nobody : hosts.filter (fun h => h.locality = l) = [] := by
      rw [List.filter_eq_nil_iff]
      intro h hh heq
      exact hnot (List.mem_map.2 ⟨h, hh, of_decide_eq_true heq⟩)
    rw [nobody]
    rfl

end ByLocality

namespace HostSet

/-- The groups by locality are those of the hosts. -/
def Grouped (s : HostSet) : Prop :=
  s.byLocality = .ofHosts s.hosts

variable {s : HostSet} (t : HostTable)

theorem grouped_empty (priority overprovisioning : Nat) :
    (empty priority overprovisioning).Grouped := rfl

theorem grouped_rebuild (s : HostSet) : (s.rebuild t).Grouped := rfl

theorem lasting_grouped : Lasting Grouped t fun _ => True :=
  .of_rebuild t (grouped_rebuild t) fun _ h => h

end HostSet

namespace PrioritySet

/-- The groups of all levels are those of their hosts. -/
def Grouped (s : PrioritySet) : Prop :=
  s.Everywhere HostSet.Grouped

/-- The number of hosts in a locality of one level. -/
def countAt (s : PrioritySet) (priority : Nat) (locality : Locality) : Nat :=
  ((s.hostsAt priority).filter fun h => h.locality = locality).length

variable {s before after : PrioritySet} (t : HostTable)

theorem countAt_congr {p : Nat} (same : after.hostsAt p = before.hostsAt p) :
    after.countAt p = before.countAt p := by
  funext l
  rw [countAt, countAt, same]

theorem grouped_empty (overprovisioning : Nat) : (empty overprovisioning).Grouped :=
  everywhere_empty fun p => HostSet.grouped_empty p overprovisioning

/-- Groups that were just computed are those of the hosts. -/
theorem grouped_refreshHealth (s : PrioritySet) : (s.refreshHealth t).Grouped :=
  everywhere_refreshHealth (fun _ l _ => HostSet.grouped_rebuild t l) fun p =>
    HostSet.grouped_empty p s.overprovisioning

/-- **Counting by groups** counts the hosts. -/
theorem Grouped.count (h : s.Grouped) (p : Nat) (l : Locality) :
    (((s.level? p).map (·.byLocality)).getD ByLocality.empty).count l = s.countAt p l := by
  rw [countAt, hostsAt]
  cases hp : s.level? p with
  | none => rfl
  | some level =>
    rw [Option.map_some, Option.getD_some, h.levels p level hp, ByLocality.count_ofHosts]
    rfl

end PrioritySet

end LoadBalancing
