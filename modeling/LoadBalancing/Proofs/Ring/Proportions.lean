/-
The shares of a ring, in exact arithmetic: a whole that is split by weight.

Without locality weights the whole is split among the hosts of a partition. With them it is split
twice: among the localities that have hosts in the partition, and in each of them among these hosts.
The localities, their weights and their hosts come in three lists that are aligned by position. In
each of the three partitions they are lined up with the localities of the level, since parts of a
grouping keep all its groups, and groups without hosts or without weight drop out
(`Shares.ofHostSet_weighed`). What drops out had no part in the sum, so the parts of those that are
served make up the whole.
-/
import LoadBalancing.Proofs.Ring.Shares
import Mathlib.Algebra.BigOperators.Group.Finset.Basic
import Mathlib.Algebra.BigOperators.Ring.List
import Mathlib.Order.Bounds.Basic

set_option autoImplicit false

namespace LoadBalancing

/-! ## Localities of a partition -/

namespace HostSet

/-- The configured weight of a locality; zero where none is configured. -/
def weightOf (s : HostSet) (l : Locality) : Nat :=
  (s.configuredWeights.get? l).getD 0

/-- The hosts of a partition that are in a locality, in order. -/
def membersOf (s : HostSet) (p : Partition) (l : Locality) : List Host :=
  (s.partition p).filter fun h => h.locality = l

/-- The localities in which a partition has hosts. -/
def occupied (s : HostSet) (p : Partition) : Finset Locality :=
  ((s.partition p).map (·.locality)).toFinset

/-- The localities that have a share of a partition, in the order of the localities. -/
def served (s : HostSet) (p : Partition) : List Locality :=
  (ByLocality.ofHosts s.hosts).localities.filter fun l =>
    0 < s.weightOf l && !(s.membersOf p l).isEmpty

variable {s : HostSet} {p : Partition} {l : Locality}

theorem mem_occupied : l ∈ s.occupied p ↔ s.membersOf p l ≠ [] := by
  rw [occupied, List.mem_toFinset, List.mem_map, membersOf, ne_eq, List.filter_eq_nil_iff]
  simp

theorem nodup_served (s : HostSet) (p : Partition) : (s.served p).Nodup :=
  (ByLocality.nodup_ofHosts s.hosts).filter _

theorem mem_served (sound : s.Sound) :
    l ∈ s.served p ↔ 0 < s.weightOf l ∧ s.membersOf p l ≠ [] := by
  rw [served, List.mem_filter, Bool.and_eq_true, decide_eq_true_eq, Bool.not_eq_true',
    List.isEmpty_eq_false_iff, and_iff_right_iff_imp]
  rintro ⟨-, hsome⟩
  obtain ⟨h, hh⟩ := List.exists_mem_of_ne_nil _ hsome
  obtain ⟨hpart, heq⟩ := List.mem_filter.1 hh
  exact ByLocality.mem_localities_ofHosts.2 ⟨h, sound.mem_hosts hpart, of_decide_eq_true heq⟩

/-- Localities that are not served have no part in the sum of the weights. -/
theorem sum_served (sound : s.Sound) :
    ((s.served p).map s.weightOf).sum = ∑ l ∈ s.occupied p, s.weightOf l := by
  rw [← List.sum_toFinset _ (nodup_served s p)]
  apply Finset.sum_subset
  · intro l hl
    rw [List.mem_toFinset, mem_served sound] at hl
    exact mem_occupied.2 hl.2
  · intro l hl hnot
    rw [List.mem_toFinset, mem_served sound, not_and_or] at hnot
    exact Nat.eq_zero_of_not_pos (hnot.resolve_right (not_not.2 (mem_occupied.1 hl)))

end HostSet

/-! ## Parts -/

/-- Parts by weight make up what is split. -/
theorem sum_map_ratio {β : Type} (f : β → Nat) (l : List β) (part : Rat)
    (hsum : (l.map f).sum ≠ 0) :
    (l.map fun x => (f x : Rat) / ((l.map f).sum : Nat) * part).sum = part := by
  have cast : (l.map fun x => (f x : Rat)).sum = ((l.map f).sum : Nat) := by
    rw [← Nat.coe_castRingHom, map_list_sum, List.map_map]
    rfl
  calc (l.map fun x => (f x : Rat) / ((l.map f).sum : Nat) * part).sum
      = (l.map fun x => (f x : Rat) * (part / ((l.map f).sum : Nat))).sum := by
        simp only [div_mul_eq_mul_div, mul_div_assoc]
    _ = ((l.map f).sum : Nat) * (part / ((l.map f).sum : Nat)) := by
        rw [List.sum_map_mul_right, cast]
    _ = part := mul_div_cancel₀ part (Nat.cast_ne_zero.2 hsum)

/-- Each of some groups, told apart by the locality of the hosts, can be found again. -/
theorem filter_flatMap_locality {localities : List Locality} (nodup : localities.Nodup)
    {f : Locality → List (Host × Rat)} (own : ∀ l, ∀ x ∈ f l, x.1.locality = l) (l : Locality) :
    (localities.flatMap f).filter (fun x => x.1.locality = l) =
      if l ∈ localities then f l else [] := by
  induction localities with
  | nil => rfl
  | cons first rest ih =>
    obtain ⟨hnot, hrest⟩ := List.nodup_cons.1 nodup
    rw [List.flatMap_cons, List.filter_append, ih hrest]
    -- a locality comes up once, so after its own group there is nothing more of it
    by_cases hfirst : l = first
    · subst hfirst
      rw [if_neg hnot, if_pos List.mem_cons_self, List.append_nil, List.filter_eq_self]
      exact fun x hx => decide_eq_true (own l x hx)
    · have nobody : (f first).filter (fun x => x.1.locality = l) = [] := by
        rw [List.filter_eq_nil_iff]
        intro x hx
        rw [own first x hx, decide_eq_true_eq]
        exact fun heq => hfirst heq.symm
      have same : l ∈ first :: rest ↔ l ∈ rest := List.mem_cons.trans (or_iff_right hfirst)
      simp only [nobody, List.nil_append, same]

namespace Shares

variable {t computed : HostTable} {s : HostSet} {p : Partition} {l : Locality}

theorem split_eq (t : HostTable) (part : Rat) (hosts : List Host) :
    split t part hosts =
      hosts.map fun h => (h, (t.weight h : Rat) / ((hosts.map t.weight).sum : Nat) * part) := by
  rw [split_rat]
  simp only [div_mul_eq_mul_div]

theorem sum_split (t : HostTable) (part : Rat) {hosts : List Host} (somebody : hosts ≠ []) :
    ((split t part hosts).map (·.2)).sum = part := by
  have hsum : (hosts.map t.weight).sum ≠ 0 := by
    obtain ⟨h, hh⟩ := List.exists_mem_of_ne_nil hosts somebody
    exact Nat.ne_of_gt
      (List.sum_pos_iff_exists_pos_nat.2 ⟨_, List.mem_map_of_mem hh, t.weight_pos h⟩)
  rw [split_eq, List.map_map]
  exact sum_map_ratio t.weight hosts part hsum

/-! ## Shares of a partition -/

/-- The part of the whole that a locality has. -/
def partOf (s : HostSet) (p : Partition) (l : Locality) : Rat :=
  (s.weightOf l : Rat) / ((∑ l' ∈ s.occupied p, s.weightOf l' : Nat) : Rat)

theorem ofHostSet_plain (none : s.localityWeights.getD [] = []) :
    (ofHostSet t s p : Shares Rat).shares = split t 1 (s.partition p) := by
  rw [ofHostSet]
  cases hweights : s.localityWeights with
  | none => rfl
  | some weights =>
    rw [hweights, Option.getD_some] at none
    rw [none]
    rfl

theorem splitByLocality_map (t : HostTable) (localities : List Locality)
    (weight : Locality → Nat) (group : Locality → List Host) :
    let served := localities.filter fun l => 0 < weight l && !(group l).isEmpty
    splitByLocality t (localities.map weight) (localities.map group) =
      served.flatMap fun l =>
        split t ((weight l : Rat) / ((served.map weight).sum : Nat)) (group l) := by
  rw [splitByLocality, List.zip_map']
  simp only [List.filter_map, List.map_map, List.flatMap_map]
  rfl

/-- **Splitting twice**, locality by locality. -/
theorem ofHostSet_weighed (current : s.Current computed)
    (weighed : s.configuredWeights.isEmpty = false) :
    (ofHostSet t s p : Shares Rat).shares =
      (s.served p).flatMap fun l => split t (partOf s p l) (s.membersOf p l) := by
  have sound := current.matchesHealth.sound
  have aligned : s.localityWeights =
      some ((ByLocality.ofHosts s.hosts).localities.map s.weightOf) := by
    rw [current.localityWeights_eq, weighed]
    rfl
  have twice : splitByLocality t ((ByLocality.ofHosts s.hosts).localities.map s.weightOf)
      (s.partitionByLocality p).hosts =
        (s.served p).flatMap fun l => split t (partOf s p l) (s.membersOf p l) := by
    rw [current.hosts_partitionByLocality]
    refine (splitByLocality_map t _ s.weightOf (s.membersOf p)).trans ?_
    simp only [partOf, ← HostSet.sum_served sound]
    rfl
  rw [ofHostSet, aligned]
  dsimp only
  cases hlocalities : (ByLocality.ofHosts s.hosts).localities with
  | cons first rest => rw [← twice, hlocalities, List.map_cons]
  | nil =>
    -- a level without localities has nobody, and nobody is served
    have nobody : s.partition p = [] := by
      rw [List.eq_nil_iff_forall_not_mem]
      intro h hh
      have listed := ByLocality.mem_localities_ofHosts.2 ⟨h, sound.mem_hosts hh, rfl⟩
      rw [hlocalities] at listed
      cases listed
    rw [HostSet.served, hlocalities, List.map_nil, nobody]
    rfl

/-- What each locality has is split among its hosts in the partition, in proportion to their
weights; one without weight has nothing. -/
theorem filter_locality (current : s.Current computed)
    (weighed : s.configuredWeights.isEmpty = false) (l : Locality) :
    (ofHostSet t s p : Shares Rat).shares.filter (fun x => x.1.locality = l) =
      if 0 < s.weightOf l then split t (partOf s p l) (s.membersOf p l) else [] := by
  have own : ∀ l, ∀ x ∈ split t (partOf s p l) (s.membersOf p l), x.1.locality = l := by
    intro l x hx
    have hmem := List.mem_map_of_mem (f := (·.1)) hx
    rw [map_split] at hmem
    exact of_decide_eq_true (List.mem_filter.1 hmem).2
  rw [ofHostSet_weighed current weighed, filter_flatMap_locality (HostSet.nodup_served s p) own]
  simp only [HostSet.mem_served current.matchesHealth.sound]
  -- a locality is left out for its weight, or because nobody of it is in the partition
  by_cases hpos : 0 < s.weightOf l
  · by_cases hsome : s.membersOf p l = []
    · rw [if_neg fun h => h.2 hsome, if_pos hpos, hsome]
      rfl
    · rw [if_pos ⟨hpos, hsome⟩, if_pos hpos]
  · rw [if_neg fun h => hpos h.1, if_neg hpos]

theorem sum_locality (current : s.Current computed)
    (weighed : s.configuredWeights.isEmpty = false) (occupied : l ∈ s.occupied p) :
    (((ofHostSet t s p : Shares Rat).shares.filter (fun x => x.1.locality = l)).map (·.2)).sum =
      partOf s p l := by
  rw [filter_locality current weighed]
  by_cases hpos : 0 < s.weightOf l
  · rw [if_pos hpos, sum_split t _ (HostSet.mem_occupied.1 occupied)]
  · rw [if_neg hpos, partOf, Nat.eq_zero_of_not_pos hpos, Nat.cast_zero, zero_div]
    rfl

/-- The hosts with a share are those in localities with a weight. -/
theorem perm_weighed (current : s.Current computed)
    (weighed : s.configuredWeights.isEmpty = false) :
    ((ofHostSet t s p : Shares Rat).shares.map (·.1)).Perm
      ((s.partition p).filter fun h => 0 < s.weightOf h.locality) := by
  have sound := current.matchesHealth.sound
  have listed : ∀ h ∈ (s.partition p).filter fun h => 0 < s.weightOf h.locality,
      h.locality ∈ s.served p := by
    intro h hh
    obtain ⟨hpart, hpos⟩ := List.mem_filter.1 hh
    have member : h ∈ s.membersOf p h.locality := List.mem_filter.2 ⟨hpart, decide_eq_true rfl⟩
    exact (HostSet.mem_served sound).2 ⟨of_decide_eq_true hpos, List.ne_nil_of_mem member⟩
  -- in a locality that is served, everybody is in a locality with a weight
  have same : ∀ l ∈ s.served p, s.membersOf p l =
      ((s.partition p).filter fun h => 0 < s.weightOf h.locality).filter
        fun h => h.locality = l := by
    intro l hl
    have hpos := ((HostSet.mem_served sound).1 hl).1
    rw [HostSet.membersOf, List.filter_filter]
    apply List.filter_congr
    intro h _
    by_cases heq : h.locality = l
    · simp [heq, hpos]
    · simp [heq]
  rw [ofHostSet_weighed current weighed, List.map_flatMap]
  simp only [map_split]
  rw [List.flatMap_congr same]
  exact ByLocality.flatMap_group_perm (HostSet.nodup_served s p) listed

/-- **All shares together are the whole**, if there is anybody. -/
theorem sum_ofHostSet (current : s.Current computed)
    (somebody : (ofHostSet t s p : Shares Rat).shares ≠ []) :
    ((ofHostSet t s p : Shares Rat).shares.map (·.2)).sum = 1 := by
  cases weighed : s.configuredWeights.isEmpty with
  | true =>
    have none : s.localityWeights.getD [] = [] := by
      rw [current.localityWeights_eq, weighed]
      rfl
    rw [ofHostSet_plain none] at somebody ⊢
    exact sum_split t 1 fun nobody => somebody (by rw [nobody]; rfl)
  | false =>
    have sound := current.matchesHealth.sound
    rw [ofHostSet_weighed current weighed] at somebody ⊢
    -- the hosts of a locality have its part together
    have parts : ∀ l ∈ s.served p,
        ((split t (partOf s p l) (s.membersOf p l)).map (·.2)).sum =
          (s.weightOf l : Rat) / (((s.served p).map s.weightOf).sum : Nat) * 1 := by
      intro l hl
      rw [sum_split t _ ((HostSet.mem_served sound).1 hl).2, partOf, HostSet.sum_served sound,
        mul_one]
    -- somebody has a share, so a locality is served, and those have a weight
    have weight : ((s.served p).map s.weightOf).sum ≠ 0 := by
      obtain ⟨x, hx⟩ := List.exists_mem_of_ne_nil _ somebody
      obtain ⟨l, hl, -⟩ := List.mem_flatMap.1 hx
      have hpos := ((HostSet.mem_served sound).1 hl).1
      exact Nat.ne_of_gt (List.sum_pos_iff_exists_pos_nat.2 ⟨_, List.mem_map_of_mem hl, hpos⟩)
    calc (((s.served p).flatMap fun l => split t (partOf s p l) (s.membersOf p l)).map (·.2)).sum
        = ((s.served p).map fun l =>
            ((split t (partOf s p l) (s.membersOf p l)).map (·.2)).sum).sum := by
          rw [List.map_flatMap, List.flatMap_def, List.sum_flatten, List.map_map]
          rfl
      _ = ((s.served p).map fun l =>
            (s.weightOf l : Rat) / (((s.served p).map s.weightOf).sum : Nat) * 1).sum :=
          congrArg List.sum (List.map_congr_left parts)
      _ = 1 := sum_map_ratio s.weightOf (s.served p) 1 weight

/-- **The shares of a partition are a whole**, unless there are none. -/
theorem whole_ofHostSet (current : s.Current computed)
    (somebody : (ofHostSet t s p : Shares Rat).shares ≠ []) :
    (ofHostSet t s p : Shares Rat).Whole := by
  have pos := (positive_ofHostSet t s p).shares
  have sum := sum_ofHostSet current somebody
  obtain ⟨hone, hle, hmem⟩ := foldl_least_spec (ofHostSet t s p : Shares Rat).shares 1
  refine ⟨somebody, pos, sum, ?_, hle⟩
  rcases hmem with heq | hmem
  · -- nobody has less than the whole, and nobody has more
    obtain ⟨share, hshare⟩ := List.exists_mem_of_ne_nil _ somebody
    have nonneg : ∀ part ∈ (ofHostSet t s p : Shares Rat).shares.map (·.2), 0 ≤ part := by
      intro part hpart
      obtain ⟨other, hother, rfl⟩ := List.mem_map.1 hpart
      exact le_of_lt (pos other hother)
    have most := List.single_le_sum nonneg share.2 (List.mem_map_of_mem hshare)
    have least := hle share hshare
    rw [sum] at most
    rw [heq] at least
    exact List.mem_map.2 ⟨share, hshare, (le_antisymm most least).trans heq.symm⟩
  · exact hmem

/-! ## The whole of a level -/

/-- How a whole is split among the hosts of a partition. -/
structure SplitsWhole (t : HostTable) (s : HostSet) (p : Partition) (w : Shares Rat) : Prop where
  /-- Without weights of localities everybody has a share by weight, in order. -/
  plain : s.localityWeights.getD [] = [] →
    w.shares = (s.partition p).map fun h =>
      (h, (t.weight h : Rat) / (((s.partition p).map t.weight).sum : Nat))
  /-- With them, everybody in a locality with a weight has one, each once. -/
  weighed : s.configuredWeights.isEmpty = false →
    (w.shares.map (·.1)).Perm ((s.partition p).filter fun h => 0 < s.weightOf h.locality)
  /-- A locality has its part of the sum over all localities with hosts in the partition. -/
  localities : s.configuredWeights.isEmpty = false → ∀ l ∈ s.occupied p,
    ((w.shares.filter fun x => x.1.locality = l).map (·.2)).sum =
      (s.weightOf l : Rat) / ((∑ l' ∈ s.occupied p, s.weightOf l' : Nat) : Rat)
  /-- Its hosts split what it has, in order and in proportion to their weights. -/
  members : s.configuredWeights.isEmpty = false → ∀ l, 0 < s.weightOf l →
    (w.shares.filter fun x => x.1.locality = l) = (s.membersOf p l).map fun h =>
      (h, (t.weight h : Rat) / (((s.membersOf p l).map t.weight).sum : Nat) *
        ((s.weightOf l : Rat) / ((∑ l' ∈ s.occupied p, s.weightOf l' : Nat) : Rat)))
  nobody : w.shares = [] ↔ ∀ h ∈ s.partition p, ¬ s.Weighs h.locality
  whole : w.shares ≠ [] → w.Whole

/-- **A level that came about by any calls, with whatever weights its hosts have now**: each of its
partitions splits the whole. -/
theorem ofHostSet_splitsWhole (run : HostSet.Run s computed) (t : HostTable) (p : Partition) :
    SplitsWhole t s p (ofHostSet t s p) := by
  have current := run.current
  refine
    { plain := fun none => ?plain
      weighed := perm_weighed current
      localities := fun weighed l => sum_locality current weighed
      members := fun weighed l hpos => ?members
      nobody := ?nobody
      whole := whole_ofHostSet current }
  case plain =>
    rw [ofHostSet_plain none, split_eq]
    simp only [mul_one]
  case members =>
    rw [filter_locality current weighed, if_pos hpos, split_eq, partOf]
  case nobody =>
    -- who has no share is named exactly if nobody is in the partition
    rw [← List.map_eq_nil_iff (f := (·.1)), List.eq_nil_iff_forall_not_mem]
    simp only [mem_hosts_ofHostSet current, not_and]

/-! ### A zone that is down -/

section Zones

/-- Five hosts by weight. Only the third one is down. -/
def zonesTable : HostTable :=
  ⟨#[HostState.new 1, HostState.new 3, { HostState.new 5 with flags := .ofHealth .unhealthy },
    HostState.new 2, HostState.new 7]⟩

def zonesHosts : List Host :=
  [HostSet.zoned 0 "a" "z1", HostSet.zoned 1 "b" "z1", HostSet.zoned 2 "c" "z2",
    HostSet.zoned 3 "d" "z3", HostSet.zoned 4 "e" "z4"]

/-- The fourth zone weighs nothing, and the fifth has no hosts. -/
def zonesWeights : LocalityWeights :=
  .ofList [(⟨"r", "z1", ""⟩, 1), (⟨"r", "z2", ""⟩, 4), (⟨"r", "z3", ""⟩, 1), (⟨"r", "z5", ""⟩, 9)]

def zonesLevel : HostSet :=
  ((HostSet.empty 0 140).update zonesTable zonesHosts []).setLocalityWeights zonesWeights

/-- Two zones have healthy hosts and a weight, and they share evenly. -/
theorem splitsWhole_zonesLevel :
    SplitsWhole zonesTable zonesLevel .healthy (ofHostSet zonesTable zonesLevel .healthy) ∧
      (ofHostSet zonesTable zonesLevel .healthy : Shares Rat).shares =
        [(HostSet.zoned 0 "a" "z1", 1 / 8), (HostSet.zoned 1 "b" "z1", 3 / 8),
          (HostSet.zoned 3 "d" "z3", 1 / 2)] ∧
      (ofHostSet zonesTable zonesLevel .healthy : Shares Rat).smallest = 1 / 8 := by
  have run : HostSet.Run zonesLevel zonesTable :=
    .call (.call (.start 0 140 zonesTable) zonesTable (.update zonesHosts [])) zonesTable
      (.setLocalityWeights zonesWeights)
  exact ⟨ofHostSet_splitsWhole run zonesTable .healthy, by decide +kernel, by decide +kernel⟩

end Zones

end Shares

end LoadBalancing
