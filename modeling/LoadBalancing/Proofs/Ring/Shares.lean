/-
Who has a share of a ring, in exact arithmetic.

Where no locality weights are set, all hosts of a partition have a share. Where some are set, a
host has one if there is a weight for its locality (`HostSet.Weighs`). No host weighs nothing, so
all shares are positive, however small, and a ring of some shares is never empty. So whether there
is an owner does not depend on the hash or on the sizes that are asked for, but only on whether
anybody has a share (`Ring.owner?_ofShares_eq_none_iff`).
-/
import LoadBalancing.Proofs.HostSet.Consistency
import LoadBalancing.Proofs.Priority.Routing
import LoadBalancing.Proofs.Ring.Size

set_option autoImplicit false

namespace LoadBalancing

/-! ## Levels -/

namespace HostSet

/-- Whether hosts in a locality have a share of their level: it is weighed, or nothing is. -/
def Weighs (s : HostSet) (l : Locality) : Prop :=
  s.configuredWeights.isEmpty = true ∨ 0 < (s.configuredWeights.get? l).getD 0

variable {s : HostSet} {t : HostTable}

theorem weighs_iff {l : Locality} {weight : Nat}
    (hget : s.configuredWeights.get? l = some weight) : s.Weighs l ↔ 0 < weight := by
  have hsome : ¬ s.configuredWeights.isEmpty = true := by
    intro hempty
    rw [SortedMap.isEmpty, List.isEmpty_iff] at hempty
    rw [SortedMap.get?, hempty] at hget
    cases hget
  rw [Weighs, or_iff_right hsome, hget, Option.getD_some]

/-- Each partition is grouped by all localities of the level. -/
theorem Current.hosts_partitionByLocality (current : s.Current t) (p : Partition) :
    (s.partitionByLocality p).hosts = (ByLocality.ofHosts s.hosts).localities.map fun l =>
      (s.partition p).filter fun h => h.locality = l := by
  have matched := current.matchesHealth
  cases p with
  | all =>
    rw [partitionByLocality, current.byLocality_eq, ByLocality.hosts,
      ByLocality.localities_ofHosts, ByLocality.ofHosts, List.map_map]
    rfl
  | healthy =>
    rw [partitionByLocality, partition, matched.healthyByLocality, matched.healthy,
      ByLocality.hosts, ByLocality.groups_filter_ofHosts, List.map_map]
    rfl
  | degraded =>
    rw [partitionByLocality, partition, matched.degradedByLocality, matched.degraded,
      ByLocality.hosts, ByLocality.groups_filter_ofHosts, List.map_map]
    rfl

end HostSet

/-! ## Shares -/

/-- All shares are positive, also the one that counts as the smallest. -/
structure Shares.Positive (w : Shares Rat) : Prop where
  shares : ∀ share ∈ w.shares, 0 < share.2
  smallest : 0 < w.smallest

namespace Shares

variable {t : HostTable} {hosts : List Host} {weights : List Nat} {groups : List (List Host)}
  {part : Rat}

/-- Weights are positive, so there is always something to split by, unless there is nobody. -/
theorem split_rat (t : HostTable) (part : Rat) (hosts : List Host) :
    split t part hosts =
      hosts.map fun h => (h, (t.weight h : Rat) * part / ((hosts.map t.weight).sum : Rat)) := by
  rw [split]
  split
  next hsum =>
    have nobody : hosts = [] := List.eq_nil_iff_forall_not_mem.2 fun h hh =>
      Nat.ne_of_gt
        (List.sum_pos_iff_exists_pos_nat.2 ⟨_, List.mem_map_of_mem hh, t.weight_pos h⟩) hsum
    rw [nobody]
    rfl
  next => rfl

theorem map_split (t : HostTable) (part : Rat) (hosts : List Host) :
    (split t part hosts).map (·.1) = hosts := by
  rw [split_rat, List.map_map]
  exact List.map_id' hosts

theorem pos_of_mem_split (hpart : 0 < part) {share : Host × Rat}
    (hshare : share ∈ split t part hosts) : 0 < share.2 := by
  rw [split_rat] at hshare
  obtain ⟨h, hh, rfl⟩ := List.mem_map.1 hshare
  have hweight : (0 : Rat) < t.weight h := Nat.cast_pos.2 (t.weight_pos h)
  have hsum : (0 : Rat) < (hosts.map t.weight).sum :=
    Nat.cast_pos.2 (List.sum_pos_iff_exists_pos_nat.2 ⟨_, List.mem_map_of_mem hh, t.weight_pos h⟩)
  exact div_pos (mul_pos hweight hpart) hsum

/-- The localities that are served, with their weights. -/
theorem mem_served {group : Nat × List Host} :
    (group ∈ (weights.zip groups).filter fun (w, hosts) => 0 < w && !hosts.isEmpty) ↔
      group ∈ weights.zip groups ∧ 0 < group.1 ∧ group.2 ≠ [] := by
  rw [List.mem_filter, Bool.and_eq_true, decide_eq_true_eq, Bool.not_eq_true',
    List.isEmpty_eq_false_iff]

theorem mem_hosts_splitByLocality {h : Host} :
    h ∈ (splitByLocality t weights groups : List (Host × Rat)).map (·.1) ↔
      ∃ group ∈ weights.zip groups, 0 < group.1 ∧ h ∈ group.2 := by
  simp only [splitByLocality, List.map_flatMap, map_split, List.mem_flatMap, mem_served]
  constructor
  · rintro ⟨group, ⟨hgroup, hpos, -⟩, hh⟩
    exact ⟨group, hgroup, hpos, hh⟩
  · rintro ⟨group, hgroup, hpos, hh⟩
    exact ⟨group, ⟨hgroup, hpos, List.ne_nil_of_mem hh⟩, hh⟩

theorem pos_of_mem_splitByLocality {share : Host × Rat}
    (hshare : share ∈ splitByLocality t weights groups) : 0 < share.2 := by
  obtain ⟨group, hgroup, hshare⟩ := List.mem_flatMap.1 hshare
  have hpos := (mem_served.1 hgroup).2.1
  refine pos_of_mem_split (div_pos ?_ ?_) hshare
  · exact Nat.cast_pos.2 hpos
  · exact Nat.cast_pos.2 (List.sum_pos_iff_exists_pos_nat.2 ⟨_, List.mem_map_of_mem hgroup, hpos⟩)

/-- The least of some shares and of a bound is one of them, and none is less. -/
theorem foldl_least_spec (shares : List (Host × Rat)) (bound : Rat) :
    let least := shares.foldl (fun m (_, w) => Quantity.least m w) bound
    least ≤ bound ∧ (∀ share ∈ shares, least ≤ share.2) ∧
      (least = bound ∨ least ∈ shares.map (·.2)) := by
  induction shares generalizing bound with
  | nil => exact ⟨le_refl bound, fun share hshare => absurd hshare List.not_mem_nil, .inl rfl⟩
  | cons share rest ih =>
    obtain ⟨hleast, hrest, hmem⟩ := ih (Quantity.least bound share.2)
    -- the least of two is below both, and one of them
    obtain ⟨hbound, hshare, hchoice⟩ : Quantity.least bound share.2 ≤ bound ∧
        Quantity.least bound share.2 ≤ share.2 ∧
        (Quantity.least bound share.2 = bound ∨ Quantity.least bound share.2 = share.2) := by
      rw [Quantity.least_rat]
      exact ⟨min_le_left _ _, min_le_right _ _, min_choice _ _⟩
    refine ⟨le_trans hleast hbound, List.forall_mem_cons.2 ⟨le_trans hleast hshare, hrest⟩, ?_⟩
    rw [List.map_cons, List.mem_cons]
    rcases hmem with heq | hmem
    · exact hchoice.imp heq.trans fun hmin => .inl (heq.trans hmin)
    · exact .inr (.inr hmem)

theorem foldl_least_pos {bound : Rat} {shares : List (Host × Rat)} (hbound : 0 < bound)
    (pos : ∀ share ∈ shares, 0 < share.2) :
    0 < shares.foldl (fun m (_, w) => Quantity.least m w) bound := by
  obtain ⟨-, -, heq | hmem⟩ := foldl_least_spec shares bound
  · rw [heq]
    exact hbound
  · obtain ⟨share, hshare, heq⟩ := List.mem_map.1 hmem
    rw [← heq]
    exact pos share hshare

/-- **Every share is positive.** -/
theorem positive_ofHostSet (t : HostTable) (s : HostSet) (p : Partition) :
    (ofHostSet t s p : Shares Rat).Positive := by
  have pos : ∀ share ∈ (ofHostSet t s p : Shares Rat).shares, 0 < share.2 := by
    intro share hshare
    rw [ofHostSet] at hshare
    dsimp only at hshare
    split at hshare
    next => exact pos_of_mem_splitByLocality hshare
    next => exact pos_of_mem_split one_pos hshare
  exact ⟨pos, foldl_least_pos one_pos pos⟩

/-- **Who has a share**: the hosts of the partition whose localities are weighed. The weights of
hosts may have changed since the partitions were computed. -/
theorem mem_hosts_ofHostSet {s : HostSet} {computed : HostTable} (current : s.Current computed)
    (t : HostTable) (p : Partition) {h : Host} :
    h ∈ (ofHostSet t s p : Shares Rat).shares.map (·.1) ↔
      h ∈ s.partition p ∧ s.Weighs h.locality := by
  rw [ofHostSet, current.localityWeights_eq, HostSet.Weighs]
  dsimp only
  by_cases hempty : s.configuredWeights.isEmpty = true
  · rw [if_pos hempty]
    dsimp only
    rw [map_split, and_iff_left (.inl hempty)]
  · rw [if_neg hempty, or_iff_right hempty]
    have listed (hh : h ∈ s.partition p) :
        h.locality ∈ (ByLocality.ofHosts s.hosts).localities :=
      ByLocality.mem_localities_ofHosts.2 ⟨h, current.matchesHealth.sound.mem_hosts hh, rfl⟩
    split
    next w ws hweights =>
      rw [mem_hosts_splitByLocality, ← Option.some.inj hweights,
        current.hosts_partitionByLocality, List.zip_map']
      simp only [List.mem_map, exists_exists_and_eq_and, List.mem_filter, decide_eq_true_eq]
      constructor
      · rintro ⟨l, -, hpos, hh, rfl⟩
        exact ⟨hh, hpos⟩
      · rintro ⟨hh, hpos⟩
        exact ⟨h.locality, listed hh, hpos, hh, rfl⟩
    next hother =>
      -- a level without localities has nobody
      have nobody : (ByLocality.ofHosts s.hosts).localities = [] := by
        by_contra hsome
        obtain ⟨l, rest, hcons⟩ := List.exists_cons_of_ne_nil hsome
        rw [hcons] at hother
        exact hother _ _ rfl
      rw [nobody] at listed
      rw [map_split]
      exact ⟨fun hh => absurd (listed hh) List.not_mem_nil, fun hh => hh.1⟩

end Shares

/-! ## Rings -/

namespace Ring

variable {w : Shares Rat} {s : RingSettings}

theorem firstFrom_mem {entries : List RingEntry} {h : UInt64} {e : RingEntry}
    (hfirst : firstFrom entries h = some e) : e ∈ entries := by
  rw [firstFrom, Option.or_eq_some_iff] at hfirst
  rcases hfirst with hfound | ⟨-, hhead⟩
  · exact List.mem_of_find?_eq_some hfound
  · exact List.mem_of_head? hhead

/-- The owner of a hash has a share. -/
theorem mem_of_owner? {h : UInt64} {o : Host} (howner : (ofShares w s).owner? h = some o) :
    o ∈ w.shares.map (·.1) := by
  rw [owner?_eq (sorted_ofShares w s), Option.map_eq_some_iff] at howner
  obtain ⟨e, hfirst, rfl⟩ := howner
  have hmem := firstFrom_mem hfirst
  rw [entries_ofShares, List.mem_mergeSort, List.mem_flatMap] at hmem
  obtain ⟨count, hcount, he⟩ := hmem
  have hhosts : (dealt w s).map (·.1) = w.shares.map (·.1) := map_deal ..
  rw [host_of_mem_entriesOf he, ← hhosts]
  exact List.mem_map_of_mem hcount

theorem scale_pos (positive : w.Positive) (valid : s.problem? = none) :
    0 < scale w.smallest s := by
  obtain ⟨hmin, hmax⟩ : 0 < s.minimumSize ∧ 0 < s.maximumSize := by
    unfold RingSettings.problem? at valid
    grind
  have hsmallest := positive.smallest
  have hceil : 0 < ⌈w.smallest * s.minimumSize⌉₊ :=
    Nat.ceil_pos.2 (mul_pos hsmallest (Nat.cast_pos.2 hmin))
  rw [scale_rat]
  exact lt_min (div_pos (Nat.cast_pos.2 hceil) hsmallest) (Nat.cast_pos.2 hmax)

/-- **Every hash has an owner**, if anybody has a share. -/
theorem owner?_ofShares_eq_none_iff (positive : w.Positive) (valid : s.problem? = none)
    (h : UInt64) : (ofShares w s).owner? h = none ↔ w.shares = [] := by
  rw [owner?_eq (sorted_ofShares w s), Option.map_eq_none_iff, firstFrom_eq_none_iff]
  constructor
  · intro hempty
    by_contra hsome
    -- all shares together are worth at least one entry, since they are rounded up
    have hscale := scale_pos positive valid
    have hsize := sum_take_dealt positive.shares (le_of_lt hscale) w.shares.length
    rw [← length_dealt w s, List.take_length, length_dealt, List.take_length, ← size_ofShares,
      size, ← Array.length_toList, hempty, List.length_nil, eq_comm, Nat.ceil_eq_zero] at hsize
    have hsum : 0 < (w.shares.map (·.2)).sum := by
      refine List.sum_pos _ (fun part hpart => ?_) (mt List.map_eq_nil_iff.1 hsome)
      obtain ⟨share, hshare, rfl⟩ := List.mem_map.1 hpart
      exact positive.shares share hshare
    exact absurd hsize (not_le.2 (mul_pos hscale hsum))
  · intro hnobody
    rw [ofShares, hnobody]
    rfl

/-- **The ring of a partition** has owners among those hosts whose localities are weighed, and
none only where there are no such hosts. -/
theorem owner?_ofHostSet {l : HostSet} {computed : HostTable} (current : l.Current computed)
    (valid : s.problem? = none) (t : HostTable) (p : Partition) (hash : UInt64) :
    let owner := (ofShares (Shares.ofHostSet t l p : Shares Rat) s).owner? hash
    (∀ h, owner = some h → h ∈ l.partition p ∧ l.Weighs h.locality) ∧
      (owner = none ↔ ∀ h ∈ l.partition p, ¬ l.Weighs h.locality) := by
  refine ⟨fun h howner => (Shares.mem_hosts_ofHostSet current t p).1 (mem_of_owner? howner), ?_⟩
  rw [owner?_ofShares_eq_none_iff (Shares.positive_ofHostSet t l p) valid,
    ← List.map_eq_nil_iff (f := (·.1)), List.eq_nil_iff_forall_not_mem]
  simp only [Shares.mem_hosts_ofHostSet current, not_and]

end Ring

end LoadBalancing
