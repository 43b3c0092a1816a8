/-
The sums that shares of traffic are computed from stay within their words.

Shares are computed from capacities in 32 bits, and from numbers of hosts, weights of hosts and
weights of localities in 64 bits. What bounds them is the number of hosts: a level without
hosts has no capacity and no weights, and a level has at most a hundred percent for each of its
hosts. So nothing overflows as long as a hundred percent for every host fits in 32 bits
(`PrioritySet.Regular.fits`). With one host more, each at a level of its own, the capacities do.
-/
import LoadBalancing.Proofs.Host.Table
import LoadBalancing.Proofs.HostSet.Localities
import LoadBalancing.Proofs.HostSet.Weights
import LoadBalancing.Proofs.Priority.Routing
import Mathlib.Algebra.GroupWithZero.Nat
import Mathlib.Data.List.Perm.Subperm

set_option autoImplicit false

namespace LoadBalancing

/-! ## Sums -/

theorem sum_le_sum_of_getD_le {l l' : List Nat} (h : ∀ i : Nat, l[i]?.getD 0 ≤ l'[i]?.getD 0) :
    l.sum ≤ l'.sum := by
  induction l generalizing l' with
  | nil => exact Nat.zero_le _
  | cons x rest ih =>
    have hfirst := h 0
    have hrest (i : Nat) := h (i + 1)
    cases l' with
    | nil =>
      have none : rest.sum ≤ ([] : List Nat).sum := ih hrest
      rw [List.sum_cons]
      exact Nat.add_le_add hfirst none
    | cons y rest' =>
      rw [List.sum_cons, List.sum_cons]
      exact Nat.add_le_add hfirst (ih hrest)

theorem length_filter_add_length_filter_le {α : Type} {p q : α → Bool}
    (apart : ∀ a, p a = true → q a = false) (l : List α) :
    (l.filter p).length + (l.filter q).length ≤ l.length := by
  induction l with
  | nil => exact Nat.le_refl _
  | cons a rest ih =>
    rw [List.filter_cons, List.filter_cons, List.length_cons]
    cases hp : p a with
    | true =>
      rw [if_pos rfl, apart a hp, if_neg Bool.false_ne_true, List.length_cons]
      omega
    | false =>
      rw [if_neg Bool.false_ne_true]
      split
      · rw [List.length_cons]
        omega
      · omega

/-! ## One level -/

/-- A grouping has at most one group for each host. -/
theorem ByLocality.length_localities_ofHosts (hosts : List Host) :
    (ofHosts hosts).localities.length ≤ hosts.length := by
  rw [localities, ofHosts, List.map_map, List.length_map]
  have hsub : (SortedMap.ofList (hosts.map fun h => (h.locality, ()))).keys ⊆
      hosts.map (·.locality) := by
    intro l hl
    rw [SortedMap.mem_keys_ofList, List.map_map] at hl
    exact hl
  have hle := (List.subperm_of_subset (SortedMap.nodup_keys _) hsub).length_le
  rwa [List.length_map] at hle

/-- All weights are numbers of 32 bits. -/
def LocalityWeights.Words (weights : LocalityWeights) : Prop :=
  ∀ l w, weights.get? l = some w → w < 2 ^ 32

theorem LocalityWeights.words_empty : Words ∅ := by
  intro l w h
  cases (SortedMap.get?_empty l).symm.trans h

namespace HostSet

/-- No host is both healthy and degraded, no locality is without hosts, and the weights are
those of the localities. -/
structure Regular (s : HostSet) (factor : Nat) : Prop where
  overprovisioning : s.overprovisioning = factor
  parts : s.healthy.length + s.degraded.length ≤ s.hosts.length
  localities : s.byLocality.localities.length ≤ s.hosts.length
  aligned : s.alignWeights = s
  words : s.configuredWeights.Words

variable {s : HostSet} {factor : Nat}

theorem regular_empty (priority factor : Nat) : (empty priority factor).Regular factor :=
  ⟨rfl, Nat.le_refl _, Nat.le_refl _, rfl, LocalityWeights.words_empty⟩

/-- Whatever a level was before, it is regular when it was computed anew. -/
theorem regular_rebuild (overprovisioning : s.overprovisioning = factor)
    (words : s.configuredWeights.Words) (t : HostTable) : (s.rebuild t).Regular factor where
  overprovisioning := overprovisioning
  parts := by
    refine length_filter_add_length_filter_le (fun o hhealthy => ?_) s.hosts
    rw [of_decide_eq_true hhealthy]
    rfl
  localities := ByLocality.length_localities_ofHosts s.hosts
  aligned := rfl
  words := words

/-- A regular level stays regular, as long as the weights that it is given are words. -/
theorem lasting_regular (t : HostTable) :
    Lasting (fun l => l.Regular factor) t LocalityWeights.Words where
  update {l} added removed h := by
    rw [HostSet.update]
    split
    · exact h
    · refine regular_rebuild ?_ ?_ t
      · exact h.overprovisioning
      · exact h.words
  setLocalityWeights words h := ⟨h.overprovisioning, h.parts, h.localities, rfl, words⟩
  refreshHealth h := regular_rebuild h.overprovisioning h.words t

/-- Without hosts in a partition there is no capacity, and with some at most everything. -/
theorem capacity_le (s : HostSet) (part : List Host) : s.capacity part ≤ 100 * part.length := by
  rw [capacity]
  split
  · exact Nat.zero_le _
  · cases part with
    | nil =>
      have nothing : s.overprovisioning * ([] : List Host).length / s.hosts.length = 0 := by
        rw [List.length_nil, Nat.mul_zero, Nat.zero_div]
      exact Nat.le_trans (Nat.min_le_right ..) (Nat.le_trans (Nat.le_of_eq nothing) (Nat.zero_le _))
    | cons h rest =>
      rw [List.length_cons]
      exact Nat.le_trans (Nat.min_le_left ..) (by omega)

theorem Regular.length_partition_le (h : s.Regular factor) (p : Partition) :
    (s.partition p).length ≤ s.hosts.length := by
  have parts := h.parts
  cases p with
  | all => exact Nat.le_refl _
  | healthy => exact Nat.le_trans (Nat.le_add_right _ _) parts
  | degraded => exact Nat.le_trans (Nat.le_add_left _ _) parts

/-- The weights of the localities at hand are configured, or nothing. -/
theorem Regular.localityWeights (h : s.Regular factor) :
    (s.localityWeights.getD []).length ≤ s.hosts.length ∧
      ∀ w ∈ s.localityWeights.getD [], w < 2 ^ 32 := by
  rw [← congrArg HostSet.localityWeights h.aligned, alignWeights]
  dsimp only
  split
  · exact ⟨Nat.zero_le _, by simp⟩
  · rw [Option.getD_some, List.length_map]
    refine ⟨h.localities, fun w hw => ?_⟩
    obtain ⟨l, -, rfl⟩ := List.mem_map.1 hw
    cases hl : s.configuredWeights.get? l with
    | none => exact Nat.two_pow_pos 32
    | some w => exact h.words l w hl

end HostSet

/-! ## Weights of hosts -/

namespace HostTable

variable {t : HostTable}

/-- All weights are numbers of 32 bits. -/
def Words (t : HostTable) : Prop :=
  ∀ h, t.weight h < 2 ^ 32

theorem words_empty : empty.Words := by
  intro h
  rw [weight, state, empty, Array.getD_eq_getD_getElem?, Array.getElem?_empty]
  decide

/-- A verdict is no weight. -/
theorem Words.setVerdict (h : t.Words) (host : Host) (i : Nat) (v : Health) :
    (t.setVerdict host i v).2.Words := by
  intro o
  have same : (t.setVerdict host i v).2.weight o = t.weight o :=
    weight_modify t host o fun _ => rfl
  rw [same]
  exact h o

theorem Words.setWeight (h : t.Words) (host : Host) {w : Nat} (word : w < 2 ^ 32) :
    (t.setWeight host w).2.Words := by
  intro o
  have ho := h o
  rw [weight, state, Array.getD_eq_getD_getElem?] at ho ⊢
  rw [HostTable.setWeight, modify]
  dsimp only
  rw [Array.getElem?_modify]
  split
  · cases hstate : t.states[o.id]? with
    | none =>
      rw [hstate] at ho
      exact ho
    | some s =>
      show max w 1 < 2 ^ 32
      omega
  · exact ho

theorem Words.enrollConfig (h : t.Words) {c : HostConfig} (word : c.weight < 2 ^ 32) :
    (t.enrollConfig c).2.Words := by
  intro o
  have ho := h o
  rw [weight, state, Array.getD_eq_getD_getElem?] at ho ⊢
  rw [HostTable.enrollConfig, enroll, Array.getElem?_push]
  split
  · show max c.weight 1 < 2 ^ 32
    omega
  · exact ho

theorem Words.enrollAll (h : t.Words) {configs : List HostConfig}
    (words : ∀ c ∈ configs, c.weight < 2 ^ 32) : (t.enrollAll configs).2.Words := by
  induction configs generalizing t with
  | nil => exact h
  | cons c rest ih =>
    exact ih (h.enrollConfig (words c List.mem_cons_self))
      fun d hd => words d (List.mem_cons_of_mem _ hd)

end HostTable

/-! ## All levels -/

namespace PrioritySet

variable {s : PrioritySet} {factor : Nat}

/-- All levels are regular. -/
def Regular (s : PrioritySet) (factor : Nat) : Prop :=
  s.Everywhere fun l => l.Regular factor

theorem regular_empty (factor : Nat) : (empty factor).Regular factor :=
  everywhere_empty fun p => HostSet.regular_empty p factor

/-- The factor of the set is that of its levels: it shows in the empty ones. -/
theorem Regular.overprovisioning (h : s.Regular factor) : s.overprovisioning = factor :=
  (h.fresh 0).overprovisioning

/-- What is computed from the levels fits its words: capacities are added up in 32 bits, all
else in 64 bits. -/
structure Fits (s : PrioritySet) (t : HostTable) : Prop where
  capacities : (PriorityState.capacities s (·.healthy)).sum +
    (PriorityState.capacities s (·.degraded)).sum < 2 ^ 32
  counts : ∀ l ∈ s.levels, ∀ p, l.overprovisioning * (l.partition p).length < 2 ^ 64
  weights : ∀ l ∈ s.levels, ∀ p, ((l.partition p).map t.weight).sum < 2 ^ 64
  localityWeights : ∀ l ∈ s.levels, (l.localityWeights.getD []).sum < 2 ^ 64

/-- So many hosts have at most as many percent as there are numbers of 32 bits. -/
def mostHosts : Nat := 42949672

theorem length_hosts (s : PrioritySet) :
    s.hosts.length = (s.levels.map fun l => l.hosts.length).sum := by
  rw [hosts, List.length_flatMap]

theorem length_hosts_of_mem {l : HostSet} (hl : l ∈ s.levels) :
    l.hosts.length ≤ s.hosts.length := by
  rw [length_hosts]
  exact List.le_sum_of_mem (List.mem_map_of_mem hl)

/-- No more hosts at every level are no more hosts in all. -/
theorem length_hosts_le {s s' : PrioritySet}
    (h : ∀ p, (s.hostsAt p).length ≤ (s'.hostsAt p).length) : s.hosts.length ≤ s'.hosts.length := by
  have count (s : PrioritySet) (p : Nat) :
      (s.levels.map (·.hosts.length))[p]?.getD 0 = (s.hostsAt p).length := by
    rw [hostsAt, level?, List.getElem?_map]
    cases s.levels[p]? <;> rfl
  rw [length_hosts, length_hosts]
  refine sum_le_sum_of_getD_le fun p => ?_
  rw [count, count]
  exact h p

/-- **A hundred percent for every host** bounds the capacities of all levels. -/
theorem Regular.capacities_le (regular : s.Regular factor) :
    (PriorityState.capacities s (·.healthy)).sum +
      (PriorityState.capacities s (·.degraded)).sum ≤ 100 * s.hosts.length := by
  rw [PriorityState.capacities, PriorityState.capacities, length_hosts]
  have level := fun l hl => (Everywhere.of_mem regular (l := l) hl).parts
  split
  · exact Nat.zero_le _
  · generalize s.levels = levels at level
    induction levels with
    | nil => exact Nat.zero_le _
    | cons l rest ih =>
      have hrest := ih fun l hl => level l (List.mem_cons_of_mem _ hl)
      have hparts := level l List.mem_cons_self
      have hhealthy := l.capacity_le l.healthy
      have hdegraded := l.capacity_le l.degraded
      simp only [List.map_cons, List.sum_cons]
      omega

/-- **Nothing overflows** with so many hosts, if the factor and all weights are numbers of 32
bits. -/
theorem Regular.fits (regular : s.Regular factor) (few : s.hosts.length ≤ mostHosts)
    (word : factor < 2 ^ 32) {t : HostTable} (weights : t.Words) : s.Fits t := by
  have hosts {l : HostSet} (hl : l ∈ s.levels) : l.hosts.length ≤ mostHosts :=
    Nat.le_trans (length_hosts_of_mem hl) few
  -- all that is added or multiplied is a number of hosts and words of 32 bits
  have product {n m : Nat} (hn : n ≤ mostHosts) (hm : m < 2 ^ 32) : n * m < 2 ^ 64 :=
    Nat.lt_of_le_of_lt (Nat.mul_le_mul hn (Nat.le_of_lt hm)) (by decide)
  have sum {words : List Nat} (hfew : words.length ≤ mostHosts)
      (hwords : ∀ w ∈ words, w < 2 ^ 32) : words.sum < 2 ^ 64 :=
    Nat.lt_of_le_of_lt
      (List.sum_le_card_nsmul words (2 ^ 32 - 1) fun w hw => Nat.le_sub_one_of_lt (hwords w hw))
      (product hfew (by decide))
  refine ⟨?_, fun l hl p => ?_, fun l hl p => ?_, fun l hl => ?_⟩
  · have hle := regular.capacities_le
    unfold mostHosts at few
    omega
  · have hlevel := Everywhere.of_mem regular hl
    rw [hlevel.overprovisioning, Nat.mul_comm]
    exact product (Nat.le_trans (hlevel.length_partition_le p) (hosts hl)) word
  · have hlength := (Everywhere.of_mem regular hl).length_partition_le p
    refine sum ?_ ?_
    · rw [List.length_map]
      exact Nat.le_trans hlength (hosts hl)
    · intro w hw
      obtain ⟨h, -, rfl⟩ := List.mem_map.1 hw
      exact weights h
  · obtain ⟨hlength, hwords⟩ := (Everywhere.of_mem regular hl).localityWeights
    exact sum (Nat.le_trans hlength (hosts hl)) hwords

end PrioritySet

end LoadBalancing
