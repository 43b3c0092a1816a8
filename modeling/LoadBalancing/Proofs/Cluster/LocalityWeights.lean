/-
Which levels get the locality weights of a configuration.

A configuration lists weights one by one, each with its level and its locality. They are
gathered by level, and then every level is given its own, up to the last level that has hosts
or weights (`apply_locality_weights` of a cluster). How many levels that are is computed in 32
bits, and it is one more than the highest level with weights. The last of all priorities has no
successor in 32 bits: the count overflows if and only if it has weights
(`Cluster.weightedLevels?_eq_none_iff`). Where the count goes well, each level ends up with the
weights that are listed for it (`Cluster.weightsAt_applyLocalityWeights?`).
-/
import LoadBalancing.Proofs.Cluster.Run
import LoadBalancing.Proofs.HostSet.Localities
import LoadBalancing.Proofs.HostSet.Weights
import Mathlib.Algebra.GroupWithZero.Nat
import Mathlib.Data.List.Induction

set_option autoImplicit false

namespace LoadBalancing

namespace LocalityWeights

/-! ## Weights by level -/

/-- The weight that is listed for a locality of a level. -/
def listed (configs : List LocalityWeightConfig) (priority : Nat) (locality : Locality) :
    Option Nat :=
  (configs.find? fun w => w.priority = priority ∧ w.locality = locality).map (·.weight)

/-- The gathered weights of a level. -/
def gathered (configs : List LocalityWeightConfig) (priority : Nat) : LocalityWeights :=
  ((byPriority configs).get? priority).getD ∅

theorem byPriority_concat (configs : List LocalityWeightConfig) (w : LocalityWeightConfig) :
    byPriority (configs ++ [w]) =
      (byPriority configs).insert w.priority ((gathered configs w.priority).insert w.locality
        w.weight) := by
  rw [byPriority, List.foldl_append]
  rfl

/-- **Gathering finds what is listed**, if no locality of a level is listed twice. -/
theorem get?_gathered {configs : List LocalityWeightConfig}
    (once : configs.Pairwise fun a b => ¬ (a.priority = b.priority ∧ a.locality = b.locality))
    (priority : Nat) (locality : Locality) :
    (gathered configs priority).get? locality = listed configs priority locality := by
  induction configs using List.reverseRecOn with
  | nil => rfl
  | append_singleton configs w ih =>
    obtain ⟨before, -, apart⟩ := List.pairwise_append.1 once
    specialize ih before
    rw [gathered, byPriority_concat, SortedMap.get?_insert, listed, List.find?_append]
    by_cases hpriority : w.priority = priority
    · subst hpriority
      rw [if_pos rfl, Option.getD_some, SortedMap.get?_insert, ih, listed]
      by_cases hlocality : locality = w.locality
      · -- it is listed here, so it is not listed before
        have hnone : configs.find? (fun a =>
            decide (a.priority = w.priority ∧ a.locality = w.locality)) = none := by
          rw [List.find?_eq_none]
          exact fun a ha heq => apart a ha w List.mem_cons_self (of_decide_eq_true heq)
        subst hlocality
        rw [if_pos rfl, hnone]
        simp
      · simp [if_neg hlocality, Ne.symm hlocality]
    · rw [if_neg (Ne.symm hpriority)]
      refine ih.trans ?_
      simp [listed, hpriority]

/-- The levels with weights are those for which some are listed. -/
theorem mem_keys_byPriority {configs : List LocalityWeightConfig} {priority : Nat} :
    priority ∈ (byPriority configs).keys ↔ ∃ w ∈ configs, w.priority = priority := by
  induction configs using List.reverseRecOn with
  | nil => simp [byPriority, SortedMap.mem_keys_iff]
  | append_singleton configs w ih =>
    rw [byPriority_concat, SortedMap.mem_keys_iff, SortedMap.get?_insert]
    rw [SortedMap.mem_keys_iff] at ih
    by_cases h : priority = w.priority
    · simp [h]
    · rw [if_neg h, ih]
      simp [Ne.symm h]

end LocalityWeights

namespace Cluster

/-! ## How many levels -/

/-- The last priority that there is. -/
def lastPriority : Nat := 0xffffffff

variable {weights : SortedMap Nat LocalityWeights}

/-- The number of levels is one more than the highest level with weights, if it fits. -/
theorem weightedLevels?_eq {p : Nat} (hp : p ∈ weights.keys) :
    ∃ highest ∈ weights.keys, (∀ q ∈ weights.keys, q ≤ highest) ∧
      weightedLevels? weights = fitting? UInt32.size (highest + 1) := by
  have hlast := List.getLast?_eq_some_getLast (List.ne_nil_of_mem hp)
  obtain ⟨lower, hkeys⟩ := List.getLast?_eq_some_iff.1 hlast
  refine ⟨_, List.mem_of_getLast? hlast, fun q hq => ?_, ?_⟩
  · -- keys increase, so none is above the last of them
    have increasing : weights.keys.Pairwise fun a b => compare a b = .lt :=
      List.pairwise_map.2 weights.increasing
    rw [hkeys, List.pairwise_append] at increasing
    rw [hkeys, List.mem_append, List.mem_singleton] at hq
    rcases hq with hlower | heq
    · exact Nat.le_of_lt
        (Nat.compare_eq_lt.1 (increasing.2.2 q hlower _ List.mem_cons_self))
    · exact Nat.le_of_eq heq
  · rw [weightedLevels?, hlast]

/-- **Levels are counted right**, where the count goes well. -/
theorem lt_of_weightedLevels? {n p : Nat} (counted : weightedLevels? weights = some n)
    (hp : p ∈ weights.keys) : p < n := by
  obtain ⟨highest, -, hmax, heq⟩ := weightedLevels?_eq hp
  obtain ⟨-, rfl⟩ := fitting?_eq_some_iff.1 (heq.symm.trans counted)
  exact Nat.lt_succ_of_le (hmax p hp)

/-- **The count overflows** if and only if the last of all levels has weights. -/
theorem weightedLevels?_eq_none_iff (inRange : ∀ p ∈ weights.keys, p ≤ lastPriority) :
    weightedLevels? weights = none ↔ lastPriority ∈ weights.keys := by
  constructor
  · intro overflow
    cases hkeys : weights.keys with
    | nil =>
      -- without weights there is nothing to count
      rw [weightedLevels?, hkeys] at overflow
      cases overflow
    | cons p rest =>
      have hp : p ∈ weights.keys := hkeys ▸ List.mem_cons_self
      obtain ⟨highest, hmem, -, heq⟩ := weightedLevels?_eq hp
      have hle : lastPriority + 1 ≤ highest + 1 :=
        fitting?_eq_none_iff.1 (heq.symm.trans overflow)
      have hin := inRange highest hmem
      obtain rfl : highest = lastPriority := by omega
      rwa [← hkeys]
  · intro hlast
    obtain ⟨highest, -, hmax, heq⟩ := weightedLevels?_eq hlast
    have hle := hmax _ hlast
    rw [heq, fitting?_eq_none_iff]
    exact Nat.succ_le_succ hle

/-! ## Weights of the levels -/

/-- Giving the first levels their weights leaves those of all others. -/
theorem weightsAt_weighLevels (s : PrioritySet) (levels p : Nat) :
    (weighLevels s weights levels).weightsAt p =
      if p < levels then (weights.get? p).getD ∅ else s.weightsAt p := by
  -- a level that has its weights already is left alone, which comes to the same
  have step (s' : PrioritySet) (n : Nat) :
      (if (s'.level? n).map (·.configuredWeights) = some ((weights.get? n).getD ∅) then s'
        else s'.setLocalityWeights n ((weights.get? n).getD ∅)).weightsAt p =
      if p = n then (weights.get? n).getD ∅ else s'.weightsAt p := by
    split
    next hsame =>
      split
      next hp =>
        rw [hp, PrioritySet.weightsAt, hsame]
        rfl
      next => rfl
    next => exact PrioritySet.weightsAt_setLocalityWeights ..
  induction levels with
  | zero => rfl
  | succ n ih =>
    rw [weighLevels] at ih ⊢
    rw [List.range_succ, List.foldl_append, List.foldl_cons, List.foldl_nil]
    refine (step _ n).trans ?_
    rw [ih]
    by_cases hp : p = n
    · rw [if_pos hp, if_pos (by omega), hp]
    · have hlt : p < n + 1 ↔ p < n := by omega
      rw [if_neg hp]
      simp only [hlt]

/-- **Every level has its weights**, where the levels could be counted. -/
theorem weightsAt_applyLocalityWeights? {s s' : PrioritySet}
    {configs : List LocalityWeightConfig} (given : applyLocalityWeights? s configs = some s')
    (p : Nat) : s'.weightsAt p = LocalityWeights.gathered configs p := by
  obtain ⟨weighted, counted, hs'⟩ := Option.bind_eq_some_iff.1 given
  cases hs'
  rw [weightsAt_weighLevels]
  split
  · rfl
  next hbeyond =>
    -- a level beyond the last has no weights, and none are listed for it
    have hnone : (LocalityWeights.byPriority configs).get? p = none := by
      rw [← Option.not_isSome_iff_eq_none, ← SortedMap.mem_keys_iff]
      intro hp
      have := lt_of_weightedLevels? counted hp
      omega
    rw [PrioritySet.weightsAt_of_length_le (by omega), LocalityWeights.gathered, hnone]
    rfl

/-! ## Hosts that come -/

variable (c : Cluster)

theorem weightsAt_applyLevels (levels : List LevelChange) (p : Nat) :
    (levels.foldl applyLevel c).set.weightsAt p = c.set.weightsAt p := by
  refine List.foldlRecOn (motive := fun c' : Cluster => c'.set.weightsAt p = c.set.weightsAt p)
    _ _ rfl ?_
  intro c' ih change _
  rw [applyLevel]
  split
  · exact ih
  · exact (PrioritySet.weightsAt_updateHosts ..).trans ih

/-- Bringing hosts about leaves the weights of all levels as they are. -/
theorem weightsAt_reach (now : Nat) (desired : List HostConfig) (p : Nat) :
    (c.reach now desired).set.weightsAt p = c.set.weightsAt p := by
  rw [reach]
  dsimp only
  rw [set_applyChange, weightsAt_applyLevels, set_informChecker]

end Cluster

end LoadBalancing
