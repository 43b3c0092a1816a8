/-
A request is routed to hosts if there are any.

Shares of traffic sum to 100 percent, so the point that the hash of a request stands for
lies in one of them, and a share in which a point lies is not zero. A level only gets a
share if it has the capacity for one, and it only has capacity if it has hosts in the
partition the share is for. What rounding leaves over goes to a level that has a share
already. If no level has any capacity, the first level with hosts takes everything, from
all its hosts.
-/
import LoadBalancing.Priority.Table
import LoadBalancing.Proofs.HostSet.Levels
import Mathlib.Algebra.GroupWithZero.Nat
import Mathlib.Algebra.Order.BigOperators.Group.List
import Mathlib.Algebra.Order.Group.Nat

set_option autoImplicit false

namespace LoadBalancing

namespace PriorityLoad

/-! ## Shares -/

/-- Only levels with capacity have a share. -/
def Backed (capacities shares : List Nat) : Prop :=
  ∀ (i share : Nat), shares[i]? = some share → 0 < share → ∃ c, capacities[i]? = some c ∧ 0 < c

variable {total remaining extra point acc : Nat} {capacities shares shares' : List Nat}

/-- Whatever is not handed out is left. -/
theorem sum_spread (total remaining : Nat) (capacities : List Nat) :
    (spread total remaining capacities).1.sum + (spread total remaining capacities).2
      = remaining := by
  induction capacities generalizing remaining with
  | nil => rw [spread, List.sum_nil, Nat.zero_add]
  | cons c rest ih =>
    rw [spread]
    dsimp only
    have hrest := ih (remaining - min remaining (c * 100 / total))
    have hle : min remaining (c * 100 / total) ≤ remaining := Nat.min_le_left ..
    rw [List.sum_cons]
    omega

theorem backed_spread (total remaining : Nat) (capacities : List Nat) :
    Backed capacities (spread total remaining capacities).1 := by
  induction capacities generalizing remaining with
  | nil =>
    intro i share hshare
    simp [spread] at hshare
  | cons c rest ih =>
    intro i share hshare hpos
    rw [spread] at hshare
    dsimp only at hshare
    cases i with
    | zero =>
      rw [List.getElem?_cons_zero, Option.some.injEq] at hshare
      refine ⟨c, rfl, ?_⟩
      -- no capacity is worth no share
      rcases Nat.eq_zero_or_pos c with rfl | hc
      · rw [Nat.zero_mul, Nat.zero_div, Nat.min_zero] at hshare
        omega
      · exact hc
    | succ i => exact ih _ i share hshare hpos

/-- As long as something remains, the first level with capacity gets a share. -/
theorem exists_pos_spread (hremaining : 0 < remaining) (htotal : 0 < total) (hle : total ≤ 100)
    (hcapacity : ∃ c ∈ capacities, 0 < c) :
    ∃ share ∈ (spread total remaining capacities).1, 0 < share := by
  induction capacities with
  | nil =>
    obtain ⟨c, hc, -⟩ := hcapacity
    cases hc
  | cons c rest ih =>
    rw [spread]
    dsimp only
    rcases Nat.eq_zero_or_pos c with rfl | hc
    · -- a level without capacity takes nothing away
      rw [Nat.zero_mul, Nat.zero_div, Nat.min_zero, Nat.sub_zero]
      obtain ⟨c, hmem, hc⟩ := hcapacity
      rcases List.mem_cons.1 hmem with rfl | hrest
      · exact absurd hc (Nat.lt_irrefl 0)
      · obtain ⟨share, hshare, hpos⟩ := ih ⟨c, hrest, hc⟩
        exact ⟨share, List.mem_cons_of_mem _ hshare, hpos⟩
    · -- the total is at most 100, so a capacity that is there does not round to nothing
      have hdiv : 0 < c * 100 / total := Nat.div_pos (by omega) htotal
      exact ⟨_, List.mem_cons_self, by omega⟩

/-! ## Topping up -/

/-- What is left over goes to a level that has a share already. -/
theorem topUp_eq_some (h : topUp extra shares = some shares') :
    shares'.sum = shares.sum + extra ∧ Backed shares shares' := by
  induction shares generalizing shares' with
  | nil => cases h
  | cons s rest ih =>
    rw [topUp] at h
    split at h
    next hs =>
      cases h
      refine ⟨by rw [List.sum_cons, List.sum_cons]; omega, fun i share hshare hpos => ?_⟩
      cases i with
      | zero => exact ⟨s, rfl, hs⟩
      | succ i => exact ⟨share, hshare, hpos⟩
    next hs =>
      obtain ⟨rest', hrest, rfl⟩ := Option.map_eq_some_iff.1 h
      obtain ⟨hsum, hbacked⟩ := ih hrest
      refine ⟨by rw [List.sum_cons, List.sum_cons, hsum]; omega, fun i share hshare hpos => ?_⟩
      cases i with
      | zero => exact ⟨share, hshare, hpos⟩
      | succ i => exact hbacked i share hshare hpos

theorem topUp_eq_none (h : topUp extra shares = none) : ∀ s ∈ shares, s = 0 := by
  induction shares with
  | nil => simp
  | cons s rest ih =>
    rw [topUp] at h
    split at h
    · cases h
    next hs =>
      rw [Option.map_eq_none_iff] at h
      rw [List.forall_mem_cons]
      exact ⟨by omega, ih h⟩

theorem Backed.trans (h : Backed capacities shares) (h' : Backed shares shares') :
    Backed capacities shares' := by
  intro i share hshare hpos
  obtain ⟨share', hshare', hpos'⟩ := h' i share hshare hpos
  exact h i share' hshare' hpos'

/-! ## The load table -/

/-- A load table that takes all traffic, and every share of it is backed. -/
structure Full (load : PriorityLoad) (healthy degraded : List Nat) : Prop where
  sum : load.healthy.sum + load.degraded.sum = 100
  healthy : Backed healthy load.healthy
  degraded : Backed degraded load.degraded

/-- What rounding left over goes to a healthy share, or else to a degraded one. If any level has
capacity, there is a share for it to go to. -/
theorem ofCapacities_cases {healthy degraded : List Nat} (htotal : 0 < total) (hle : total ≤ 100)
    (hcapacity : (∃ c ∈ healthy, 0 < c) ∨ ∃ c ∈ degraded, 0 < c) :
    let first := spread total 100 healthy
    let second := spread total first.2 degraded
    (∃ h, topUp second.2 first.1 = some h ∧
        ofCapacities total healthy degraded = ⟨h, second.1⟩) ∨
      ∃ d, topUp second.2 second.1 = some d ∧
        ofCapacities total healthy degraded = ⟨first.1, d⟩ := by
  have hsum := sum_spread total 100 healthy
  have hpos := fun hc : ∃ c ∈ healthy, 0 < c =>
    exists_pos_spread (show 0 < 100 by omega) htotal hle hc
  have hpos' := fun (hleft : 0 < (spread total 100 healthy).2) (hc : ∃ c ∈ degraded, 0 < c) =>
    exists_pos_spread hleft htotal hle hc
  dsimp only
  rw [ofCapacities]
  dsimp only
  cases htop : topUp (spread total (spread total 100 healthy).2 degraded).2
      (spread total 100 healthy).1 with
  | some h => exact .inl ⟨h, rfl, rfl⟩
  | none =>
    dsimp only
    cases htop' : topUp (spread total (spread total 100 healthy).2 degraded).2
        (spread total (spread total 100 healthy).2 degraded).1 with
    | some d => exact .inr ⟨d, rfl, rfl⟩
    | none =>
      -- some level has capacity, so some share is not zero, and it is topped up
      have hzero := topUp_eq_none htop
      have hzero' := topUp_eq_none htop'
      have hnone := List.sum_eq_zero_iff.2 hzero
      exfalso
      rcases hcapacity with hc | hc
      · obtain ⟨share, hmem, hshare⟩ := hpos hc
        have := hzero share hmem
        omega
      · obtain ⟨share, hmem, hshare⟩ := hpos' (by omega) hc
        have := hzero' share hmem
        omega

/-- **The shares of levels with capacity** take all traffic. -/
theorem full_ofCapacities {healthy degraded : List Nat} (htotal : 0 < total) (hle : total ≤ 100)
    (hcapacity : (∃ c ∈ healthy, 0 < c) ∨ ∃ c ∈ degraded, 0 < c) :
    (ofCapacities total healthy degraded).Full healthy degraded := by
  have hsum := sum_spread total 100 healthy
  have hsum' := sum_spread total (spread total 100 healthy).2 degraded
  have hbacked := backed_spread total 100 healthy
  have hbacked' := backed_spread total (spread total 100 healthy).2 degraded
  -- what is left over after spreading goes to a healthy share, or else to a degraded one
  rcases ofCapacities_cases htotal hle hcapacity with ⟨h, htop, heq⟩ | ⟨d, htop, heq⟩
  · obtain ⟨hsum'', hbacked''⟩ := topUp_eq_some htop
    rw [heq]
    exact ⟨by dsimp only; omega, hbacked.trans hbacked'', hbacked'⟩
  · obtain ⟨hsum'', hbacked''⟩ := topUp_eq_some htop
    rw [heq]
    exact ⟨by dsimp only; omega, hbacked, hbacked'.trans hbacked''⟩

/-! ## Finding a point -/

/-- The share in which a point lies is not zero; a point that lies in none is beyond all. -/
theorem reach_eq_some {i : Nat} (hacc : acc < point) (h : reach point acc shares = some i) :
    ∃ share, shares[i]? = some share ∧ 0 < share := by
  induction shares generalizing acc i with
  | nil => cases h
  | cons s rest ih =>
    rw [reach] at h
    split at h
    next hpoint =>
      cases h
      exact ⟨s, rfl, by omega⟩
    next hpoint =>
      obtain ⟨j, hj, rfl⟩ := Option.map_eq_some_iff.1 h
      exact ih (by omega) hj

theorem reach_eq_none (h : reach point acc shares = none) (hacc : acc < point) :
    acc + shares.sum < point := by
  induction shares generalizing acc with
  | nil => exact hacc
  | cons s rest ih =>
    rw [reach] at h
    split at h
    · cases h
    next hpoint =>
      rw [Option.map_eq_none_iff] at h
      have := ih h (by omega)
      rw [List.sum_cons]
      omega

/-! ## All traffic on one level -/

theorem sum_allOn (levels target : Nat) :
    (allOn levels target).healthy.sum = if target < levels then 100 else 0 := by
  rw [allOn]
  dsimp only
  induction levels with
  | zero => rfl
  | succ n ih =>
    rw [List.range_succ, List.map_append, List.sum_append, ih, List.map_singleton, List.sum_cons,
      List.sum_nil, Nat.add_zero]
    by_cases h : n = target
    · rw [if_pos h, if_neg (by omega), if_pos (by omega)]
    · -- the last level is not the target, so the target is among those before it
      by_cases hlt : target < n
      · rw [if_neg h, if_pos hlt, if_pos (by omega)]
      · rw [if_neg h, if_neg hlt, if_neg (by omega)]

/-- The target is the only level with a share. -/
theorem eq_of_getElem?_allOn {levels target i share : Nat}
    (h : (allOn levels target).healthy[i]? = some share) (hpos : 0 < share) : i = target := by
  obtain ⟨j, hj, rfl⟩ := Option.map_eq_some_iff.1 (List.getElem?_map.symm.trans h)
  obtain ⟨hlt, hij⟩ := List.getElem?_eq_some_iff.1 hj
  rw [List.getElem_range] at hij
  by_cases hjt : j = target
  · rw [hij, hjt]
  · rw [if_neg hjt] at hpos
    exact absurd hpos (Nat.lt_irrefl 0)

/-- If everything goes to one level, everything goes somewhere. -/
theorem full_allOn {levels target : Nat} (h : target < levels) :
    (allOn levels target).Full (allOn levels target).healthy (allOn levels target).degraded where
  sum := by
    have hdegraded : (allOn levels target).degraded.sum = 0 :=
      (List.sum_replicate levels 0).trans (nsmul_zero levels)
    rw [sum_allOn, if_pos h, hdegraded]
  healthy _ share hshare hpos := ⟨share, hshare, hpos⟩
  degraded _ share hshare hpos := ⟨share, hshare, hpos⟩

end PriorityLoad

/-! ## Capacities -/

/-- The partition that a request is routed to on a level that does not panic. -/
def Availability.partition : Availability → Partition
  | .healthy => .healthy
  | .degraded => .degraded

/-- A host that any partition of a level has is a host of the level. -/
theorem HostSet.Sound.mem_hosts {l : HostSet} (sound : l.Sound) {p : Partition} {h : Host}
    (hh : h ∈ l.partition p) : h ∈ l.hosts := by
  cases p with
  | all => exact hh
  | healthy => exact sound.healthy h hh
  | degraded => exact sound.degraded h hh

/-- A level without hosts, or without hosts in the partition, has no capacity. -/
theorem HostSet.capacity_pos {l : HostSet} {part : List Host} (h : 0 < l.capacity part) :
    l.hosts ≠ [] ∧ part ≠ [] := by
  rw [capacity] at h
  split at h
  · exact absurd h (Nat.lt_irrefl 0)
  next hhosts =>
    refine ⟨fun hnil => hhosts (List.isEmpty_iff.2 hnil), ?_⟩
    rintro rfl
    rw [List.length_nil, Nat.mul_zero, Nat.zero_div, Nat.min_zero] at h
    exact absurd h (Nat.lt_irrefl 0)

namespace PriorityState

variable {s : PrioritySet} {state : PriorityState} {hash : UInt64} {healthy degraded : List Nat}

theorem capacities_pos {part : HostSet → List Host} {i c : Nat}
    (h : (capacities s part)[i]? = some c) (hpos : 0 < c) :
    ∃ l, s.levels[i]? = some l ∧ l.hosts ≠ [] ∧ part l ≠ [] := by
  rw [capacities] at h
  split at h
  · -- the one level that stands for none has no capacity
    have hzero := List.mem_singleton.1 (List.mem_of_getElem? h)
    omega
  · rw [List.getElem?_map] at h
    obtain ⟨l, hl, rfl⟩ := Option.map_eq_some_iff.1 h
    obtain ⟨hhosts, hpart⟩ := HostSet.capacity_pos hpos
    exact ⟨l, hl, hhosts, hpart⟩

/-! ## Choosing a level -/

/-- **Whatever the hash**, a request goes to a level and partition with capacity. -/
theorem choose_of_full (h : state.load.Full healthy degraded) (hash : UInt64) :
    (∃ i c, state.choose hash = (i, .healthy) ∧ healthy[i]? = some c ∧ 0 < c) ∨
      ∃ i c, state.choose hash = (i, .degraded) ∧ degraded[i]? = some c ∧ 0 < c := by
  have hpoint : hash.toNat % 100 + 1 ≤ 100 := by omega
  have hstart : 0 < hash.toNat % 100 + 1 := Nat.succ_pos _
  rw [choose]
  generalize hash.toNat % 100 + 1 = point at hpoint hstart ⊢
  cases hreach : PriorityLoad.reach point 0 state.load.healthy with
  | some i =>
    obtain ⟨share, hshare, hpos⟩ := PriorityLoad.reach_eq_some hstart hreach
    obtain ⟨c, hc, hcpos⟩ := h.healthy i share hshare hpos
    exact .inl ⟨i, c, rfl, hc, hcpos⟩
  | none =>
    have hbeyond := PriorityLoad.reach_eq_none hreach hstart
    rw [Nat.zero_add] at hbeyond
    dsimp only
    cases hreach' : PriorityLoad.reach point (state.load.healthy.sum) state.load.degraded with
    | some i =>
      obtain ⟨share, hshare, hpos⟩ := PriorityLoad.reach_eq_some hbeyond hreach'
      obtain ⟨c, hc, hcpos⟩ := h.degraded i share hshare hpos
      exact .inr ⟨i, c, rfl, hc, hcpos⟩
    | none =>
      -- no point is beyond all shares
      have hbeyond' := PriorityLoad.reach_eq_none hreach' hbeyond
      have hsum := h.sum
      omega

/-- Nothing is available: the first level with hosts takes all, and it panics. -/
theorem exists_choose_allOn (h : s.isEmpty = false) (hash : UInt64) :
    let levels := (capacities s (·.healthy)).length
    let target := (s.levels.findIdx? fun l => !l.isEmpty).getD 0
    let state : PriorityState := ⟨.allOn levels target, List.replicate levels true⟩
    ∃ l, state.choose hash = (target, .healthy) ∧ s.levels[target]? = some l ∧ l.hosts ≠ [] ∧
      state.isPanic target = true := by
  dsimp only
  obtain ⟨l, hmem, hl⟩ := List.all_eq_false.1 h
  have hsome : (s.levels.findIdx? fun l => !l.isEmpty).isSome = true := by
    rw [List.findIdx?_isSome]
    exact List.any_eq_true.2 ⟨l, hmem, by simpa using hl⟩
  obtain ⟨target, htarget⟩ := Option.isSome_iff_exists.1 hsome
  obtain ⟨hlt, hhosts, -⟩ := List.findIdx?_eq_some_iff_getElem.1 htarget
  rw [htarget, Option.getD_some]
  -- there is a level, so there are as many capacities as levels
  have hlevels : (capacities s (·.healthy)).length = s.levels.length := by
    rw [capacities, if_neg, List.length_map]
    rw [List.isEmpty_iff]
    exact List.ne_nil_of_mem hmem
  rw [hlevels]
  refine ⟨s.levels[target], ?_, List.getElem?_eq_getElem hlt, ?_, ?_⟩
  · have hfull := PriorityLoad.full_allOn hlt
    rcases @choose_of_full ⟨.allOn s.levels.length target, _⟩ _ _ hfull hash with
      ⟨i, c, hchoose, hc, hpos⟩ | ⟨i, c, -, hc, hpos⟩
    · rw [hchoose, PriorityLoad.eq_of_getElem?_allOn hc hpos]
    · have hzero := (List.mem_replicate.1 (List.mem_of_getElem? hc)).2
      omega
  · intro hnil
    rw [HostSet.isEmpty, hnil] at hhosts
    exact absurd hhosts (by decide)
  · have hpanic := List.getElem?_replicate_of_lt (a := true) hlt
    rw [isPanic, List.getD_eq_getElem?_getD, hpanic, Option.getD_some]

/-- If something is available, some capacity is not zero. -/
theorem exists_capacity (s : PrioritySet)
    (hsome : (capacities s (·.healthy)).sum + (capacities s (·.degraded)).sum ≠ 0) :
    (∃ c ∈ capacities s (·.healthy), 0 < c) ∨ ∃ c ∈ capacities s (·.degraded), 0 < c := by
  by_cases hhealthy : 0 < (capacities s (·.healthy)).sum
  · exact .inl (List.sum_pos_iff_exists_pos_nat.1 hhealthy)
  · exact .inr (List.sum_pos_iff_exists_pos_nat.1 (by omega))

/-- **A priority set with hosts** sends every request to a level with hosts, and if that does
not panic, there are hosts in the partition that the request is sent to. -/
theorem exists_choose_compute (h : s.isEmpty = false) (inPanic : HostSet → Bool) (hash : UInt64) :
    ∃ i availability l, (compute s inPanic).choose hash = (i, availability) ∧
      s.levels[i]? = some l ∧ l.hosts ≠ [] ∧
      ((compute s inPanic).isPanic i = false → l.partition availability.partition ≠ []) := by
  rw [compute]
  dsimp only
  split
  next =>
    obtain ⟨l, hchoose, hl, hhosts, hpanic⟩ := exists_choose_allOn h hash
    refine ⟨_, _, l, hchoose, hl, hhosts, fun hfalse => ?_⟩
    cases hpanic.symm.trans hfalse
  next htotal =>
    have hfull := PriorityLoad.full_ofCapacities (Nat.pos_of_ne_zero htotal)
      (Nat.min_le_left ..) (exists_capacity s (by omega))
    -- a share is backed by a capacity, and a capacity by a host that is there
    rcases @choose_of_full ⟨_, s.levels.map _⟩ _ _ hfull hash with
      ⟨i, c, hchoose, hc, hpos⟩ | ⟨i, c, hchoose, hc, hpos⟩
    · obtain ⟨l, hl, hhosts, hpart⟩ := capacities_pos hc hpos
      exact ⟨i, .healthy, l, hchoose, hl, hhosts, fun _ => hpart⟩
    · obtain ⟨l, hl, hhosts, hpart⟩ := capacities_pos hc hpos
      exact ⟨i, .degraded, l, hchoose, hl, hhosts, fun _ => hpart⟩

/-- The partition of a level that serves what is routed to the level. In panic it is the whole
level, whatever kind of hosts a request was meant for. -/
def source (state : PriorityState) (priority : Nat) (availability : Availability) : Partition :=
  if state.isPanic priority then .all else availability.partition

end PriorityState

/-! ## The hosts of a request -/

namespace PrioritySet

variable {s : PrioritySet} {inPanic : HostSet → Bool} {hash : UInt64}

/-- The hosts that a request with this hash is routed to. -/
def routed (s : PrioritySet) (inPanic : HostSet → Bool) (hash : UInt64) : List Host :=
  let state := PriorityState.compute s inPanic
  let chosen := state.choose hash
  match s.level? chosen.1 with
  | some l => l.partition (state.source chosen.1 chosen.2)
  | none => []

/-- They are the hosts of one partition of one level. -/
theorem mem_routed {h : Host} (hh : h ∈ s.routed inPanic hash) :
    let state := PriorityState.compute s inPanic
    let chosen := state.choose hash
    ∃ l, s.level? chosen.1 = some l ∧ h ∈ l.partition (state.source chosen.1 chosen.2) := by
  dsimp only [routed] at hh ⊢
  cases hlevel : s.level? ((PriorityState.compute s inPanic).choose hash).1 with
  | none =>
    rw [hlevel] at hh
    cases hh
  | some l =>
    rw [hlevel] at hh
    exact ⟨l, rfl, hh⟩

/-- **A priority set with hosts** routes every request to hosts, whatever its hash is and
whatever the health of the hosts. -/
theorem routed_ne_nil (h : s.isEmpty = false) : s.routed inPanic hash ≠ [] := by
  intro hnil
  obtain ⟨i, availability, l, hchoose, hl, hhosts, hpart⟩ :=
    PriorityState.exists_choose_compute h inPanic hash
  rw [routed, hchoose, show s.level? i = some l from hl, PriorityState.source] at hnil
  dsimp only at hnil
  split at hnil
  · exact absurd hnil hhosts
  next hpanic => exact absurd hnil (hpart (Bool.eq_false_iff.2 hpanic))

end PrioritySet

/-! ## The table of a priority set -/

namespace PriorityTable

variable {β : Type} {s : PrioritySet} {hash : UInt64}
  (inPanic : HostSet → Bool) (piece : Nat → HostSet → Partition → β)

theorem levels_build (i : Nat) :
    (build s inPanic piece).levels[i]? = (s.levels[i]?).map fun l =>
      if (PriorityState.compute s inPanic).isPanic i then ⟨piece (2 * i) l .all, none⟩
      else ⟨piece (2 * i) l .healthy, some (piece (2 * i + 1) l .degraded)⟩ := by
  rw [build, List.getElem?_map, List.getElem?_zipIdx, Option.map_map]
  cases s.levels[i]? with
  | none => rfl
  | some l =>
    dsimp only [Option.map_some, Function.comp]
    rw [Nat.zero_add]

theorem pick?_of_choose {t : PriorityTable β} {i : Nat} {availability : Availability} :
    t.state.choose hash = (i, availability) →
      t.pick? hash = t.levels[i]?.map fun l =>
        match availability with
        | .healthy => l.primary
        | .degraded => l.degraded.getD l.primary := by
  intro h
  cases availability with
  | healthy => simp only [pick?, h]
  | degraded => simp only [pick?, h]

/-- **The only piece** that a request asks is the one that was built from the partition that
the request is routed to. -/
theorem exists_pick?_build (hash : UInt64) :
    let state := PriorityState.compute s inPanic
    let chosen := state.choose hash
    ∃ k, (build s inPanic piece).pick? hash = (s.level? chosen.1).map fun l =>
      piece k l (state.source chosen.1 chosen.2) := by
  obtain ⟨⟨i, availability⟩, hchoose⟩ :
      ∃ chosen, (PriorityState.compute s inPanic).choose hash = chosen := ⟨_, rfl⟩
  have hstate : (build s inPanic piece).state.choose hash = (i, availability) := hchoose
  dsimp only
  rw [pick?_of_choose hstate, levels_build, hchoose, Option.map_map, PrioritySet.level?]
  dsimp only [Function.comp_def, PriorityState.source]
  cases (PriorityState.compute s inPanic).isPanic i with
  | true =>
    -- in panic there is one piece, also for requests that were sent to degraded hosts
    refine ⟨2 * i, ?_⟩
    cases availability <;> rfl
  | false =>
    cases availability with
    | healthy => exact ⟨2 * i, rfl⟩
    | degraded => exact ⟨2 * i + 1, rfl⟩

end PriorityTable

end LoadBalancing
