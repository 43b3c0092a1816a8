/-
How much traffic each level gets, to the percent.

Healthy and degraded hosts of all levels stand in one row: the healthy hosts level by level,
and behind them the degraded ones. Shares are handed out along that row, so what a place gets
depends on what stands in front of it. If the capacities sum to 100 or more, they are taken as
they are, and a place comes too late when those in front of it take everything. If they sum to
less, they are scaled up, and since rounding only ever takes away, something is left for every
place with capacity. What rounding left over goes to a place that has a share already, so it
changes nothing about who gets traffic.

The remainder of a hash by 100 is a point on a line of 100 points, and the shares cut that line
into intervals, one behind the other. Each remainder therefore lies in one interval, and there
are as many remainders in it as the share says.
-/
import LoadBalancing.Proofs.HostSet.Widths

set_option autoImplicit false

namespace LoadBalancing

/-! ## Sums of the first numbers of a list -/

theorem sum_take_add_getD_le (l : List Nat) (i : Nat) :
    (l.take i).sum + l.getD i 0 ≤ l.sum := by
  induction l generalizing i with
  | nil => simp
  | cons x rest ih =>
    cases i with
    | zero => simp
    | succ i =>
      have hrest := ih i
      rw [List.take_succ_cons, List.sum_cons, List.sum_cons, List.getD_cons_succ]
      omega

namespace PriorityLoad

variable {total remaining extra point acc : Nat} {capacities shares shares' : List Nat}

/-! ## What is handed out along the row -/

/-- What a capacity is worth in percent when `total` stands for everything. -/
def scaled (total c : Nat) : Nat :=
  c * 100 / total

theorem scaled_pos_iff (htotal : 0 < total) (hle : total ≤ 100) (c : Nat) :
    0 < scaled total c ↔ 0 < c := by
  rw [scaled, Nat.div_pos_iff]
  omega

theorem scaled_hundred (c : Nat) : scaled 100 c = c :=
  Nat.mul_div_cancel c (by decide)

/-- Rounding only takes away. -/
theorem mul_sum_scaled_le (total : Nat) (l : List Nat) :
    total * (l.map (scaled total)).sum ≤ 100 * l.sum := by
  induction l with
  | nil => simp
  | cons c rest ih =>
    have hfirst : total * scaled total c ≤ c * 100 := Nat.mul_div_le ..
    rw [List.map_cons, List.sum_cons, List.sum_cons, Nat.mul_add, Nat.mul_add]
    omega

/-- Something is left for a place with capacity unless the capacities in front of it are
everything already. -/
theorem sum_scaled_lt_iff {front : List Nat} {c sum : Nat} (hc : 0 < c)
    (hwithin : front.sum + c ≤ sum) :
    (front.map (scaled (min 100 sum))).sum < 100 ↔ front.sum < 100 := by
  by_cases hfull : 100 ≤ sum
  · -- the capacities are taken as they are
    rw [Nat.min_eq_left hfull, List.map_congr_left fun c _ => scaled_hundred c, List.map_id']
  · -- the capacities in front of the place are not all, so neither is what they are worth
    rw [Nat.min_eq_right (by omega)]
    have hround := mul_sum_scaled_le sum front
    have hless : sum * (front.map (scaled sum)).sum < sum * 100 := by omega
    have hlt : (front.map (scaled sum)).sum < 100 := Nat.lt_of_mul_lt_mul_left hless
    exact ⟨fun _ => by omega, fun _ => hlt⟩

theorem left_spread (total remaining : Nat) (capacities : List Nat) :
    (spread total remaining capacities).2
      = remaining - (capacities.map (scaled total)).sum := by
  induction capacities generalizing remaining with
  | nil => rfl
  | cons c rest ih =>
    rw [spread]
    dsimp only
    rw [ih, List.map_cons, List.sum_cons, scaled]
    omega

/-- A place gets what it is worth, or what those in front of it left. -/
theorem getD_spread (total remaining : Nat) (capacities : List Nat) (i : Nat) :
    (spread total remaining capacities).1.getD i 0
      = min (remaining - ((capacities.take i).map (scaled total)).sum)
          (scaled total (capacities.getD i 0)) := by
  induction capacities generalizing remaining i with
  | nil => simp [spread, scaled]
  | cons c rest ih =>
    rw [spread]
    dsimp only
    cases i with
    | zero => simp [scaled]
    | succ i =>
      rw [List.getD_cons_succ, ih, List.take_succ_cons, List.map_cons, List.sum_cons,
        List.getD_cons_succ, scaled.eq_def total c]
      omega

/-! ## Topping up -/

/-- Topping up changes the size of a share, not whether there is one. -/
theorem topUp_pos_iff (h : topUp extra shares = some shares') (i : Nat) :
    0 < shares'.getD i 0 ↔ 0 < shares.getD i 0 := by
  induction shares generalizing shares' i with
  | nil => cases h
  | cons s rest ih =>
    rw [topUp] at h
    split at h
    next hs =>
      cases h
      cases i with
      | zero =>
        rw [List.getD_cons_zero, List.getD_cons_zero]
        omega
      | succ i => rfl
    next hs =>
      obtain ⟨rest', hrest, rfl⟩ := Option.map_eq_some_iff.1 h
      cases i with
      | zero => rfl
      | succ i => exact ih hrest i

/-- Who gets a share is decided when the shares are handed out, and not when what is left over
is given away. -/
theorem ofCapacities_pos_iff {healthy degraded : List Nat} (htotal : 0 < total)
    (hle : total ≤ 100) (hcapacity : (∃ c ∈ healthy, 0 < c) ∨ ∃ c ∈ degraded, 0 < c) :
    let first := spread total 100 healthy
    let load := ofCapacities total healthy degraded
    (∀ i, 0 < load.healthy.getD i 0 ↔ 0 < first.1.getD i 0) ∧
      ∀ j, 0 < load.degraded.getD j 0 ↔ 0 < (spread total first.2 degraded).1.getD j 0 := by
  dsimp only
  rcases ofCapacities_cases htotal hle hcapacity with ⟨h, htop, heq⟩ | ⟨d, htop, heq⟩
  · rw [heq]
    exact ⟨fun i => topUp_pos_iff htop i, fun j => Iff.rfl⟩
  · rw [heq]
    exact ⟨fun i => Iff.rfl, fun j => topUp_pos_iff htop j⟩

/-! ## Intervals of points -/

/-- The part of all traffic, in percent, that a level takes with one kind of its hosts. -/
def share (load : PriorityLoad) : Nat × Availability → Nat
  | (i, .healthy) => load.healthy.getD i 0
  | (i, .degraded) => load.degraded.getD i 0

/-- All shares in front of that one. -/
def before (load : PriorityLoad) : Nat × Availability → Nat
  | (i, .healthy) => (load.healthy.take i).sum
  | (i, .degraded) => load.healthy.sum + (load.degraded.take i).sum

theorem before_add_share_le (load : PriorityLoad) (k : Nat × Availability) :
    load.before k + load.share k ≤ load.healthy.sum + load.degraded.sum := by
  obtain ⟨i, availability⟩ := k
  cases availability with
  | healthy =>
    have hprefix := sum_take_add_getD_le load.healthy i
    simp only [before, share]
    omega
  | degraded =>
    have hprefix := sum_take_add_getD_le load.degraded i
    simp only [before, share]
    omega

/-- A point is reached by the share in whose interval it lies. -/
theorem reach_eq_some_iff (hacc : acc < point) (shares : List Nat) (i : Nat) :
    reach point acc shares = some i ↔
      acc + (shares.take i).sum < point ∧
        point ≤ acc + (shares.take i).sum + shares.getD i 0 := by
  induction shares generalizing acc i with
  | nil =>
    rw [reach, List.take_nil, List.sum_nil, List.getD_nil]
    simp only [reduceCtorEq, false_iff]
    omega
  | cons s rest ih =>
    rw [reach]
    by_cases hfirst : point ≤ acc + s
    · rw [if_pos hfirst, Option.some.injEq]
      cases i with
      | zero =>
        rw [List.take_zero, List.sum_nil, List.getD_cons_zero]
        omega
      | succ i =>
        -- the first share reaches the point, so the point is not behind it
        rw [List.take_succ_cons, List.sum_cons]
        omega
    · rw [if_neg hfirst, Option.map_eq_some_iff]
      cases i with
      | zero =>
        have hbehind : ¬ ∃ j, reach point (acc + s) rest = some j ∧ j + 1 = 0 := by
          intro hexists
          obtain ⟨j, -, heq⟩ := hexists
          omega
        rw [List.take_zero, List.sum_nil, List.getD_cons_zero]
        exact ⟨fun hexists => absurd hexists hbehind, fun hreached => by omega⟩
      | succ i =>
        have hrest := ih (show acc + s < point by omega) i
        rw [List.take_succ_cons, List.sum_cons, List.getD_cons_succ, ← Nat.add_assoc, ← hrest]
        simp

end PriorityLoad

/-! ## Choosing a level -/

namespace PriorityState

variable {state : PriorityState} {k : Nat × Availability}

/-- The level and partition that a walk along the load table finds. -/
def found? (state : PriorityState) (hash : UInt64) : Option (Nat × Availability) :=
  let point := hash.toNat % 100 + 1
  ((PriorityLoad.reach point 0 state.load.healthy).map (·, .healthy)).or
    ((PriorityLoad.reach point (state.load.healthy.sum) state.load.degraded).map (·, .degraded))

/-- Level 0 stands in where the walk finds nothing. -/
theorem choose_eq_getD_found? (state : PriorityState) (hash : UInt64) :
    state.choose hash = (state.found? hash).getD (0, .healthy) := by
  rw [choose, found?]
  cases PriorityLoad.reach (hash.toNat % 100 + 1) 0 state.load.healthy with
  | some i => rfl
  | none =>
    cases PriorityLoad.reach (hash.toNat % 100 + 1) (state.load.healthy.sum)
        state.load.degraded with
    | some i => rfl
    | none => rfl

/-- **The walk finds a level** for every hash if the loads take all traffic. -/
theorem found?_eq_some_choose (hsum : state.load.healthy.sum + state.load.degraded.sum = 100)
    (hash : UInt64) : state.found? hash = some (state.choose hash) := by
  suffices hfound : state.found? hash ≠ none by
    rw [choose_eq_getD_found?]
    cases hcase : state.found? hash with
    | some k => rfl
    | none => exact absurd hcase hfound
  intro hnone
  have hpoint : hash.toNat % 100 + 1 ≤ 100 := by omega
  rw [found?, Option.or_eq_none_iff, Option.map_eq_none_iff, Option.map_eq_none_iff] at hnone
  -- a point that no share reaches is beyond all shares
  have hbeyond := PriorityLoad.reach_eq_none hnone.1 (Nat.succ_pos _)
  rw [Nat.zero_add] at hbeyond
  have hbeyond' := PriorityLoad.reach_eq_none hnone.2 hbeyond
  omega

/-- A hash belongs to the level and partition in whose interval its remainder lies. -/
theorem choose_eq_iff (hsum : state.load.healthy.sum + state.load.degraded.sum = 100)
    (hash : UInt64) :
    state.choose hash = k ↔
      state.load.before k ≤ hash.toNat % 100 ∧
        hash.toNat % 100 < state.load.before k + state.load.share k := by
  rw [← Option.some.injEq, ← found?_eq_some_choose hsum, found?]
  have hstart : 0 < hash.toNat % 100 + 1 := Nat.succ_pos _
  obtain ⟨i, availability⟩ := k
  cases hreach : PriorityLoad.reach (hash.toNat % 100 + 1) 0 state.load.healthy with
  | some j =>
    rw [Option.map_some, Option.some_or, Option.some.injEq, Prod.mk.injEq]
    cases availability with
    | healthy =>
      have hi := PriorityLoad.reach_eq_some_iff hstart state.load.healthy i
      rw [hreach, Option.some.injEq] at hi
      simp only [PriorityLoad.before, PriorityLoad.share, and_true]
      omega
    | degraded =>
      -- the healthy shares reach the point, so it is in front of all degraded ones
      have hj := (PriorityLoad.reach_eq_some_iff hstart state.load.healthy j).1 hreach
      have hprefix := sum_take_add_getD_le state.load.healthy j
      simp only [PriorityLoad.before, reduceCtorEq, and_false, false_iff]
      omega
  | none =>
    have hbeyond := PriorityLoad.reach_eq_none hreach hstart
    rw [Nat.zero_add] at hbeyond
    rw [Option.map_none, Option.none_or, Option.map_eq_some_iff]
    cases availability with
    | healthy =>
      have hprefix := sum_take_add_getD_le state.load.healthy i
      simp only [PriorityLoad.before, PriorityLoad.share, Prod.mk.injEq, reduceCtorEq, and_false,
        exists_false, false_iff]
      omega
    | degraded =>
      have hi := PriorityLoad.reach_eq_some_iff hbeyond state.load.degraded i
      simp only [PriorityLoad.before, PriorityLoad.share, Prod.mk.injEq, and_true,
        exists_eq_right]
      rw [hi]
      omega

/-! ## Counting requests -/

/-- The points of an interval that lies within a line. -/
theorem countP_range_interval {n a b : Nat} (h : a + b ≤ n) :
    (List.range n).countP (fun x => decide (a ≤ x ∧ x < a + b)) = b := by
  -- the line is cut in three: before the interval, within it and behind it
  obtain ⟨c, rfl⟩ := Nat.exists_eq_add_of_le h
  rw [List.range_add, List.range_add, List.countP_append, List.countP_append,
    List.countP_map, List.countP_map]
  have hfront : (List.range a).countP (fun x => decide (a ≤ x ∧ x < a + b)) = 0 := by
    rw [List.countP_eq_zero]
    intro x hx
    have := List.mem_range.1 hx
    simp only [decide_eq_true_eq]
    omega
  have hwithin : (List.range b).countP
      ((fun x => decide (a ≤ x ∧ x < a + b)) ∘ fun x => a + x) = (List.range b).length := by
    rw [List.countP_eq_length]
    intro x hx
    have := List.mem_range.1 hx
    simp only [Function.comp_apply, decide_eq_true_eq]
    omega
  have hbehind : (List.range c).countP
      ((fun x => decide (a ≤ x ∧ x < a + b)) ∘ fun x => a + b + x) = 0 := by
    rw [List.countP_eq_zero]
    intro x hx
    simp only [Function.comp_apply, decide_eq_true_eq]
    omega
  rw [hfront, hwithin, hbehind, List.length_range, Nat.zero_add, Nat.add_zero]

/-- A hundred hashes with distinct remainders have every remainder once. -/
theorem perm_range_of_distinct {hashes : List UInt64} (hundred : hashes.length = 100)
    (distinct : (hashes.map fun hash => hash.toNat % 100).Nodup) :
    (hashes.map fun hash => hash.toNat % 100).Perm (List.range 100) := by
  have hsubset : (hashes.map fun hash => hash.toNat % 100) ⊆ List.range 100 := by
    intro remainder hmem
    obtain ⟨hash, -, rfl⟩ := List.mem_map.1 hmem
    exact List.mem_range.2 (Nat.mod_lt _ (by decide))
  refine (List.subperm_of_subset distinct hsubset).perm_of_length_le ?_
  simp [hundred]

/-- **Every level is chosen as often as its load says** among a hundred hashes with distinct
remainders. -/
theorem countP_choose (hsum : state.load.healthy.sum + state.load.degraded.sum = 100)
    {hashes : List UInt64} (hundred : hashes.length = 100)
    (distinct : (hashes.map fun hash => hash.toNat % 100).Nodup) (k : Nat × Availability) :
    hashes.countP (fun hash => decide (state.choose hash = k)) = state.load.share k := by
  have hwithin := state.load.before_add_share_le k
  have hperm := perm_range_of_distinct hundred distinct
  rw [← countP_range_interval (Nat.le_trans hwithin (Nat.le_of_eq hsum)), ← hperm.countP_eq,
    List.countP_map]
  refine List.countP_congr fun hash _ => ?_
  simp only [Function.comp_apply, decide_eq_true_eq]
  exact choose_eq_iff hsum hash

end PriorityState

/-! ## The loads of a priority set -/

/-- The first level with hosts, or level 0 where no level has any. -/
def PrioritySet.IsFirst (s : PrioritySet) (first : Nat) : Prop :=
  (∃ l, s.level? first = some l ∧ l.hosts ≠ [] ∧
    ∀ k < first, ∀ l', s.level? k = some l' → l'.hosts = []) ∨
  (first = 0 ∧ ∀ l ∈ s.levels, l.hosts = [])

theorem PrioritySet.isFirst_findIdx? (s : PrioritySet) :
    s.IsFirst ((s.levels.findIdx? fun l => !l.isEmpty).getD 0) := by
  cases hfound : s.levels.findIdx? fun l => !l.isEmpty with
  | some first =>
    obtain ⟨hlt, hhosts, hfront⟩ := List.findIdx?_eq_some_iff_getElem.1 hfound
    refine .inl ⟨s.levels[first], List.getElem?_eq_getElem hlt, ?_, fun k hk l' hl' => ?_⟩
    · simpa [HostSet.isEmpty] using hhosts
    · obtain ⟨hk', rfl⟩ := List.getElem?_eq_some_iff.1 hl'
      simpa [HostSet.isEmpty] using hfront k hk
  | none =>
    refine .inr ⟨rfl, fun l hl => ?_⟩
    simpa [HostSet.isEmpty] using List.findIdx?_eq_none_iff.1 hfound l hl

namespace PriorityLoad

theorem share_allOn {levels target : Nat} (h : target < levels) (k : Nat × Availability) :
    (allOn levels target).share k = if k = (target, .healthy) then 100 else 0 := by
  obtain ⟨i, availability⟩ := k
  cases availability with
  | healthy =>
    simp only [share, allOn, List.getD_eq_getElem?_getD, List.getElem?_map, Prod.mk.injEq,
      and_true]
    by_cases hi : i < levels
    · rw [List.getElem?_range hi]
      rfl
    · -- the target is a level of the table
      rw [List.getElem?_eq_none (by simpa using hi), if_neg (by omega)]
      rfl
  | degraded =>
    have hzero : (List.replicate levels 0).getD i 0 = 0 := by
      by_cases hi : i < levels
      · simp [hi]
      · simp [hi]
    rw [share, allOn, hzero, if_neg (by simp)]

end PriorityLoad

namespace PriorityState

variable (s : PrioritySet) (inPanic : HostSet → Bool)

theorem length_capacities (part : HostSet → List Host) :
    (capacities s part).length = max 1 s.levels.length := by
  rw [capacities]
  split
  next hnone => simp [List.isEmpty_iff.1 hnone]
  next hsome =>
    rw [List.isEmpty_iff, ← List.length_eq_zero_iff] at hsome
    rw [List.length_map]
    omega

theorem le_hundred_of_mem_capacities (part : HostSet → List Host) {c : Nat}
    (h : c ∈ capacities s part) : c ≤ 100 := by
  rw [capacities] at h
  split at h
  · have := List.mem_singleton.1 h
    omega
  · obtain ⟨l, -, rfl⟩ := List.mem_map.1 h
    rw [HostSet.capacity]
    split <;> omega

/-- Nothing is available: the first level with hosts takes all. -/
theorem load_compute_of_none
    (hnone : (capacities s (·.healthy)).sum + (capacities s (·.degraded)).sum = 0) :
    ∃ first, s.IsFirst first ∧ first < max 1 s.levels.length ∧
      (compute s inPanic).load = .allOn (max 1 s.levels.length) first := by
  have hfirst := s.isFirst_findIdx?
  rw [compute]
  dsimp only
  rw [if_pos (by omega), length_capacities]
  generalize (s.levels.findIdx? fun l => !l.isEmpty).getD 0 = first at hfirst ⊢
  refine ⟨first, hfirst, ?_, rfl⟩
  -- there may be no level at all, and then it is level 0 that takes everything
  rcases hfirst with ⟨l, hl, -, -⟩ | ⟨rfl, -⟩
  · obtain ⟨hlt, -⟩ := List.getElem?_eq_some_iff.1 hl
    omega
  · omega

theorem load_compute_of_some
    (hsome : (capacities s (·.healthy)).sum + (capacities s (·.degraded)).sum ≠ 0) :
    (compute s inPanic).load =
      .ofCapacities
        (min 100 ((capacities s (·.healthy)).sum + (capacities s (·.degraded)).sum))
        (capacities s (·.healthy)) (capacities s (·.degraded)) := by
  rw [compute]
  dsimp only
  rw [if_neg (by omega)]

/-- **The loads take all traffic**, whatever the health of the hosts. -/
theorem sum_load_compute :
    (compute s inPanic).load.healthy.sum + (compute s inPanic).load.degraded.sum = 100 := by
  by_cases hnone : (capacities s (·.healthy)).sum + (capacities s (·.degraded)).sum = 0
  · obtain ⟨first, -, hlt, hload⟩ := load_compute_of_none s inPanic hnone
    rw [hload]
    exact (PriorityLoad.full_allOn hlt).sum
  · rw [load_compute_of_some s inPanic hnone]
    exact (PriorityLoad.full_ofCapacities (by omega) (by omega) (exists_capacity s hnone)).sum

/-- **Traffic fails over in order.** If anything is available, a level gets traffic for its
healthy hosts exactly if it has capacity for it and the levels in front of it cannot take
everything; and for its degraded hosts exactly if, besides, the healthy hosts of all levels
cannot. -/
theorem share_compute_pos_iff
    (hsome : (capacities s (·.healthy)).sum + (capacities s (·.degraded)).sum ≠ 0) :
    let c := capacities s (·.healthy)
    let d := capacities s (·.degraded)
    let load := (compute s inPanic).load
    (∀ i, 0 < load.share (i, .healthy) ↔ 0 < c.getD i 0 ∧ (c.take i).sum < 100) ∧
      ∀ j, 0 < load.share (j, .degraded) ↔ 0 < d.getD j 0 ∧ c.sum + (d.take j).sum < 100 := by
  dsimp only
  rw [load_compute_of_some s inPanic hsome]
  have hcapacity := exists_capacity s hsome
  generalize capacities s (·.healthy) = c at hsome hcapacity ⊢
  generalize capacities s (·.degraded) = d at hsome hcapacity ⊢
  have htotal : 0 < min 100 (c.sum + d.sum) := by omega
  have hle : min 100 (c.sum + d.sum) ≤ 100 := Nat.min_le_left ..
  have hscaled := PriorityLoad.scaled_pos_iff htotal hle
  obtain ⟨hhealthy, hdegraded⟩ := PriorityLoad.ofCapacities_pos_iff htotal hle hcapacity
  refine ⟨fun i => ?_, fun j => ?_⟩
  · -- in front of healthy hosts stand the healthy hosts of lower levels
    rw [PriorityLoad.share, hhealthy, PriorityLoad.getD_spread, Nat.lt_min, hscaled,
      Nat.sub_pos_iff_lt, and_comm]
    refine and_congr_right fun hc => PriorityLoad.sum_scaled_lt_iff hc ?_
    have := sum_take_add_getD_le c i
    omega
  · -- in front of degraded hosts stand, besides, the healthy hosts of all levels
    have before : (c ++ d.take j).sum = c.sum + (d.take j).sum := List.sum_append
    rw [PriorityLoad.share, hdegraded, PriorityLoad.getD_spread, PriorityLoad.left_spread,
      Nat.lt_min, hscaled, Nat.sub_sub, Nat.sub_pos_iff_lt, ← List.sum_append, ← List.map_append,
      ← before, and_comm]
    refine and_congr_right fun hd => PriorityLoad.sum_scaled_lt_iff hd ?_
    have := sum_take_add_getD_le d j
    omega

/-- Capacities of fewer than 20,000,000 levels are summed within 32 bits. -/
theorem sum_capacities_lt (few : s.levels.length < 20000000) :
    (capacities s (·.healthy)).sum + (capacities s (·.degraded)).sum < 2 ^ 32 := by
  have hle (part : HostSet → List Host) :
      (capacities s part).sum ≤ max 1 s.levels.length * 100 := by
    rw [← length_capacities s part]
    exact List.sum_le_card_nsmul _ 100 fun _ => le_hundred_of_mem_capacities s part
  have hhealthy := hle (·.healthy)
  have hdegraded := hle (·.degraded)
  omega

/-- **The load table is exact and fails over in order**, whichever levels panic. The sums that
it is computed from do not overflow, and its loads sum to 100. If no level has any capacity,
the first level with hosts takes everything; otherwise traffic goes down the levels, healthy
hosts before degraded ones. The walk along the table finds a level for every hash, and each
level is chosen as often as its load says. -/
theorem compute_fails_over (s : PrioritySet) (inPanic : HostSet → Bool)
    (few : s.levels.length < 20000000) :
    let c := capacities s (·.healthy)
    let d := capacities s (·.degraded)
    let state := compute s inPanic
    c.sum + d.sum < 2 ^ 32 ∧
    state.load.healthy.sum + state.load.degraded.sum = 100 ∧
    (((∀ x ∈ c, x = 0) ∧ (∀ x ∈ d, x = 0) ∧ ∃ first, s.IsFirst first ∧
        ∀ k, state.load.share k = if k = (first, .healthy) then 100 else 0) ∨
      (((∃ x ∈ c, 0 < x) ∨ ∃ x ∈ d, 0 < x) ∧
        (∀ i, 0 < state.load.share (i, .healthy) ↔ 0 < c.getD i 0 ∧ (c.take i).sum < 100) ∧
        ∀ j, 0 < state.load.share (j, .degraded) ↔
          0 < d.getD j 0 ∧ c.sum + (d.take j).sum < 100)) ∧
    (∀ hash, state.found? hash = some (state.choose hash)) ∧
    ∀ hashes : List UInt64, hashes.length = 100 →
      (hashes.map fun hash => hash.toNat % 100).Nodup → ∀ k,
      hashes.countP (fun hash => decide (state.choose hash = k)) = state.load.share k := by
  have hsum := sum_load_compute s inPanic
  refine ⟨sum_capacities_lt s few, hsum, ?_, found?_eq_some_choose hsum,
    fun hashes hundred distinct => countP_choose hsum hundred distinct⟩
  -- without any capacity the table is set by hand, and otherwise computed level by level
  by_cases hnone : (capacities s (·.healthy)).sum + (capacities s (·.degraded)).sum = 0
  · obtain ⟨first, hfirst, hlt, hload⟩ := load_compute_of_none s inPanic hnone
    refine .inl ⟨List.sum_eq_zero_iff.1 (by omega), List.sum_eq_zero_iff.1 (by omega), first,
      hfirst, ?_⟩
    rw [hload]
    exact PriorityLoad.share_allOn hlt
  · exact .inr ⟨exists_capacity s hnone, share_compute_pos_iff s inPanic hnone⟩

/-! ### What rounding leaves over -/

section Thirds

def thirdsTable : HostTable :=
  let down := { HostState.new 1 with flags := .ofHealth .unhealthy }
  ⟨#[.new 1, down, down, .new 1, down, down, .new 1, down, down]⟩

/-- The hosts of a level, of which the first one is healthy. -/
def thirdsHosts (level : Nat) : List Host :=
  [(0, "a"), (1, "b"), (2, "c")].map fun (i, address) =>
    { id := 3 * level + i, address, locality := default, metadata := ∅ }

def thirdsSet : PrioritySet :=
  [0, 1, 2].foldl (fun s level => s.updateHosts thirdsTable level (thirdsHosts level) [])
    (.empty 100)

/-- Three levels can take a third each, which is worth 33 percent. The percent that is left over
goes to level 0. -/
theorem compute_fails_over_thirds :
    let state := compute thirdsSet fun _ => false
    let hashes := (List.range 100).map UInt64.ofNat
    thirdsSet.levels.length < 20000000 ∧
      (∀ hash, state.found? hash = some (state.choose hash)) ∧
      hashes.countP (fun hash => decide (state.choose hash = (0, .healthy))) = 34 ∧
      hashes.countP (fun hash => decide (state.choose hash = (2, .healthy))) = 33 := by
  have few : thirdsSet.levels.length < 20000000 := by decide +kernel
  obtain ⟨-, -, -, hfound, hcount⟩ := compute_fails_over thirdsSet (fun _ => false) few
  have hload : (compute thirdsSet fun _ => false).load = ⟨[34, 33, 33], [0, 0, 0]⟩ := by
    decide +kernel
  have hcount' := hcount ((List.range 100).map UInt64.ofNat) (by simp) (by decide +kernel)
  refine ⟨few, hfound, ?_, ?_⟩
  · rw [hcount', hload]
    rfl
  · rw [hcount', hload]
    rfl

end Thirds

end PriorityState
end LoadBalancing
