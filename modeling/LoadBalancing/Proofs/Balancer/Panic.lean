/-
Who is given although no health speaks for it.

A host outside of both partitions of its level is only given if the level is served from all
its hosts. There are two ways to that. A level panics by itself if fewer than the threshold of
its hosts are available; the percentage is computed with rounding, but never comes out below a
threshold that the exact percentage reaches (`HostSet.below_of_inPanic`). And all levels panic
if none has any capacity.

The second way depends on more than the health of the hosts. The capacity of a level is cut down
to whole percents, so it can be zero with hosts in both partitions: as soon as the factor times
the hosts of a partition is less than the hosts of the level. If that is so for every partition
of every level, the first level with hosts serves everything, from all its hosts and at any
threshold.
-/
import LoadBalancing.Proofs.Balancer.Routed
import LoadBalancing.Proofs.Numerics
import LoadBalancing.Proofs.Priority.Shares

set_option autoImplicit false

namespace LoadBalancing

/-! ## One level -/

namespace HostSet

variable {l : HostSet} {t : HostTable}

theorem MatchesHealth.length_parts_le (matched : l.MatchesHealth t) :
    l.healthy.length + l.degraded.length ≤ l.hosts.length := by
  rw [matched.healthy, matched.degraded]
  refine length_filter_add_length_filter_le (fun h hhealthy => ?_) l.hosts
  rw [of_decide_eq_true hhealthy]
  rfl

/-- Less than the threshold is available, without rounding. -/
def Below (l : HostSet) (threshold : ℚ) : Prop :=
  (100 * (l.healthy.length + l.degraded.length) / l.hosts.length : ℚ) < threshold

/-- **A level that panics by itself** is below the threshold, and not just by rounding. -/
theorem below_of_inPanic (matched : l.MatchesHealth t) (hhosts : l.hosts ≠ [])
    (hsize : 100 * l.hosts.length < 2 ^ 53) {threshold : Float} {τ : ℚ}
    (hvalue : Double.value? threshold = some τ) (hpanic : l.inPanic threshold = true) :
    l.Below τ := by
  have hparts := matched.length_parts_le
  have hpos : 0 < l.hosts.length := List.length_pos_iff.2 hhosts
  have hless : Float.ofNat 100 * Float.ofNat (l.healthy.length + l.degraded.length) /
      Float.ofNat l.hosts.length < threshold := by
    have hnonempty : ¬ l.hosts.isEmpty = true := by simpa using hhosts
    rw [inPanic, if_neg hnonempty] at hpanic
    exact of_decide_eq_true hpanic
  have hexact := Double.lt_of_quotient_lt (by omega) (by omega) hpos hvalue hless
  rw [Below]
  push_cast at hexact
  exact hexact

/-- A capacity that is cut down to nothing. -/
theorem capacity_eq_zero_iff (l : HostSet) (part : List Host) :
    l.capacity part = 0 ↔
      (l.hosts ≠ [] → l.overprovisioning * part.length < l.hosts.length) := by
  rw [capacity]
  by_cases hhosts : l.hosts = []
  · simp [hhosts]
  · have hpos : 0 < l.hosts.length := List.length_pos_iff.2 hhosts
    rw [if_neg (by simpa using hhosts)]
    constructor
    · intro hzero _
      have hdiv : l.overprovisioning * part.length / l.hosts.length = 0 := by omega
      rcases Nat.div_eq_zero_iff.1 hdiv with h | h
      · omega
      · exact h
    · intro hless
      rw [Nat.div_eq_of_lt (hless hhosts), Nat.min_zero]

end HostSet

/-! ## All levels -/

namespace PrioritySet

variable {s : PrioritySet} {inPanic : HostSet → Bool} {hash : UInt64}

/-- No partition of any level is worth a whole percent. -/
def NoCapacity (s : PrioritySet) : Prop :=
  ∀ l ∈ s.levels, l.hosts ≠ [] →
    l.overprovisioning * l.healthy.length < l.hosts.length ∧
      l.overprovisioning * l.degraded.length < l.hosts.length

theorem sum_capacities_eq_zero_iff (part : HostSet → List Host) :
    (PriorityState.capacities s part).sum = 0 ↔
      ∀ l ∈ s.levels, l.hosts ≠ [] → l.overprovisioning * (part l).length < l.hosts.length := by
  rw [List.sum_eq_zero_iff, PriorityState.capacities]
  split
  next hnone => simp [List.isEmpty_iff.1 hnone]
  next =>
    rw [List.forall_mem_map]
    exact forall₂_congr fun l _ => l.capacity_eq_zero_iff (part l)

theorem noCapacity_iff :
    s.NoCapacity ↔ (PriorityState.capacities s (·.healthy)).sum +
      (PriorityState.capacities s (·.degraded)).sum = 0 := by
  rw [Nat.add_eq_zero_iff, sum_capacities_eq_zero_iff, sum_capacities_eq_zero_iff]
  constructor
  · intro h
    exact ⟨fun l hl hhosts => (h l hl hhosts).1, fun l hl hhosts => (h l hl hhosts).2⟩
  · intro h l hl hhosts
    exact ⟨h.1 l hl hhosts, h.2 l hl hhosts⟩

/-- The two ways to panic. -/
theorem isPanic_cases {i : Nat} {l : HostSet} (hl : s.level? i = some l)
    (hpanic : (PriorityState.compute s inPanic).isPanic i = true) :
    s.NoCapacity ∨ inPanic l = true := by
  by_cases hnone : (PriorityState.capacities s (·.healthy)).sum +
      (PriorityState.capacities s (·.degraded)).sum = 0
  · exact .inl (noCapacity_iff.2 hnone)
  · right
    have hlevel : s.levels[i]? = some l := hl
    rw [PriorityState.compute] at hpanic
    dsimp only at hpanic
    rw [if_neg (by omega), PriorityState.isPanic, List.getD_eq_getElem?_getD,
      List.getElem?_map, hlevel, Option.map_some, Option.getD_some, Bool.and_eq_true] at hpanic
    exact hpanic.2

theorem IsFirst.eq {first first' : Nat} (h : s.IsFirst first) (h' : s.IsFirst first') :
    first = first' := by
  rcases h with ⟨l, hl, hhosts, hfront⟩ | ⟨rfl, hnone⟩
  · rcases h' with ⟨l', hl', hhosts', hfront'⟩ | ⟨rfl, hnone'⟩
    · rcases Nat.lt_trichotomy first first' with hlt | heq | hlt
      · exact absurd (hfront' first hlt l hl) hhosts
      · exact heq
      · exact absurd (hfront first' hlt l' hl') hhosts'
    · exact absurd (hnone' l (List.mem_of_getElem? hl)) hhosts
  · rcases h' with ⟨l', hl', hhosts', -⟩ | ⟨rfl, -⟩
    · exact absurd (hnone l' (List.mem_of_getElem? hl')) hhosts'
    · rfl

/-- Without capacity, the first level with hosts serves every request, and from all its hosts. -/
theorem routed_of_noCapacity (hnone : s.NoCapacity) {first : Nat} {l : HostSet}
    (hfirst : s.IsFirst first) (hl : s.level? first = some l) :
    s.routed inPanic hash = l.hosts := by
  have hzero := noCapacity_iff.1 hnone
  have hsum := PriorityState.sum_load_compute s inPanic
  obtain ⟨first', hfirst', hlt, hload⟩ := PriorityState.load_compute_of_none s inPanic hzero
  obtain rfl := hfirst.eq hfirst'
  -- the level takes all traffic, so its interval is the whole line
  have hchoose : (PriorityState.compute s inPanic).choose hash = (first, .healthy) := by
    have hwithin := (PriorityState.compute s inPanic).load.before_add_share_le (first, .healthy)
    have hshare := PriorityLoad.share_allOn hlt (first, .healthy)
    rw [if_pos rfl, ← hload] at hshare
    rw [PriorityState.choose_eq_iff hsum]
    omega
  have hpanic : (PriorityState.compute s inPanic).isPanic first = true := by
    rw [PriorityState.compute]
    dsimp only
    rw [if_pos (by omega), PriorityState.isPanic, PriorityState.length_capacities,
      List.getD_eq_getElem?_getD, List.getElem?_replicate_of_lt hlt, Option.getD_some]
  rw [routed, hchoose]
  dsimp only
  rw [hl, PriorityState.source, if_pos hpanic]
  rfl

end PrioritySet

/-! ## Balancers -/

namespace Balancer

variable {s : PrioritySet} {strategy : Strategy}

/-- **Hosts that are neither healthy nor degraded are given in panic only.** The level of the
request is below the threshold, without rounding, or no partition of any level is worth a whole
percent. In the latter case the first level with hosts serves everything, and health is not
looked at. This goes for every policy but the ring, and in every state of turns and random
draws; the partitions may be out of date, and the hosts of a level are so few that a double
counts a hundred times as many. -/
theorem choose_outside_partitions (rebuilt : ∀ l ∈ s.levels, ∃ t, l.MatchesHealth t)
    (hsize : ∀ l ∈ s.levels, 100 * l.hosts.length < 2 ^ 53)
    (noRing : ∀ settings, strategy.policy ≠ .ringHash settings)
    (hlow : 0 ≤ strategy.panicThreshold) (hhigh : strategy.panicThreshold ≤ 100)
    (t t' : HostTable) (w : Workshop) (hash : Option UInt64) (state : PickState) :
    let inPanic := Numerics.float.inPanic strategy.panicThreshold
    let routing := (Pick.routingHash hash state).1
    let picked := ((strategy.build .float t s w).1.choose t' hash state).1
    ∃ τ, Double.value? strategy.panicThreshold = some τ ∧
      (∀ h, picked = some h →
        ∃ l, s.level? ((PriorityState.compute s inPanic).choose routing).1 = some l ∧
          h ∈ l.hosts ∧ (h ∉ l.healthy → h ∉ l.degraded → l.Below τ ∨ s.NoCapacity)) ∧
      (s.NoCapacity → ∀ first l, s.IsFirst first → s.level? first = some l →
        s.routed inPanic routing = l.hosts) := by
  dsimp only
  obtain ⟨τ, hvalue⟩ := Double.exists_value hlow hhigh
  refine ⟨τ, hvalue, fun h hpicked => ?_,
    fun hnone first l hfirst hl => PrioritySet.routed_of_noCapacity hnone hfirst hl⟩
  obtain ⟨-, hfrom⟩ := choose_routed rebuilt noRing .float t t' w hash state
  obtain ⟨l, hl, hmem⟩ := hfrom h hpicked
  have hlevel : l ∈ s.levels := List.mem_of_getElem? hl
  obtain ⟨t₀, matched⟩ := rebuilt l hlevel
  split at hmem
  next hpanic =>
    have hhosts : l.hosts ≠ [] := List.ne_nil_of_mem hmem
    refine ⟨l, hl, hmem, fun _ _ => ?_⟩
    rcases PrioritySet.isPanic_cases hl hpanic with hnone | hbelow
    · exact .inr hnone
    · exact .inl (HostSet.below_of_inPanic matched hhosts (hsize l hlevel) hvalue hbelow)
  next =>
    -- the level does not panic, so the host is in the partition that the request was sent to
    have sound := (PrioritySet.sound_of_matchesHealth rebuilt).levels _ l hl
    cases hchosen : ((PriorityState.compute s (Numerics.float.inPanic
        strategy.panicThreshold)).choose (Pick.routingHash hash state).1).2 with
    | healthy =>
      rw [hchosen] at hmem
      exact ⟨l, hl, sound.healthy h hmem, fun hhealthy => absurd hmem hhealthy⟩
    | degraded =>
      rw [hchosen] at hmem
      exact ⟨l, hl, sound.degraded h hmem, fun _ hdegraded => absurd hmem hdegraded⟩

/-! ### A level in panic, and one that is not -/

section Crew

def crewHost (id : Nat) (address : String) : Host :=
  { id, address, locality := default, metadata := ∅ }

/-- The last of some hosts is healthy, all others are down. -/
def crewTable (down : Nat) : HostTable :=
  let gone := { HostState.new 1 with flags := .ofHealth .unhealthy }
  ⟨(List.replicate down gone ++ [HostState.new 1]).toArray⟩

/-- Two hosts are down and one is not. -/
def weakCrew : PrioritySet :=
  (PrioritySet.empty 140).updateHosts (crewTable 2) 0
    [crewHost 0 "a", crewHost 1 "b", crewHost 2 "c"] []

/-- One host is down and one is not, and the factor is one percent. -/
def halfCrew : PrioritySet :=
  (PrioritySet.empty 1).updateHosts (crewTable 1) 0 [crewHost 0 "a", crewHost 1 "b"] []

def crewStrategy : Strategy := ⟨.roundRobin, 50⟩

/-- A host that is down is given, and indeed a third is less than 50 percent. -/
theorem choose_outside_weakCrew :
    ∃ l, weakCrew.level? 0 = some l ∧ crewHost 0 "a" ∉ l.healthy ∧ crewHost 0 "a" ∉ l.degraded ∧
      ((crewStrategy.build .float (crewTable 2) weakCrew .new).1.choose .empty (some 0)
        (.start fun _ => 0)).1 = some (crewHost 0 "a") ∧ l.Below 50 := by
  -- the partitions are those that would be computed anew
  have computed : ∀ l ∈ weakCrew.levels, l.rebuild (crewTable 2) = l := by decide +kernel
  have rebuilt : ∀ l ∈ weakCrew.levels, ∃ t, l.MatchesHealth t :=
    fun l hl => ⟨_, HostSet.Current.matchesHealth (computed l hl)⟩
  have hsize : ∀ l ∈ weakCrew.levels, 100 * l.hosts.length < 2 ^ 53 := by decide +kernel
  have noRing : ∀ settings, crewStrategy.policy ≠ .ringHash settings := by
    intro settings h
    cases h
  obtain ⟨τ, hvalue, hgiven, -⟩ := choose_outside_partitions rebuilt hsize noRing
    (by decide +kernel) (by decide +kernel) (crewTable 2) .empty .new (some 0) (.start fun _ => 0)
  -- the threshold is the same number as a double
  obtain rfl : τ = 50 := by
    have hfifty : Double.value? crewStrategy.panicThreshold = some 50 :=
      Double.value?_ofNat (n := 50) (by decide)
    exact Option.some.inj (hvalue.symm.trans hfifty)
  have hpicked : ((crewStrategy.build .float (crewTable 2) weakCrew .new).1.choose .empty (some 0)
      (.start fun _ => 0)).1 = some (crewHost 0 "a") := by decide +kernel
  obtain ⟨l, hl, -, hbelow⟩ := hgiven _ hpicked
  have hchosen : ((PriorityState.compute weakCrew (Numerics.float.inPanic
      crewStrategy.panicThreshold)).choose 0).1 = 0 := by decide +kernel
  have hl0 : weakCrew.level? 0 = some l := hchosen ▸ hl
  have houtside : ∀ l ∈ weakCrew.level? 0,
      crewHost 0 "a" ∉ l.healthy ∧ crewHost 0 "a" ∉ l.degraded := by decide +kernel
  -- it is not for want of capacity, so it is for want of hosts
  have hcapacity : ¬ weakCrew.NoCapacity := by
    rw [PrioritySet.noCapacity_iff]
    decide +kernel
  obtain ⟨hhealthy, hdegraded⟩ := houtside l hl0
  exact ⟨l, hl0, hhealthy, hdegraded, hpicked, (hbelow hhealthy hdegraded).resolve_right hcapacity⟩

/-- **Panic without a shortage.** Half of the hosts are healthy, which is not below 50 percent. But
half of a factor of one percent is nothing, so the host that is down is given nevertheless. -/
theorem not_below_halfCrew :
    ∃ l, halfCrew.levels = [l] ∧ l.overprovisioning = 1 ∧ crewHost 1 "b" ∈ l.healthy ∧
      ((crewStrategy.build .float (crewTable 1) halfCrew .new).1.choose .empty (some 0)
        (.start fun _ => 0)).1 = some (crewHost 0 "a") ∧
      crewHost 0 "a" ∉ l.healthy ∧ crewHost 0 "a" ∉ l.degraded ∧
      Double.value? crewStrategy.panicThreshold = some 50 ∧ ¬ l.Below 50 := by
  have hlevel : halfCrew.levels = [halfCrew.levels.head (by decide +kernel)] := by decide +kernel
  have hfifty : Double.value? crewStrategy.panicThreshold = some 50 :=
    Double.value?_ofNat (n := 50) (by decide)
  refine ⟨_, hlevel, by decide +kernel, by decide +kernel, by decide +kernel, by decide +kernel,
    by decide +kernel, hfifty, ?_⟩
  have hhealthy : (halfCrew.levels.head (by decide +kernel)).healthy.length = 1 := by
    decide +kernel
  have hdegraded : (halfCrew.levels.head (by decide +kernel)).degraded.length = 0 := by
    decide +kernel
  have hhosts : (halfCrew.levels.head (by decide +kernel)).hosts.length = 2 := by decide +kernel
  -- one of two is not below 50 percent
  rw [HostSet.Below, hhealthy, hdegraded, hhosts]
  norm_num

end Crew

end Balancer

end LoadBalancing
