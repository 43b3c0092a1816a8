/-
Which requests a subset with rings has no host for.

A subset with hosts routes every request to some of them (`PrioritySet.routed_ne_nil`). A ring of
these has an owner for every hash as soon as the locality of one of them is weighed in the subset.
Weights that are taken over as they are stay positive. Weights that are scaled are rounded, and if
a subset has so few hosts of a locality that less than a half is left of its weight, then nothing
is (`HostSubset.Fades`). Where this happens to all localities of the hosts that a request is
routed to, the ring is empty, and the subset gives no host although it has some.
-/
import LoadBalancing.Proofs.Balancer.Serves
import LoadBalancing.Proofs.Ring.Shares
import LoadBalancing.Proofs.Subset.Weights

set_option autoImplicit false

namespace LoadBalancing

namespace PrioritySet

/-- Wherever there are hosts, their locality has a positive weight. -/
def Weighted (s : PrioritySet) : Prop :=
  ∀ p, ∀ h ∈ s.hostsAt p, ∃ weight, (s.weightsAt p).get? h.locality = some weight ∧ 0 < weight

/-- The level that a request with this hash is routed to. -/
def routedTo (s : PrioritySet) (inPanic : HostSet → Bool) (hash : UInt64) : Nat :=
  ((PriorityState.compute s inPanic).choose hash).1

end PrioritySet

/-! ## Balancers with rings -/

namespace Balancer

variable {s : PrioritySet}

/-- **Among hosts** a request always asks a piece, that of the hosts which it is routed to. -/
theorem exists_piece {β : Type} (someone : s.isEmpty = false) (inPanic : HostSet → Bool)
    (piece : Nat → HostSet → Partition → β) (hash : UInt64) :
    ∃ k l p, s.level? (s.routedTo inPanic hash) = some l ∧
      s.routed inPanic hash = l.partition p ∧
      (PriorityTable.build s inPanic piece).pick? hash = some (piece k l p) := by
  obtain ⟨k, hpick⟩ := PriorityTable.exists_pick?_build inPanic piece hash
  have hsomeone : s.routed inPanic hash ≠ [] := PrioritySet.routed_ne_nil someone
  rw [PrioritySet.routed] at hsomeone
  rw [hpick, PrioritySet.routed, PrioritySet.routedTo]
  cases hlevel : s.level? ((PriorityState.compute s inPanic).choose hash).1 with
  | none =>
    rw [hlevel] at hsomeone
    exact absurd rfl hsomeone
  | some l => exact ⟨k, l, _, rfl, rfl, rfl⟩

/-- **Whom rings serve**, in exact arithmetic: some host of those that the request is routed to,
unless all of their localities are without a weight. -/
theorem choose_rings {computed : HostTable} (current : s.Current computed)
    (someone : s.isEmpty = false) {strategy : Strategy} {settings : RingSettings}
    (ring : strategy.policy = .ringHash settings) (valid : settings.problem? = none)
    (inPanic : Float → HostSet → Bool) (t t' : HostTable) (w : Workshop) (hash : Option UInt64)
    (state : PickState) :
    let sent := (Pick.routingHash hash state).1
    let hosts := s.routed (inPanic strategy.panicThreshold) sent
    let picked := ((strategy.build (.exact inPanic) t s w).1.choose t' hash state).1
    ∃ l p, s.level? (s.routedTo (inPanic strategy.panicThreshold) sent) = some l ∧
      hosts = l.partition p ∧
      (∀ h, picked = some h → h ∈ hosts ∧ l.Weighs h.locality) ∧
      (picked = none ↔ ∀ h ∈ hosts, ¬ l.Weighs h.locality) := by
  obtain ⟨policy, threshold⟩ := strategy
  cases ring
  intro sent hosts picked
  -- the request is sent to one level and partition, each of which has a ring of its own
  obtain ⟨k, l, p, hlevel, hhosts, hpick⟩ := exists_piece someone (inPanic threshold)
    (fun _ l p => Numerics.ring Rat settings t l p) sent
  have hpicked : picked = (Numerics.ring Rat settings t l p).owner? sent :=
    congrArg (fun ring : Option Ring => ring.bind fun ring => ring.owner? sent) hpick
  rw [hpicked, show hosts = l.partition p from hhosts]
  exact ⟨l, p, hlevel, rfl, Ring.owner?_ofHostSet (current.levels _ l hlevel) valid t p sent⟩

end Balancer

/-! ## Subsets with rings -/

namespace HostSubset

variable {plan : SubsetPlan} {whole : PrioritySet} {t : HostTable} {metadata : Tuple}

/-- The weight of a locality comes to less than a half for those of its hosts that are in the set,
if it is scaled. -/
def Fades (plan : SubsetPlan) (whole set : PrioritySet) (p : Nat) (l : Locality) : Prop :=
  plan.settings.scaleLocalityWeight = true ∧
    2 * (((whole.weightsAt p).get? l).getD 0 * set.countAt p l) < whole.countAt p l

/-- Weights that are not scaled are taken over. -/
theorem weightsAt_weigh_plain (aware : plan.settings.localityWeightAware = true)
    (plain : plan.settings.scaleLocalityWeight = false) {set : PrioritySet} {p : Nat}
    {level : HostSet} (hlevel : whole.level? p = some level) (q : Nat) :
    (weigh plan whole set p).weightsAt q =
      if q = p then whole.weightsAt p else set.weightsAt q := by
  rw [weigh, aware, hlevel, plain, Bool.not_true, if_neg Bool.false_ne_true]
  dsimp only
  rw [Bool.not_false, if_pos rfl, PrioritySet.weightsAt_setLocalityWeights,
    PrioritySet.weightsAt_of_level? hlevel]

/-- A subset that is made anew takes over the weights of all levels where it has hosts. -/
theorem weightsAt_fullSet_plain (aware : plan.settings.localityWeightAware = true)
    (plain : plan.settings.scaleLocalityWeight = false) {p : Nat}
    (hp : (fullSet plan t metadata whole).hostsAt p ≠ []) :
    (fullSet plan t metadata whole).weightsAt p = whole.weightsAt p := by
  revert p
  refine List.foldlRecOn (motive := fun set : PrioritySet =>
    ∀ {p : Nat}, set.hostsAt p ≠ [] → set.weightsAt p = whole.weightsAt p) _ _ ?_ ?_
  · exact fun {p} hp => absurd (PrioritySet.hostsAt_empty _ p) hp
  · intro set ih l hl q hq
    -- a level that was weighed before has its hosts and its weights still
    rw [updateSet, weightsAt_weigh_plain aware plain (PrioritySet.level?_of_mem hl)]
    rw [hostsAt_updateSet] at hq
    split
    next heq => rw [heq]
    next hne =>
      rw [if_neg hne] at hq
      rw [PrioritySet.weightsAt_updateHosts, ih hq]

/-- **What is left of a weight**: something, unless it fades. -/
theorem weighs_fullSet_iff (grown : whole.Grown) (weighted : whole.Weighted)
    (aware : plan.settings.localityWeightAware = true) {inPanic : Float → HostSet → Bool}
    (exact : plan.numerics = .exact inPanic) {p : Nat} {l : HostSet}
    (hlevel : (fullSet plan t metadata whole).level? p = some l) {h : Host} (hh : h ∈ l.hosts) :
    l.Weighs h.locality ↔
      ¬ Fades plan whole (fullSet plan t metadata whole) p h.locality := by
  have hmem : h ∈ (fullSet plan t metadata whole).hostsAt p :=
    PrioritySet.hostsAt_of_level? hlevel ▸ hh
  have hsome := List.ne_nil_of_mem hmem
  rw [hostsAt_fullSet] at hmem
  have hwhole := (List.mem_filter.1 hmem).1
  obtain ⟨weight, hweight, hpos⟩ := weighted p h hwhole
  have hconfigured := PrioritySet.weightsAt_of_level? hlevel
  rw [Fades, hweight, Option.getD_some]
  cases hscale : plan.settings.scaleLocalityWeight with
  | false =>
    rw [weightsAt_fullSet_plain aware hscale hsome] at hconfigured
    rw [HostSet.weighs_iff (hconfigured ▸ hweight)]
    simp [hpos]
  | true =>
    -- the host itself is counted, so there is a total
    have htotal : 0 < whole.countAt p h.locality :=
      List.length_pos_of_mem (List.mem_filter.2 ⟨hwhole, decide_eq_true rfl⟩)
    rw [(weighedBy_fullSet ⟨aware, hscale⟩ grown.grouped metadata).weights p hsome] at hconfigured
    have hget : l.configuredWeights.get? h.locality = some (nearestWeight weight
        ((fullSet plan t metadata whole).countAt p h.locality) (whole.countAt p h.locality)) := by
      rw [← hconfigured, SubsetPlan.scaled, SortedMap.get?_mapValues, hweight, exact]
      exact congrArg some (scaledWeight_rat _ _ _)
    rw [HostSet.weighs_iff hget, Nat.pos_iff_ne_zero, ne_eq, nearestWeight_eq_zero_iff htotal,
      and_iff_right rfl]

/-- **An active subset serves every request** that is routed to a host of a locality whose weight
does not fade, and no other request. -/
theorem choose_new_eq_none_iff (grown : whole.Grown) (weighted : whole.Weighted)
    (aware : plan.settings.localityWeightAware = true) {inPanic : Float → HostSet → Bool}
    (exact : plan.numerics = .exact inPanic) {settings : RingSettings}
    (ring : plan.strategy.policy = .ringHash settings) (valid : settings.problem? = none)
    (w : Workshop) (active : (new plan t metadata whole w).1.isActive = true) (t' : HostTable)
    (hash : Option UInt64) (state : PickState) :
    let subset := (new plan t metadata whole w).1
    let sent := (Pick.routingHash hash state).1
    let level := subset.set.routedTo (inPanic plan.strategy.panicThreshold) sent
    let hosts := subset.set.routed (inPanic plan.strategy.panicThreshold) sent
    let picked := (subset.choose t' hash state).1
    hosts ≠ [] ∧
      (∀ h, picked = some h → h ∈ hosts ∧ ¬ Fades plan whole subset.set level h.locality) ∧
      (picked = none ↔ ∀ h ∈ hosts, Fades plan whole subset.set level h.locality) := by
  intro subset sent level hosts picked
  have current : subset.set.Current t := current_new plan t metadata whole w
  have someone : subset.set.isEmpty = false := by
    rwa [isActive, Bool.not_eq_true'] at active
  have hpicked : picked =
      ((plan.strategy.build (.exact inPanic) t subset.set w).1.choose t' hash state).1 := by
    rw [← exact]
    rfl
  obtain ⟨l, p, hlevel, hhosts, hgiven, hnone⟩ := Balancer.choose_rings current someone ring valid
    inPanic t t' w hash state
  -- what the ring looks for, weights that are left, is told by the weights of the whole
  have weighs (h : Host) (hh : h ∈ hosts) :
      l.Weighs h.locality ↔ ¬ Fades plan whole subset.set level h.locality :=
    weighs_fullSet_iff grown weighted aware exact hlevel
      ((current.levels _ l hlevel).matchesHealth.sound.mem_hosts
        (Eq.mp (congrArg (h ∈ ·) hhosts) hh))
  refine ⟨PrioritySet.routed_ne_nil someone, fun h hgive => ?_, ?_⟩
  · obtain ⟨hh, hweighs⟩ := hgiven h (hpicked.symm.trans hgive)
    exact ⟨hh, (weighs h hh).1 hweighs⟩
  · rw [hpicked, hnone]
    exact forall₂_congr fun h hh => (not_congr (weighs h hh)).trans not_not

/-! ### A third of a weight -/

section Thirds

def ofStage (id : Nat) (address stage : String) : Host :=
  { id, address, locality := default, metadata := .ofList [("stage", .text stage)] }

/-- One of three hosts has a stage for itself, and their locality has a weight. -/
def threeHosts (weight : Nat) : PrioritySet :=
  ((PrioritySet.empty 140).updateHosts .empty 0
    [ofStage 0 "a" "prod", ofStage 1 "b" "dev", ofStage 2 "c" "dev"] []).setLocalityWeights 0
      (.ofList [(default, weight)])

theorem grown_threeHosts (weight : Nat) : (threeHosts weight).Grown :=
  ((PrioritySet.grown_empty 140).updateHosts (HostSet.lasting_run .empty) 0 _ []).setLocalityWeights
    (HostSet.lasting_run .empty) 0 trivial

theorem weighted_threeHosts {weight : Nat} (hpos : 0 < weight) : (threeHosts weight).Weighted := by
  intro p h hh
  cases p with
  | zero =>
    have hlocality : h.locality = default := by
      have hhosts : ∀ h ∈ (threeHosts weight).hostsAt 0, h.locality = default := by
        rw [threeHosts, PrioritySet.hostsAt_setLocalityWeights]
        decide +kernel
      exact hhosts h hh
    rw [hlocality]
    exact ⟨weight, rfl, hpos⟩
  | succ p => cases hh

/-- Weights are scaled, and hosts are picked by rings of the usual size. -/
def ringPlan : SubsetPlan where
  settings :=
    { selectors := [⟨.ofKeys ["stage"], .none⟩]
      fallback := .none
      localityWeightAware := true
      scaleLocalityWeight := true
      panicModeAny := false
      listAsAny := false }
  strategy := ⟨.ringHash .standard, 50⟩
  numerics := .exact fun _ _ => false

def prodSubset (weight : Nat) : HostSubset :=
  (new ringPlan .empty [("stage", .text "prod")] (threeHosts weight) .new).1

/-- A third of two is rounded up to one, and the host serves. -/
theorem choose_prodSubset_two :
    (threeHosts 2).Grown ∧ (threeHosts 2).Weighted ∧ (prodSubset 2).isActive = true ∧
      ((prodSubset 2).choose .empty (some 7) (.start fun _ => 0)).1 =
        some (ofStage 0 "a" "prod") := by
  have weighted := weighted_threeHosts Nat.two_pos
  have active : (prodSubset 2).isActive = true := by decide +kernel
  obtain ⟨-, hgiven, hnone⟩ := @choose_new_eq_none_iff ringPlan (threeHosts 2) .empty
    [("stage", .text "prod")] (grown_threeHosts 2) weighted rfl _ rfl _ rfl (by decide) .new active
    .empty (some 7) (.start fun _ => 0)
  have hosts : (prodSubset 2).set.routed (fun _ => false) 7 = [ofStage 0 "a" "prod"] := by
    decide +kernel
  refine ⟨grown_threeHosts 2, weighted, active, ?_⟩
  cases hpicked : ((prodSubset 2).choose .empty (some 7) (.start fun _ => 0)).1 with
  | none =>
    have fades := hnone.1 hpicked (ofStage 0 "a" "prod") (hosts ▸ List.mem_singleton_self _)
    exact absurd fades.2 (by decide +kernel)
  | some h =>
    have hmem := (hgiven h hpicked).1
    rw [List.mem_singleton.1 (hosts ▸ hmem : h ∈ [ofStage 0 "a" "prod"])]

/-- A third of one is rounded to nothing, and nobody serves, although the subset has a host. -/
theorem not_served_prodSubset_one :
    ¬ ∀ (plan : SubsetPlan) (whole : PrioritySet) (t : HostTable) (metadata : Tuple)
      (inPanic : Float → HostSet → Bool) (settings : RingSettings) (w : Workshop),
      whole.Grown → whole.Weighted → plan.settings.localityWeightAware = true →
        plan.numerics = .exact inPanic → plan.strategy.policy = .ringHash settings →
        settings.problem? = none → (new plan t metadata whole w).1.isActive = true →
        ∀ t' hash state, ((new plan t metadata whole w).1.choose t' hash state).1 ≠ none := by
  intro served
  exact served ringPlan (threeHosts 1) .empty [("stage", .text "prod")] (fun _ _ => false)
    .standard .new (grown_threeHosts 1) (weighted_threeHosts Nat.one_pos) rfl rfl rfl (by decide)
    (by decide +kernel) .empty (some 7) (.start fun _ => 0) (by decide +kernel)

end Thirds

end HostSubset

end LoadBalancing
