/-
A request is served from the one partition that it is routed to.

The load table sends a request to a level, for its healthy or for its degraded hosts. What is
asked for a host is the piece that was built from that partition, or the piece that was built
from the whole level if the level panics; there is no other piece for the request, so nobody
else can be given (`Balancer.serves_routed`). That somebody is given comes from
`PriorityState.exists_choose_compute`: a share of traffic only goes where there are hosts for
it.
-/
import LoadBalancing.Proofs.Balancer.Serves
import LoadBalancing.Proofs.HostSet.Partitions

set_option autoImplicit false

namespace LoadBalancing

namespace PrioritySet

variable {s : PrioritySet}

theorem sound_of_matchesHealth (rebuilt : ∀ l ∈ s.levels, ∃ t, l.MatchesHealth t) : s.Sound := by
  refine ⟨fun p l hl => ?_, fun p => HostSet.sound_empty p s.overprovisioning⟩
  obtain ⟨t, matched⟩ := rebuilt l (List.mem_of_getElem? hl)
  exact matched.sound

theorem hosts_ne_nil_iff : s.hosts ≠ [] ↔ ∃ l ∈ s.levels, l.hosts ≠ [] := by
  rw [hosts, ne_eq, List.flatMap_eq_nil_iff]
  simp only [Classical.not_forall, exists_prop, ne_eq]

end PrioritySet

namespace Balancer

/-- **No host is lost, and only the routed partition is used.** A balancer gives a host if and
only if some level has one. The host is at the level that the load table chooses for the hash
of the request: any host of the level if it panics, or else one from the partition that was
chosen. The partitions may be out of date, each by the health that the hosts had when it was
computed. This goes for every policy but the ring, for whatever counts as panic, and in every
state of turns and random draws. -/
theorem choose_routed {s : PrioritySet} (rebuilt : ∀ l ∈ s.levels, ∃ t, l.MatchesHealth t)
    {strategy : Strategy} (noRing : ∀ settings, strategy.policy ≠ .ringHash settings)
    (n : Numerics) (t t' : HostTable) (w : Workshop) (hash : Option UInt64) (state : PickState) :
    let levels := PriorityState.compute s (n.inPanic strategy.panicThreshold)
    let chosen := levels.choose (Pick.routingHash hash state).1
    let picked := ((strategy.build n t s w).1.choose t' hash state).1
    (picked.isSome = true ↔ ∃ l ∈ s.levels, l.hosts ≠ []) ∧
      ∀ h, picked = some h → ∃ l, s.level? chosen.1 = some l ∧
        h ∈ l.partition (if levels.isPanic chosen.1 then .all else chosen.2.partition) := by
  dsimp only
  have serves := serves_routed s noRing n t t' w (Pick.routingHash hash state).1
    (Pick.routingHash hash state).2
  rw [← choose_eq_choose_some] at serves
  rw [← PrioritySet.hosts_ne_nil_iff]
  cases hpicked : ((strategy.build n t s w).1.choose t' hash state).1 with
  | none =>
    rw [hpicked] at serves
    have nobody := PrioritySet.hosts_eq_nil_of_routed serves
    exact ⟨⟨fun hsome => (Bool.false_ne_true hsome).elim, fun h => absurd nobody h⟩,
      fun h hsome => nomatch hsome⟩
  | some host =>
    rw [hpicked] at serves
    -- partitions may be out of date, but nobody is in them who is not at the level
    have somebody := PrioritySet.mem_hosts_of_mem_routed
      (PrioritySet.sound_of_matchesHealth rebuilt) serves
    refine ⟨⟨fun _ => List.ne_nil_of_mem somebody, fun _ => rfl⟩, fun h hsome => ?_⟩
    cases hsome
    exact PrioritySet.mem_routed serves

/-! ### Traffic for degraded hosts -/

section Ailing

def ailing (id : Nat) (address : String) : Host :=
  { id, address, locality := default, metadata := ∅ }

/-- Of two hosts one is degraded and one is down, of four others all but one are down. -/
def ailingTable : HostTable :=
  let down := { HostState.new 1 with flags := .ofHealth .unhealthy }
  ⟨#[down, { down with flags := .ofHealth .degraded }, .new 1, down, down, down]⟩

def ailingSet : PrioritySet :=
  ((PrioritySet.empty 140).updateHosts ailingTable 0 [ailing 0 "a", ailing 1 "b"] []).updateHosts
    ailingTable 1 [ailing 2 "c", ailing 3 "d", ailing 4 "e", ailing 5 "f"] []

def ailingStrategy : Strategy := ⟨.leastRequest 2, 50⟩

/-- The one healthy host takes a third of the traffic. A request beyond that goes to the host
that is degraded, also after all are healthy again. -/
theorem choose_routed_ailingSet :
    ((ailingStrategy.build (.exact fun _ _ => false) ailingTable ailingSet .new).1.choose .empty
      none (.start fun _ => 99)).1 = some (ailing 1 "b") := by
  have computed : ∀ l ∈ ailingSet.levels, l.rebuild ailingTable = l := by decide +kernel
  have rebuilt : ∀ l ∈ ailingSet.levels, ∃ t, l.MatchesHealth t :=
    fun l hl => ⟨ailingTable, HostSet.Current.matchesHealth (computed l hl)⟩
  have noRing : ∀ settings, ailingStrategy.policy ≠ .ringHash settings := by
    intro settings h
    cases h
  obtain ⟨hsome, hfrom⟩ := choose_routed rebuilt noRing (.exact fun _ _ => false) ailingTable
    .empty .new none (.start fun _ => 99)
  obtain ⟨host, hhost⟩ := Option.isSome_iff_exists.1 (hsome.2 (by decide +kernel))
  obtain ⟨l, hl, hmem⟩ := hfrom host hhost
  -- the healthy third ends before the last point, which belongs to the degraded part
  have hchosen : (PriorityState.compute ailingSet fun _ => false).choose 99 = (0, .degraded) := by
    decide +kernel
  have hpanic : (PriorityState.compute ailingSet fun _ => false).isPanic 0 = false := by
    decide +kernel
  have hdegraded : ∀ l ∈ ailingSet.level? 0, ∀ h ∈ l.degraded, h = ailing 1 "b" := by
    decide +kernel
  rw [show (Pick.routingHash none (.start fun _ => 99)).1 = 99 from rfl,
    show (Numerics.exact fun _ _ => false).inPanic ailingStrategy.panicThreshold =
      fun _ => false from rfl, hchosen] at hl hmem
  rw [hpanic] at hmem
  rw [hhost, hdegraded l hl host hmem]

end Ailing

end Balancer

end LoadBalancing
