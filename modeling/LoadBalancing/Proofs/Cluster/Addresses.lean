/-
When an address names one host of a cluster, after any run.

The address of a host is its identity: hosts are looked up, compared, replaced and removed
by it. That no address occurs twice is seen to in two places only. A configuration is turned
down if it repeats an address, and a host that comes to a level takes the place of the one
at its address there. So two hosts may come to share an address in the ways that are left:
a delta names an address twice, a delta adds an address that is at another level, or a list
of hosts repeats an address that has to come anew (`Operation.KeepsApart`). These are all
the ways. The theorem says so for every operation, and for every run by induction.
-/
import LoadBalancing.Proofs.Cluster.Subsets
import LoadBalancing.Proofs.Config.Validation
import Mathlib.Data.List.Induction

set_option autoImplicit false

namespace LoadBalancing

namespace PrioritySet

/-! ## No address twice -/

/-- No address occurs twice, neither at one level nor at two. -/
def Distinct (s : PrioritySet) : Prop :=
  (s.hosts.map (·.address)).Nodup

instance (s : PrioritySet) : Decidable s.Distinct :=
  inferInstanceAs (Decidable (List.Nodup _))

variable {s before after : PrioritySet}

/-- Each level for itself, and the levels among each other. -/
theorem distinct_iff : s.Distinct ↔ s.LevelsDistinct ∧ s.OneLevel := by
  rw [Distinct, hosts, List.map_flatMap, List.nodup_flatMap]
  -- a level that is missing has nobody, so all levels are the levels that there are
  refine and_congr ⟨fun h p => ?_, fun h l hl => ?_⟩ ?_
  · cases hl : s.level? p with
    | none =>
      rw [hostsAt, hl]
      exact List.nodup_nil
    | some l =>
      rw [hostsAt_of_level? hl]
      exact h l (List.mem_of_getElem? hl)
  · obtain ⟨p, hp⟩ := List.getElem?_of_mem hl
    rw [← hostsAt_of_level? hp]
    exact h p
  · rw [List.pairwise_iff_getElem]
    constructor
    · intro apart p q h h' hh hh' heq
      obtain ⟨l, hp, hl⟩ := exists_level_of_mem_hostsAt hh
      obtain ⟨l', hq, hl'⟩ := exists_level_of_mem_hostsAt hh'
      obtain ⟨hp', rfl⟩ := List.getElem?_eq_some_iff.1 hp
      obtain ⟨hq', rfl⟩ := List.getElem?_eq_some_iff.1 hq
      have hin := List.mem_map_of_mem (f := Host.address) hl
      have hin' := List.mem_map_of_mem (f := Host.address) hl'
      -- the levels are compared in pairs, the lower one first
      rcases Nat.lt_trichotomy p q with hlt | heq' | hgt
      · exact (apart p q hp' hq' hlt hin (heq ▸ hin')).elim
      · exact heq'
      · exact (apart q p hq' hp' hgt hin' (heq ▸ hin)).elim
    · intro oneLevel p q hp hq hlt address hin hin'
      obtain ⟨h, hh, rfl⟩ := List.mem_map.1 hin
      obtain ⟨h', hh', heq⟩ := List.mem_map.1 hin'
      have hp' := hostsAt_of_level? (List.getElem?_eq_getElem hp)
      have hq' := hostsAt_of_level? (List.getElem?_eq_getElem hq)
      exact absurd (oneLevel p q h h' (hp' ▸ hh) (hq' ▸ hh') heq.symm) (Nat.ne_of_lt hlt)

theorem Distinct.levels (h : s.Distinct) : s.LevelsDistinct := (distinct_iff.1 h).1

theorem Distinct.oneLevel (h : s.Distinct) : s.OneLevel := (distinct_iff.1 h).2

theorem distinct_congr (same : ∀ p, after.hostsAt p = before.hostsAt p) :
    after.Distinct ↔ before.Distinct := by
  simp only [distinct_iff, LevelsDistinct, OneLevel, same]

theorem distinct_of_nobody (nobody : ∀ p, s.hostsAt p = []) : s.Distinct := by
  refine distinct_iff.2 ⟨fun p => ?_, fun p q h h' hh => ?_⟩
  · rw [nobody]
    exact List.nodup_nil
  · rw [nobody] at hh
    cases hh

/-! ## Changes of some levels -/

/-- At every level some hosts come, and make those at their addresses leave there. Those
at the addresses of others leave as well. -/
def Changes (before after : PrioritySet) (come leave : Nat → List Host) : Prop :=
  ∀ p, after.hostsAt p =
    (before.hostsAt p).filter (fun h => !HostSet.isDropped (come p) (leave p) h) ++ come p

/-- Two hosts share an address afterwards if two of those who come do, at one level or at two,
or one of those who come and one who stays at another level. -/
theorem Changes.distinct_iff {come leave : Nat → List Host}
    (change : Changes before after come leave) (h : before.Distinct) :
    after.Distinct ↔
      (∀ p, ((come p).map (·.address)).Nodup) ∧
      (∀ p q a b, a ∈ come p → b ∈ come q → a.address = b.address → p = q) ∧
      ∀ p q a o, a ∈ come p → o ∈ before.hostsAt q →
        HostSet.isDropped (come q) (leave q) o = false → a.address ≠ o.address := by
  have comes {p : Nat} {a : Host} (ha : a ∈ come p) : a ∈ after.hostsAt p := by
    rw [change]
    exact List.mem_append_right _ ha
  have stays {q : Nat} {o : Host} (ho : o ∈ before.hostsAt q)
      (hstays : HostSet.isDropped (come q) (leave q) o = false) : o ∈ after.hostsAt q := by
    rw [change]
    refine List.mem_append_left _ (List.mem_filter.2 ⟨ho, ?_⟩)
    rw [hstays]
    rfl
  rw [PrioritySet.distinct_iff]
  constructor
  · rintro ⟨distinct, oneLevel⟩
    refine ⟨fun p => ?_, fun p q a b ha hb heq => oneLevel p q a b (comes ha) (comes hb) heq,
      fun p q a o ha ho hstays heq => ?_⟩
    · have hp := distinct p
      rw [change, List.map_append] at hp
      exact hp.of_append_right
    · -- they would have to be at one level, but there the one takes the place of the other
      obtain rfl := oneLevel p q a o (comes ha) (stays ho hstays) heq
      rw [HostSet.isDropped_iff.2 (.inr ⟨a, ha, heq⟩)] at hstays
      cases hstays
  · rintro ⟨distinct, oneLevel, apart⟩
    have apart' {p q : Nat} {a o : Host} (ha : a ∈ come p)
        (ho : o ∈ (before.hostsAt q).filter
          (fun h => !HostSet.isDropped (come q) (leave q) h)) : a.address ≠ o.address := by
      obtain ⟨hmem, hstays⟩ := List.mem_filter.1 ho
      exact apart p q a o ha hmem (Bool.not_eq_true' _ ▸ hstays)
    refine ⟨fun p => ?_, fun p q x y hx hy heq => ?_⟩
    · rw [change, List.map_append]
      refine ((h.levels p).sublist (List.filter_sublist.map _)).append (distinct p) ?_
      intro address hkept hadded
      obtain ⟨o, ho, rfl⟩ := List.mem_map.1 hkept
      obtain ⟨a, ha, heq⟩ := List.mem_map.1 hadded
      exact apart' ha ho heq
    · rw [change, List.mem_append] at hx hy
      rcases hx with hx | hx <;> rcases hy with hy | hy
      · exact h.oneLevel p q x y (List.mem_filter.1 hx).1 (List.mem_filter.1 hy).1 heq
      · exact absurd heq.symm (apart' hy hx)
      · exact absurd heq (apart' hx hy)
      · exact oneLevel p q x y hx hy heq

end PrioritySet

/-! ## Hosts with their levels -/

namespace LevelChange

/-- A list of hosts with their levels has no address twice if no level has one twice, and no
two levels have the same one. -/
theorem nodup_addresses_iff {placed : List (Nat × Host)} :
    (placed.map fun h => h.2.address).Nodup ↔
      (∀ p, ((atLevel p placed).map (·.address)).Nodup) ∧
      ∀ p q a b, a ∈ atLevel p placed → b ∈ atLevel q placed → a.address = b.address → p = q := by
  constructor
  · intro distinct
    refine ⟨nodup_atLevel distinct, fun p q a b ha hb heq => ?_⟩
    rw [mem_atLevel] at ha hb
    exact (Prod.mk.inj (List.inj_on_of_nodup_map distinct ha hb heq)).1
  · rintro ⟨distinct, oneLevel⟩
    induction placed with
    | nil => exact List.nodup_nil
    | cons first rest ih =>
      obtain ⟨p, a⟩ := first
      have tail (q : Nat) : (atLevel q rest).Sublist (atLevel q ((p, a) :: rest)) :=
        ((List.sublist_cons_self _ _).filter _).map _
      rw [List.map_cons, List.nodup_cons]
      refine ⟨fun hmem => ?_, ih (fun q => (distinct q).sublist ((tail q).map _))
        fun q r b d hb hd => oneLevel q r b d ((tail q).subset hb) ((tail r).subset hd)⟩
      -- one more host at the address of the first one would be at its level, and there is none
      obtain ⟨⟨q, b⟩, hb, heq⟩ := List.mem_map.1 hmem
      obtain rfl : p = q := oneLevel p q a b (mem_atLevel.2 List.mem_cons_self)
        (mem_atLevel.2 (List.mem_cons_of_mem _ hb)) heq.symm
      have hfirst : atLevel p ((p, a) :: rest) = a :: atLevel p rest := by
        simp [atLevel]
      have hp := distinct p
      rw [hfirst, List.map_cons, List.nodup_cons] at hp
      exact hp.1 (List.mem_map.2 ⟨b, mem_atLevel.2 hb, heq⟩)

/-- What is gathered by level happens at each level, also at those that do not come up. -/
theorem CarriedOut.foldl_gather {σ : Type} {hostsAt : σ → Nat → List Host}
    {carry : σ → LevelChange → σ} (carried : CarriedOut hostsAt carry)
    (added removed : List (Nat × Host)) (s : σ) (p : Nat) :
    hostsAt ((gather added removed).foldl carry s) p =
      (hostsAt s p).filter
          (fun h => !HostSet.isDropped (atLevel p added) (atLevel p removed) h) ++
        atLevel p added := by
  by_cases hp : p ∈ (gather added removed).map (·.priority)
  · obtain ⟨change, hchange, rfl⟩ := List.mem_map.1 hp
    rw [carried.foldl_of_mem (nodup_gather added removed) hchange]
    obtain ⟨q, -, rfl⟩ := List.mem_map.1 hchange
    rfl
  · -- at a level that does not come up nobody comes and nobody goes
    have nobody {hosts : List (Nat × Host)} (hsub : hosts ⊆ added ++ removed) :
        atLevel p hosts = [] := by
      rw [List.eq_nil_iff_forall_not_mem]
      intro h hh
      rw [mem_levels_gather] at hp
      exact hp (List.mem_map.2 ⟨(p, h), hsub (mem_atLevel.1 hh), rfl⟩)
    have come := nobody (List.subset_append_left added removed)
    have leave := nobody (List.subset_append_right added removed)
    rw [carried.foldl_of_not_mem hp, come, leave, HostSet.filter_isDropped_nil, List.append_nil]

end LevelChange

/-! ## The way to a list of hosts -/

namespace MembershipChange

/-- The hosts that come on the way to a list of hosts, with their levels. -/
def arrivals (t : HostTable) (s : PrioritySet) (desired : List HostConfig) : List (Nat × Host) :=
  let arriving := desired.filter fun d => (d.kept? s).isNone
  (arriving.map (·.priority)).zip (t.enrollAll arriving).1

/-- The hosts that leave on the way to it, with their levels. -/
def departures (s : PrioritySet) (desired : List HostConfig) : List (Nat × Host) :=
  unwanted s desired ++
    (desired.filter fun d => (d.kept? s).isNone).filterMap fun d => s.find? d.address

/-- The way to a list of hosts leaves no address twice if none of those that have to come is
named twice: whoever is at one of their addresses leaves, from whatever level. -/
theorem distinct_of_changes_iff {t : HostTable} {s after : PrioritySet}
    {desired : List HostConfig}
    (change : PrioritySet.Changes s after (LevelChange.atLevel · (arrivals t s desired))
      (LevelChange.atLevel · (departures s desired))) (h : s.Distinct) :
    after.Distinct ↔
      ((desired.filter fun d => (d.kept? s).isNone).map (·.address)).Nodup := by
  rw [change.distinct_iff h, ← HostTable.addresses_zip_enrollAll t, ← arrivals,
    LevelChange.nodup_addresses_iff]
  constructor
  · rintro ⟨distinct, oneLevel, -⟩
    exact ⟨distinct, oneLevel⟩
  · rintro ⟨distinct, oneLevel⟩
    refine ⟨distinct, oneLevel, fun p q a o ha ho hstays heq => ?_⟩
    rw [LevelChange.mem_atLevel] at ha
    obtain ⟨config, hconfig, -, haddress, -⟩ := HostTable.exists_of_mem_zip_enrollAll ha
    -- the old host at the address is found, and leaves
    have hfind := h.oneLevel.find?_address h.levels ho
    rw [← heq, haddress] at hfind
    have leaves : o ∈ LevelChange.atLevel q (departures s desired) :=
      LevelChange.mem_atLevel.2
        (List.mem_append_right _ (List.mem_filterMap.2 ⟨config, hconfig, hfind⟩))
    rw [HostSet.isDropped_iff.2 (.inl ⟨o, leaves, rfl⟩)] at hstays
    cases hstays

end MembershipChange

namespace Cluster

open PrioritySet (Changes)

variable {c c' : Cluster}

/-! ## Membership changes -/

/-- What is gathered by level happens at each level, also at those that do not come up. -/
theorem changes_gather (c : Cluster) (now : Nat) (added removed : List (Nat × Host))
    (weights : List (Host × Nat)) :
    Changes c.set (c.applyChange now ⟨LevelChange.gather added removed, weights⟩).set
      (LevelChange.atLevel · added) (LevelChange.atLevel · removed) := by
  intro p
  rw [set_applyChange, carriedOut_applyLevel.foldl_gather, set_informChecker]

/-- What discovery says happens at one level. -/
theorem changes_changeMembership (c : Cluster) (now priority : Nat) (added : List Host)
    (removed : List String) :
    Changes c.set (c.changeMembership now priority added removed).set
      (fun p => if p = priority then added else [])
      (fun p => if p = priority then
        (LevelChange.ofAddresses c.set priority added removed).removed else []) := by
  intro p
  show (c.applyChange now _).set.hostsAt p = _
  rw [set_applyChange, List.foldl_cons, List.foldl_nil, hostsAt_applyLevel, set_informChecker]
  show (if p = priority then _ else _) = _
  by_cases hp : p = priority
  · simp only [if_pos hp]
    rfl
  · simp only [if_neg hp]
    rw [HostSet.filter_isDropped_nil, List.append_nil]

/-- A delta of discovery leaves no address twice if it names none twice, and none that is at
another level. -/
theorem distinct_changeMembership_iff (h : c.set.Distinct) (now priority : Nat) (added : List Host)
    (removed : List String) :
    (c.changeMembership now priority added removed).set.Distinct ↔
      (added.map (·.address)).Nodup ∧
        ∀ a ∈ added, ∀ found ∈ c.set.find? a.address, found.1 = priority := by
  have comes {p : Nat} {a : Host} (ha : a ∈ if p = priority then added else []) :
      p = priority ∧ a ∈ added := by
    split at ha
    next hp => exact ⟨hp, ha⟩
    next => cases ha
  rw [(changes_changeMembership c now priority added removed).distinct_iff h]
  constructor
  · rintro ⟨distinct, -, apart⟩
    refine ⟨by simpa using distinct priority, fun a ha ⟨q, o⟩ hfind => ?_⟩
    by_contra hq
    obtain ⟨ho, heq⟩ := PrioritySet.find?_eq_some hfind
    refine apart priority q a o (by rwa [if_pos rfl]) ho ?_ heq.symm
    -- at another level nobody comes or goes
    rw [if_neg hq, if_neg hq]
    rfl
  · rintro ⟨distinct, oneLevel⟩
    refine ⟨fun p => ?_, fun p q a b ha hb _ => (comes ha).1.trans (comes hb).1.symm,
      fun p q a o ha ho hstays heq => ?_⟩
    · split
      · exact distinct
      · exact List.nodup_nil
    · obtain ⟨rfl, hadded⟩ := comes ha
      have hfind := h.oneLevel.find?_address h.levels ho
      obtain rfl : q = p := oneLevel a hadded (q, o) (heq ▸ hfind)
      rw [HostSet.isDropped_iff.2 (.inr ⟨a, ha, heq⟩)] at hstays
      cases hstays

theorem distinct_reach_iff (h : c.set.Distinct) (now : Nat) (desired : List HostConfig) :
    (c.reach now desired).set.Distinct ↔
      ((desired.filter fun d => (d.kept? c.set).isNone).map (·.address)).Nodup :=
  MembershipChange.distinct_of_changes_iff (t := c.hosts)
    (changes_gather { c with hosts := (MembershipChange.toReach c.hosts c.set desired).2 } now _ _
      _) h

/-! ## Configurations -/

/-- **A configuration**, taken or not, leaves no address twice. Its hosts were checked before. -/
theorem Configured.distinct (h : c.set.Distinct) {now : Nat} {config : ClusterConfig}
    {result : Except ConfigError Unit} (configured : c.Configured now config result c') :
    c'.set.Distinct := by
  cases configured with
  | turnedDown => exact h
  | @taken checker weighed balancing prepared adopted built =>
    obtain ⟨_, hvalid, -⟩ := Except.bind_eq_ok.1 prepared
    show (weighed.adoptHosts now config).set.Distinct
    rw [adoptHosts, PrioritySet.distinct_congr (PrioritySet.hostsAt_refreshHealth _),
      distinct_reach_iff]
    · exact (ClusterConfig.nodup_of_validate hvalid).sublist (List.filter_sublist.map _)
    · rwa [PrioritySet.distinct_congr (hostsAt_adoptWeights? _ adopted), set_adoptChecker]

/-- A new cluster has no address twice. -/
theorem distinct_new {config : ClusterConfig} {transports : List ProbeKind} {numerics : Numerics}
    {now : Nat} (h : Cluster.new config transports numerics now = .ok (.ok c)) :
    c.set.Distinct := by
  obtain ⟨opening, isOpening, rfl⟩ := exists_opening h
  exact (distinct_reach_iff (PrioritySet.distinct_of_nobody isOpening.nobody) now config.hosts).2
    ((ClusterConfig.nodup_of_validate isOpening.valid).sublist (List.filter_sublist.map _))

/-! ## Operations -/

/-- What it takes for an operation to leave no address twice. A delta names no address twice
and none that is at another level; a list of hosts names none twice that has to come anew. -/
def Operation.KeepsApart (c : Cluster) : Operation → Prop
  | .membership _ priority added _ =>
    (added.map (·.address)).Nodup ∧
      ∀ a ∈ added, ∀ found ∈ c.set.find? a.address, found.1 = priority
  | .hosts _ desired => ((desired.filter fun d => (d.kept? c.set).isNone).map (·.address)).Nodup
  | _ => True

instance (c : Cluster) : (operation : Operation) → Decidable (operation.KeepsApart c)
  | .membership .. => inferInstanceAs (Decidable (_ ∧ _))
  | .hosts .. => inferInstanceAs (Decidable (List.Nodup _))
  | .config .. | .hostWeight .. | .localityWeights .. | .timers .. | .result .. | .transitions ..
  | .outside .. => .isTrue trivial

/-- A list that changes nothing need not be carried out. -/
theorem hostsAt_setHosts (c : Cluster) (now : Nat) (desired : List HostConfig) (p : Nat) :
    (c.setHosts now desired).set.hostsAt p = (c.reach now desired).set.hostsAt p := by
  rw [setHosts, reach]
  dsimp only
  split
  next hempty =>
    rw [MembershipChange.isEmpty, Bool.and_eq_true] at hempty
    rw [set_applyChange, applyLevels_of_isEmpty _ hempty.1, set_informChecker]
  next => rfl

/-- **One operation** on a cluster that has no address twice. -/
theorem distinct_perform_iff (h : c.set.Distinct) {operation : Operation}
    (done : c.perform operation = .ok c') : c'.set.Distinct ↔ operation.KeepsApart c := by
  -- most operations move no host
  have quiet (same : ∀ p, c'.set.hostsAt p = c.set.hostsAt p) : c'.set.Distinct ↔ True :=
    iff_of_true ((PrioritySet.distinct_congr same).2 h) trivial
  cases operation with
  | membership now priority added removed =>
    cases done
    exact distinct_changeMembership_iff h now priority added removed
  | hosts now desired =>
    cases done
    rw [PrioritySet.distinct_congr (hostsAt_setHosts c now desired)]
    exact distinct_reach_iff h now desired
  | config now config =>
    obtain ⟨result, configured⟩ := configured_of_perform done
    exact iff_of_true (configured.distinct h) trivial
  | hostWeight address weight =>
    cases done
    exact quiet (hostsAt_setHostWeight c address weight)
  | localityWeights priority weights =>
    cases done
    exact quiet (hostsAt_setLocalityWeights c priority weights)
  | timers now jitter => exact quiet (heard_timers done).hostsAt
  | result now jitter asker key probe result => exact quiet (heard_deliver done).hostsAt
  | transitions changed =>
    cases done
    exact quiet (hostsAt_noteTransitions c changed)
  | outside hosts =>
    cases done
    exact quiet fun _ => rfl

/-- What overflows brings no hosts, or only hosts whose addresses were checked before. -/
theorem keepsApart_of_overflow {operation : Operation} {overflow : Overflow}
    (h : c.perform operation = .error overflow) : operation.KeepsApart c := by
  cases operation with
  | membership | hosts => cases h
  | _ => trivial

/-! ## Whole runs -/

/-- **An address names one host** of a cluster, all through a run, if and only if every
operation of the run keeps the addresses apart. -/
theorem distinct_after_iff {config : ClusterConfig} {transports : List ProbeKind}
    {numerics : Numerics} {now : Nat}
    (start : Cluster.new config transports numerics now = .ok (.ok c))
    (operations : List Operation) :
    (∀ done c', done <+: operations → c.after done = .ok c' → c'.set.Distinct) ↔
      ∀ done next c', done ++ [next] <+: operations → c.after done = .ok c' →
        next.KeepsApart c' := by
  have reached {done : List Operation} {next : Operation} {c' c'' : Cluster}
      (before : c.after done = .ok c') (step : c'.perform next = .ok c'') :
      c.after (done ++ [next]) = .ok c'' := by
    rw [after_append, before]
    show c'.perform next >>= _ = _
    rw [step]
    rfl
  constructor
  · intro distinct done next c' hprefix before
    have hdone := distinct done c' ((List.prefix_append done [next]).trans hprefix) before
    cases step : c'.perform next with
    | error overflow => exact keepsApart_of_overflow step
    | ok c'' =>
      rw [← distinct_perform_iff hdone step]
      exact distinct (done ++ [next]) c'' hprefix (reached before step)
  · intro apart done
    -- by induction on what is done, the last operation last
    induction done using List.reverseRecOn with
    | nil =>
      rintro c' - ⟨⟩
      exact distinct_new start
    | append_singleton done next ih =>
      intro c'' hprefix after
      rw [after_append] at after
      obtain ⟨c', before, after⟩ := Except.bind_eq_ok.1 after
      obtain ⟨_, step, after⟩ := Except.bind_eq_ok.1 after
      cases after
      have hdone := ih c' ((List.prefix_append done [next]).trans hprefix) before
      exact (distinct_perform_iff hdone step).2 (apart done next c' hprefix before)

/-! ### Two hosts at one address -/

section Solo

/-- A plain host, as configured. -/
def plain (address : String) : HostConfig :=
  { address, weight := 1, priority := 0, locality := default, metadata := ∅ }

/-- A plain host, as discovery brings it. -/
def discovered (id : Nat) (address : String) : Host :=
  { id, address, locality := default, metadata := ∅ }

def soloConfig : ClusterConfig :=
  { ClusterConfig.standard with hosts := [plain "a"] }

def soloCluster : Cluster :=
  ((Cluster.new soloConfig [] .float 0).toOption.bind Except.toOption).get (by decide +kernel)

/-- The host is replaced, and another one comes to another level. -/
def replacement : List Operation :=
  [.membership 0 0 [discovered 1 "a"] [], .membership 0 1 [discovered 2 "b"] []]

theorem distinct_after_replacement :
    (∀ done c', done <+: replacement → soloCluster.after done = .ok c' → c'.set.Distinct) ∧
      ∃ c', soloCluster.after replacement = .ok c' ∧
        c'.set.hosts = [discovered 1 "a", discovered 2 "b"] := by
  refine ⟨(distinct_after_iff (Except.eq_ok_ok_get _) replacement).2
    fun done next c' hprefix before => ?_, _, rfl, by decide +kernel⟩
  rcases done with - | ⟨first, - | ⟨second, rest⟩⟩
  · obtain rfl : next = .membership 0 0 [discovered 1 "a"] [] := by
      simpa [replacement] using hprefix
    cases before
    decide +kernel
  · obtain ⟨rfl, rfl⟩ : first = .membership 0 0 [discovered 1 "a"] [] ∧
        next = .membership 0 1 [discovered 2 "b"] [] := by
      simpa [replacement] using hprefix
    cases before
    decide +kernel
  · exact absurd hprefix.length_le (by simp [replacement])

/-- A delta that names the address twice, a delta that adds it at another level, and a list
that names a new address twice: each of them leaves two hosts at one address. -/
theorem not_distinct_after_twice :
    Cluster.new soloConfig [] .float 0 = .ok (.ok soloCluster) ∧
    (∃ c', soloCluster.after [.membership 0 0 [discovered 1 "a", discovered 2 "a"] []] = .ok c' ∧
      ¬ c'.set.Distinct) ∧
    (∃ c', soloCluster.after [.membership 0 1 [discovered 1 "a"] []] = .ok c' ∧
      ¬ c'.set.Distinct) ∧
    ∃ c', soloCluster.after [.hosts 0 [plain "a", plain "b", plain "b"]] = .ok c' ∧
      ¬ c'.set.Distinct :=
  ⟨Except.eq_ok_ok_get _, ⟨_, rfl, by decide +kernel⟩, ⟨_, rfl, by decide +kernel⟩, _, rfl,
    by decide +kernel⟩

end Solo

end Cluster

end LoadBalancing
