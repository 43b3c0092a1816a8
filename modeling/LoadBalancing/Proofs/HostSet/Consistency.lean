/-
All that is derived from the hosts of a level, after any calls.

A level keeps six lists beside its hosts, and weights that are aligned with one of them. Hosts
come and go, weights are set, and health changes on its own at any time. What is derived goes by
the hosts and weights as they are, and by the health that the hosts had when the partitions were
last computed; so a run of calls is told together with the host table of that time
(`HostSet.Run`). Each call leaves the partitions current for it (`HostSet.Current.carryOut`), and
current partitions agree with the hosts and with each other (`HostSet.Current.consistentParts`).

Groups are computed locality by locality. Putting one host after the other at the end of its
group gives the same groups (`ByLocality.groups_ofHosts`).
-/
import LoadBalancing.Proofs.HostSet.Localities
import LoadBalancing.Proofs.HostSet.Partitions
import Mathlib.Data.List.Basic
import Mathlib.Data.List.Induction

set_option autoImplicit false

namespace LoadBalancing

/-! ## Groups -/

namespace ByLocality

variable {hosts : List Host} {l : Locality}

theorem localities_ofHosts (hosts : List Host) :
    (ofHosts hosts).localities = (SortedMap.ofList (hosts.map fun h => (h.locality, ()))).keys := by
  rw [localities, ofHosts, List.map_map, Function.comp_def, List.map_id']

theorem mem_localities_ofHosts : l ∈ (ofHosts hosts).localities ↔ ∃ h ∈ hosts, h.locality = l := by
  rw [localities_ofHosts, SortedMap.mem_keys_ofList]
  simp

/-- Localities are listed in increasing order, hence once each. -/
theorem increasing_ofHosts (hosts : List Host) :
    (ofHosts hosts).localities.Pairwise fun a b => compare a b = .lt :=
  localities_ofHosts hosts ▸ SortedMap.increasing_keys _

theorem nodup_ofHosts (hosts : List Host) : (ofHosts hosts).localities.Nodup :=
  localities_ofHosts hosts ▸ SortedMap.nodup_keys _

/-- The part of a grouping that is kept, group by group, is what is kept of the hosts. -/
theorem groups_filter_ofHosts (hosts : List Host) (keep : Host → Bool) :
    ((ofHosts hosts).filter keep).groups =
      (ofHosts hosts).localities.map fun l =>
        (l, (hosts.filter keep).filter fun h => h.locality = l) := by
  simp only [filter, ofHosts, localities, List.map_map, Function.comp_def, List.filter_filter,
    Bool.and_comm]

/-- **Nobody is lost by grouping**, if all localities are listed, each of them once. -/
theorem flatMap_group_perm {localities : List Locality} (nodup : localities.Nodup)
    (listed : ∀ h ∈ hosts, h.locality ∈ localities) :
    (localities.flatMap fun l => hosts.filter fun h => h.locality = l).Perm hosts := by
  induction localities generalizing hosts with
  | nil =>
    have nobody : hosts = [] :=
      List.eq_nil_iff_forall_not_mem.2 fun h hh => List.not_mem_nil (listed h hh)
    rw [nobody]
    exact List.Perm.refl _
  | cons l rest ih =>
    obtain ⟨hnot, hrest⟩ := List.nodup_cons.1 nodup
    -- those elsewhere are grouped by the other localities
    have others : ∀ h ∈ hosts.filter fun h => !decide (h.locality = l), h.locality ∈ rest := by
      intro h hh
      obtain ⟨hmem, hne⟩ := List.mem_filter.1 hh
      exact (List.mem_cons.1 (listed h hmem)).resolve_left (by simpa using hne)
    have elsewhere := ih hrest others
    have same : ∀ l' ∈ rest, (hosts.filter fun h => !decide (h.locality = l)).filter
        (fun h => h.locality = l') = hosts.filter fun h => h.locality = l' := by
      intro l' hl'
      rw [List.filter_filter]
      apply List.filter_congr
      intro h _
      by_cases heq : h.locality = l'
      · have hne : ¬ l' = l := by
          rintro rfl
          exact hnot hl'
        simp [heq, hne]
      · simp [heq]
    rw [List.flatMap_congr same] at elsewhere
    rw [List.flatMap_cons]
    exact (List.Perm.append_left _ elsewhere).trans (List.filter_append_perm _ hosts)

/-! ### One host after the other -/

/-- The groups that come about when each host in turn is put at the end of the group of its
locality, which is begun where there is none. -/
def gather (hosts : List Host) : SortedMap Locality (List Host) :=
  hosts.foldl (fun groups h => groups.insert h.locality ((groups.get? h.locality).getD [] ++ [h])) ∅

theorem get?_gather (hosts : List Host) (l : Locality) :
    (gather hosts).get? l =
      if ∃ h ∈ hosts, h.locality = l then some (hosts.filter fun h => h.locality = l) else none := by
  induction hosts using List.reverseRecOn generalizing l with
  | nil => simp [gather]
  | append_singleton hosts last ih =>
    rw [gather, List.foldl_append, List.foldl_cons, List.foldl_nil, ← gather, SortedMap.get?_insert,
      ih, ih, List.filter_append]
    by_cases heq : l = last.locality
    · subst heq
      -- its group has those who were there before, if there are any
      have before : (if ∃ h ∈ hosts, h.locality = last.locality then
          some (hosts.filter fun h => h.locality = last.locality) else none).getD [] =
          hosts.filter fun h => h.locality = last.locality := by
        split
        · rfl
        next nobody =>
          rw [Option.getD_none, eq_comm, List.filter_eq_nil_iff]
          exact fun h hh heq => nobody ⟨h, hh, of_decide_eq_true heq⟩
      rw [if_pos rfl, before, if_pos ⟨last, by simp, rfl⟩]
      simp
    · have hne : ¬ last.locality = l := fun h => heq h.symm
      rw [if_neg heq]
      simp [hne, or_and_right, exists_or]

/-- **Groups can be gathered host by host.** -/
theorem groups_ofHosts (hosts : List Host) : (ofHosts hosts).groups = (gather hosts).entries := by
  have mapped : (ofHosts hosts).groups =
      ((SortedMap.ofList (hosts.map fun h => (h.locality, ()))).mapValues fun l _ =>
        hosts.filter fun h => h.locality = l).entries := by
    rw [ofHosts, SortedMap.keys, List.map_map, SortedMap.mapValues]
    rfl
  rw [mapped]
  -- two sorted maps are the same if every look-up is
  refine SortedMap.entries_eq_of_get? fun l => ?_
  rw [SortedMap.get?_mapValues, get?_gather]
  have listed := SortedMap.mem_keys_ofList (hosts.map fun h => (h.locality, ())) l
  rw [SortedMap.mem_keys_iff, List.map_map] at listed
  cases hfound : (SortedMap.ofList (hosts.map fun h => (h.locality, ()))).get? l with
  | none =>
    rw [hfound] at listed
    rw [if_neg (by simpa using listed), Option.map_none]
  | some found =>
    rw [hfound] at listed
    rw [if_pos (by simpa using listed), Option.map_some]

end ByLocality

/-! ## Calls of a level -/

namespace HostSet

/-- What can be asked of a level. -/
inductive Call where
  | update (added removed : List Host)
  | setLocalityWeights (weights : LocalityWeights)
  | refreshHealth

namespace Call

/-- The level after a call, with the health of the hosts as it is at that time. -/
def carryOut (now : HostTable) (s : HostSet) : Call → HostSet
  | .update added removed => s.update now added removed
  | .setLocalityWeights weights => s.setLocalityWeights weights
  | .refreshHealth => s.refreshHealth now

/-- Whether a call computes the partitions anew. -/
def rebuilds : Call → Bool
  | .update added removed => !(added.isEmpty && removed.isEmpty)
  | .setLocalityWeights _ => false
  | .refreshHealth => true

end Call

/-- A level after some calls, together with the host table of the time when its partitions were
last computed. Between two calls anything may happen to the hosts. -/
inductive Run : HostSet → HostTable → Prop where
  | start (priority overprovisioning : Nat) (t : HostTable) :
      Run (.empty priority overprovisioning) t
  | call {s : HostSet} {t : HostTable} (run : Run s t) (now : HostTable) (call : Call) :
      Run (call.carryOut now s) (if call.rebuilds then now else t)

variable {s : HostSet} {t : HostTable}

/-- **One call** leaves the partitions as they were computed last, or computes them now. -/
theorem Current.carryOut (current : s.Current t) (now : HostTable) (call : Call) :
    (call.carryOut now s).Current (if call.rebuilds then now else t) := by
  cases call with
  | update added removed =>
    by_cases hnothing : (added.isEmpty && removed.isEmpty) = true
    · rw [Call.rebuilds, hnothing, Call.carryOut, HostSet.update, if_pos hnothing]
      exact current
    · rw [Call.rebuilds, Bool.eq_false_iff.2 hnothing, Call.carryOut, HostSet.update,
        if_neg hnothing]
      exact current_rebuild _ now
  | setLocalityWeights weights => exact (lasting_current t).setLocalityWeights trivial current
  | refreshHealth => exact current_rebuild s now

theorem Run.current (run : Run s t) : s.Current t := by
  induction run with
  | start priority overprovisioning t => exact current_empty priority overprovisioning t
  | call _ now call ih => exact ih.carryOut now call

/-- Whatever happens to a level is one more call. -/
theorem lasting_run (t : HostTable) : Lasting (fun l => ∃ t, Run l t) t fun _ => True where
  update added removed := fun ⟨_, run⟩ => ⟨_, run.call t (.update added removed)⟩
  setLocalityWeights _ := fun ⟨_, run⟩ => ⟨_, run.call t (.setLocalityWeights _)⟩
  refreshHealth := fun ⟨_, run⟩ => ⟨_, run.call t .refreshHealth⟩

theorem Current.byLocality_eq (current : s.Current t) : s.byLocality = .ofHosts s.hosts :=
  (congrArg HostSet.byLocality current).symm

theorem Current.localityWeights_eq (current : s.Current t) : s.localityWeights =
    if s.configuredWeights.isEmpty then none
    else some ((ByLocality.ofHosts s.hosts).localities.map fun l =>
      (s.configuredWeights.get? l).getD 0) :=
  (congrArg HostSet.localityWeights current).symm

end HostSet

/-! ### All levels -/

namespace PrioritySet

/-- Each level has come about by calls, whenever its hosts were looked at last. -/
def Grown (s : PrioritySet) : Prop :=
  s.Everywhere fun l => ∃ t, HostSet.Run l t

variable {s : PrioritySet}

theorem grown_empty (overprovisioning : Nat) : (empty overprovisioning).Grown :=
  everywhere_empty fun p => ⟨.empty, .start p overprovisioning .empty⟩

theorem Grown.grouped (grown : s.Grown) : s.Grouped := by
  refine ⟨fun p l hl => ?_, fun p => HostSet.grouped_empty p s.overprovisioning⟩
  obtain ⟨t, run⟩ := grown.levels p l hl
  exact run.current.byLocality_eq

end PrioritySet

/-! ## What the parts have to do with each other -/

namespace HostSet

variable {s : HostSet} {t : HostTable}

/-- All that is derived agrees with the hosts and weights of the level, and with the health that
the hosts have in the table. -/
structure Consistent (s : HostSet) (t : HostTable) : Prop where
  healthy : s.healthy = s.hosts.filter fun h => t.health h = .healthy
  degraded : s.degraded = s.hosts.filter fun h => t.health h = .degraded
  disjoint : ∀ h ∈ s.healthy, h ∉ s.degraded
  localities : ∀ l, l ∈ s.byLocality.localities ↔ ∃ h ∈ s.hosts, h.locality = l
  /-- No locality is listed twice, since each is less than all after it. -/
  increasing : s.byLocality.localities.Pairwise fun a b => compare a b = .lt
  groups : s.byLocality.groups =
    s.byLocality.localities.map fun l => (l, s.hosts.filter fun h => h.locality = l)
  gathered : s.byLocality.groups = (ByLocality.gather s.hosts).entries
  /-- Position by position the same localities, each with those of its hosts who are healthy. -/
  healthyGroups : s.healthyByLocality.groups =
    s.byLocality.groups.map fun (l, group) => (l, group.filter fun h => t.health h = .healthy)
  degradedGroups : s.degradedByLocality.groups =
    s.byLocality.groups.map fun (l, group) => (l, group.filter fun h => t.health h = .degraded)
  healthyGrouped : s.healthyByLocality.hosts.flatten.Perm s.healthy
  degradedGrouped : s.degradedByLocality.hosts.flatten.Perm s.degraded
  unweighted : s.localityWeights = none ↔ s.configuredWeights.isEmpty = true
  aligned : ∀ weights, s.localityWeights = some weights →
    weights = s.byLocality.localities.map fun l => (s.configuredWeights.get? l).getD 0

/-- The groups of those with some health hold all of them. -/
theorem flatten_filter_perm (hosts : List Host) (keep : Host → Bool) :
    ((ByLocality.ofHosts hosts).filter keep).hosts.flatten.Perm (hosts.filter keep) := by
  rw [ByLocality.hosts, ByLocality.groups_filter_ofHosts, List.map_map, Function.comp_def,
    ← List.flatMap_def]
  refine ByLocality.flatMap_group_perm (ByLocality.nodup_ofHosts hosts) fun h hh => ?_
  exact ByLocality.mem_localities_ofHosts.2 ⟨h, (List.mem_filter.1 hh).1, rfl⟩

/-- **Current partitions are consistent**, with the weights and with each other. -/
theorem Current.consistentParts (current : s.Current t) : s.Consistent t := by
  have matched := current.matchesHealth
  have grouped := current.byLocality_eq
  have weights := current.localityWeights_eq
  refine
    { healthy := matched.healthy
      degraded := matched.degraded
      disjoint := fun h hhealthy hdegraded => ?disjoint
      localities := fun l => grouped ▸ ByLocality.mem_localities_ofHosts
      increasing := grouped ▸ ByLocality.increasing_ofHosts s.hosts
      groups := ?groups
      gathered := grouped ▸ ByLocality.groups_ofHosts s.hosts
      healthyGroups := by rw [matched.healthyByLocality, grouped, ByLocality.filter]
      degradedGroups := by rw [matched.degradedByLocality, grouped, ByLocality.filter]
      healthyGrouped := ?healthyGrouped
      degradedGrouped := ?degradedGrouped
      unweighted := ?unweighted
      aligned := fun aligned haligned => ?aligned }
  case disjoint =>
    rw [matched.healthy] at hhealthy
    rw [matched.degraded] at hdegraded
    -- each partition is a filter by health, and a host has one health
    have isHealthy := of_decide_eq_true (List.mem_filter.1 hhealthy).2
    rw [of_decide_eq_true (List.mem_filter.1 hdegraded).2] at isHealthy
    cases isHealthy
  case groups =>
    rw [grouped, ByLocality.localities, ByLocality.ofHosts, List.map_map, List.map_map]
    rfl
  case healthyGrouped =>
    rw [matched.healthyByLocality, matched.healthy]
    -- groups are the hosts in another order, and filtering does not see the order
    exact flatten_filter_perm s.hosts _
  case degradedGrouped =>
    rw [matched.degradedByLocality, matched.degraded]
    exact flatten_filter_perm s.hosts _
  case unweighted =>
    rw [weights]
    split <;> simp_all
  case aligned =>
    rw [weights] at haligned
    rw [grouped]
    split at haligned
    · cases haligned
    · exact (Option.some.inj haligned).symm

/-- **After any calls, whatever happens to the hosts between them**, all parts of a level are
consistent, with health as it was when the partitions were last computed. -/
theorem Run.consistent (run : Run s t) : s.Consistent t :=
  run.current.consistentParts

/-! ### Health that nobody looked at again -/

section Zones

def zoned (id : Nat) (address zone : String) : Host :=
  { id, address, locality := ⟨"r", zone, ""⟩, metadata := ∅ }

/-- The table of two hosts by their health. -/
def twoHosts (first second : Health) : HostTable :=
  ⟨#[{ HostState.new 1 with flags := .ofHealth first },
    { HostState.new 1 with flags := .ofHealth second }]⟩

/-- The first of two hosts is degraded when the partitions are computed, and later on both go
down. Only the zone of the first one has a weight. -/
def zonedLevel : HostSet :=
  let weights : LocalityWeights := .ofList [(⟨"r", "z2", ""⟩, 3)]
  let came := (HostSet.empty 0 140).update (twoHosts .healthy .healthy)
    [zoned 0 "a" "z2", zoned 1 "b" "z1"] []
  ((came.setLocalityWeights weights).refreshHealth (twoHosts .degraded .healthy)).update
    (twoHosts .unhealthy .unhealthy) [] []

/-- An update of nobody looks at nobody's health. -/
theorem consistent_zonedLevel :
    zonedLevel.Consistent (twoHosts .degraded .healthy) ∧
      zonedLevel.healthy = [zoned 1 "b" "z1"] ∧ zonedLevel.degraded = [zoned 0 "a" "z2"] ∧
      zonedLevel.localityWeights = some [0, 3] := by
  have run : Run zonedLevel (twoHosts .degraded .healthy) :=
    .call (.call (.call (.call (.start 0 140 (twoHosts .healthy .healthy))
      (twoHosts .healthy .healthy) (.update [zoned 0 "a" "z2", zoned 1 "b" "z1"] []))
      (twoHosts .healthy .healthy) (.setLocalityWeights (.ofList [(⟨"r", "z2", ""⟩, 3)])))
      (twoHosts .degraded .healthy) .refreshHealth)
      (twoHosts .unhealthy .unhealthy) (.update [] [])
  have consistent := Run.consistent run
  refine ⟨consistent, ?_, ?_, by decide +kernel⟩
  · rw [consistent.healthy]
    decide +kernel
  · rw [consistent.degraded]
    decide +kernel

end Zones

end HostSet

end LoadBalancing
