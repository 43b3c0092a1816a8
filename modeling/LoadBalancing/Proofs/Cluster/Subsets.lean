/-
The subsets of a cluster are those of its hosts, filtered anew, after any run.

The engine is told about each level of a change, one after the other, together with the
priority set as it is by then. So in the midst of a change a subset may be made from a
set in which a host that moves is at two levels or at none. This does no harm, because
subsets are in step level by level, and each part of a change is told about the level it
changes. What has to be known of a part is that everyone who leaves is named in it
(`LevelChange.Fits`). That is so because a level never has two hosts at one address, and
because the cluster looks up whom an added host replaces before it changes anything; it
finds the right one, as an address is at one level only when a change begins.
-/
import LoadBalancing.Proofs.Cluster.Rejection
import LoadBalancing.Proofs.Host.Table
import LoadBalancing.Proofs.Outcome
import LoadBalancing.Proofs.Subset.Engine
import Mathlib.Data.List.Nodup

set_option autoImplicit false

namespace LoadBalancing

/-! ## Addresses -/

namespace PrioritySet

/-- No level has two hosts at one address. -/
def LevelsDistinct (s : PrioritySet) : Prop :=
  ∀ p, ((s.hostsAt p).map (·.address)).Nodup

/-- No address is at two levels. -/
def OneLevel (s : PrioritySet) : Prop :=
  ∀ p q h h', h ∈ s.hostsAt p → h' ∈ s.hostsAt q → h.address = h'.address → p = q

variable {s : PrioritySet}

/-- No address is at two levels if no two of the levels that there are share one. So it can be
decided. -/
theorem oneLevel_iff : s.OneLevel ↔ ∀ l ∈ s.levels, ∀ l' ∈ s.levels, ∀ h ∈ l.hosts,
    ∀ h' ∈ l'.hosts, h.address = h'.address → l.priority = l'.priority := by
  constructor
  · intro oneLevel l hl l' hl' h hh h' hh' heq
    obtain ⟨p, hp⟩ := List.getElem?_of_mem hl
    obtain ⟨q, hq⟩ := List.getElem?_of_mem hl'
    rw [s.dense p l hp, s.dense q l' hq]
    refine oneLevel p q h h' ?_ ?_ heq
    · rwa [hostsAt_of_level? hp]
    · rwa [hostsAt_of_level? hq]
  · intro hall p q h h' hh hh' heq
    obtain ⟨l, hp, hl⟩ := exists_level_of_mem_hostsAt hh
    obtain ⟨l', hq, hl'⟩ := exists_level_of_mem_hostsAt hh'
    rw [← s.dense p l hp, ← s.dense q l' hq]
    exact hall l (List.mem_of_getElem? hp) l' (List.mem_of_getElem? hq) h hl h' hl' heq

instance : Decidable s.OneLevel := decidable_of_iff _ oneLevel_iff.symm

/-- At one level, an address belongs to one host. -/
theorem LevelsDistinct.eq_of_address (distinct : s.LevelsDistinct) {p : Nat} {h h' : Host}
    (hh : h ∈ s.hostsAt p) (hh' : h' ∈ s.hostsAt p) (heq : h.address = h'.address) : h = h' :=
  List.inj_on_of_nodup_map (distinct p) hh hh' heq

/-- Where no two hosts share an address, looking for the address of a host finds the host. -/
theorem OneLevel.find?_address (oneLevel : s.OneLevel) (distinct : s.LevelsDistinct) {p : Nat}
    {h : Host} (hh : h ∈ s.hostsAt p) : s.find? h.address = some (p, h) := by
  cases hfind : s.find? h.address with
  | none =>
    have hin : h ∈ s.hosts := mem_hosts.2 ⟨p, hh⟩
    exact absurd rfl (find?_eq_none.1 hfind h hin)
  | some found =>
    obtain ⟨q, h'⟩ := found
    obtain ⟨hmem, heq⟩ := find?_eq_some hfind
    obtain rfl := oneLevel q p h' h hmem hh heq
    rw [distinct.eq_of_address hmem hh heq]

end PrioritySet

/-! ## Parts of membership changes -/

/-- A part of a membership change that an engine can follow: everyone who leaves is named,
nobody comes twice, and nobody who comes carries a list within a list. -/
structure LevelChange.Fits (s : PrioritySet) (change : LevelChange) : Prop where
  listed : ∀ h ∈ s.hostsAt change.priority,
    HostSet.isDropped change.added change.removed h = true → h ∈ change.removed ∨ h ∈ change.added
  distinct : (change.added.map (·.address)).Nodup
  flat : ∀ h ∈ change.added, h.Flat

/-- A part speaks of its own level only. -/
theorem LevelChange.Fits.congr {s s' : PrioritySet} {change : LevelChange} (h : change.Fits s)
    (same : s'.hostsAt change.priority = s.hostsAt change.priority) : change.Fits s' :=
  ⟨by rw [same]; exact h.listed, h.distinct, h.flat⟩

/-- What discovery says fits, since the cluster finds the hosts at the addresses. -/
theorem LevelChange.fits_ofAddresses {s : PrioritySet} (distinct : s.LevelsDistinct)
    (priority : Nat) {added : List Host} (hadded : (added.map (·.address)).Nodup)
    (flat : ∀ h ∈ added, h.Flat) (removed : List String) :
    (LevelChange.ofAddresses s priority added removed).Fits s := by
  -- of one who has to go, the cluster has to know that it looked at its address
  refine ⟨fun h hh hdrop => ?_, hadded, flat⟩
  left
  cases hlevel : s.level? priority with
  | none =>
    rw [show (ofAddresses s priority added removed).priority = priority from rfl,
      PrioritySet.hostsAt, hlevel] at hh
    cases hh
  | some l =>
    have hl := PrioritySet.hostsAt_of_level? hlevel
    have hremoved : (ofAddresses s priority added removed).removed =
        (removed ++ added.map (·.address)).filterMap l.find? := by
      rw [ofAddresses, hlevel]
    -- whoever is found at the address of h is h
    have found {address : String} {o : Host} (ho : l.find? address = some o)
        (heq : address = h.address) : o = h := by
      obtain ⟨hmem, haddress⟩ := HostSet.find?_eq_some ho
      exact distinct.eq_of_address (hl ▸ hmem) hh (haddress.trans heq)
    rw [hremoved]
    rcases HostSet.isDropped_iff.1 hdrop with ⟨o, ho, haddress⟩ | ⟨o, ho, haddress⟩
    · -- one of the removed is at its address
      rw [hremoved] at ho
      obtain ⟨address, hmem, hfind⟩ := List.mem_filterMap.1 ho
      have heq := found hfind ((HostSet.find?_eq_some hfind).2.symm.trans haddress)
      exact List.mem_filterMap.2 ⟨address, hmem, heq ▸ hfind⟩
    · -- one of the added is, and so the cluster looks for whoever is there
      have hmem : h.address ∈ removed ++ added.map (·.address) :=
        List.mem_append_right _ (List.mem_map.2 ⟨o, ho, haddress⟩)
      refine List.mem_filterMap.2 ⟨h.address, hmem, ?_⟩
      cases hfind : l.find? h.address with
      | none => exact absurd rfl (HostSet.find?_eq_none.1 hfind h (hl ▸ hh))
      | some o' => rw [found hfind rfl]

/-! ## Configured hosts -/

/-- Configured hosts with an address each, and without lists in lists. -/
structure ProperHosts (desired : List HostConfig) : Prop where
  distinct : (desired.map (·.address)).Nodup
  flat : ∀ c ∈ desired, c.metadata.Flat

namespace HostTable

/-- Beside their levels, the hosts that are taken in stand in the order of their configurations, at
the addresses that these give. -/
theorem addresses_zip_enrollAll (t : HostTable) (configs : List HostConfig) :
    ((configs.map (·.priority)).zip (t.enrollAll configs).1).map (fun placed => placed.2.address) =
      configs.map (·.address) := by
  have addresses := addresses_enrollAll t configs
  -- pairing with the levels cuts nobody off
  have length : (t.enrollAll configs).1.length ≤ (configs.map (·.priority)).length := by
    have := congrArg List.length addresses
    simp only [List.length_map] at this ⊢
    exact Nat.le_of_eq this
  show List.map (Host.address ∘ Prod.snd) _ = _
  rw [← List.map_map, List.map_snd_zip length, addresses]

/-- A host that was taken in is what its configuration asks for, and stands where it says. -/
theorem metBy_of_mem_zip_enrollAll {t : HostTable} {configs : List HostConfig} {p : Nat} {h : Host}
    (hmem : (p, h) ∈ (configs.map (·.priority)).zip (t.enrollAll configs).1) :
    ∃ c ∈ configs, c.priority = p ∧ c.MetBy (t.enrollAll configs).2 h := by
  induction configs generalizing t with
  | nil => cases hmem
  | cons c rest ih =>
    rw [enrollAll] at hmem
    dsimp only at hmem
    rw [List.map_cons, List.zip_cons_cons] at hmem
    rcases List.mem_cons.1 hmem with heq | hrest
    · cases heq
      have met := metBy_enrollConfig t c
      have known : (t.enrollConfig c).1.id < (t.enrollConfig c).2.states.size := by
        rw [enrollConfig, enroll, Array.size_push]
        exact Nat.lt_succ_self _
      -- those who are taken in after it do not change its weight
      have later := congrArg HostState.weight (state_enrollAll known rest)
      exact ⟨c, List.mem_cons_self, rfl, { met with weight := later.trans met.weight }⟩
    · obtain ⟨c', hc', hfacts⟩ := ih hrest
      exact ⟨c', List.mem_cons_of_mem _ hc', hfacts⟩

/-- In particular it has the address and the metadata of one of them. -/
theorem exists_of_mem_zip_enrollAll {t : HostTable} {configs : List HostConfig} {p : Nat} {h : Host}
    (hmem : (p, h) ∈ (configs.map (·.priority)).zip (t.enrollAll configs).1) :
    ∃ c ∈ configs, c.priority = p ∧ h.address = c.address ∧ h.metadata = c.metadata := by
  obtain ⟨c, hc, hp, met⟩ := metBy_of_mem_zip_enrollAll hmem
  exact ⟨c, hc, hp, met.address, met.metadata⟩

end HostTable

/-- Of hosts with their levels, a part has those of its own level. -/
theorem LevelChange.mem_atLevel {hosts : List (Nat × Host)} {p : Nat} {h : Host} :
    h ∈ atLevel p hosts ↔ (p, h) ∈ hosts := by
  rw [atLevel, List.mem_map]
  constructor
  · rintro ⟨⟨q, h'⟩, hmem, rfl⟩
    obtain ⟨hmem, hq⟩ := List.mem_filter.1 hmem
    rw [decide_eq_true_eq] at hq
    rwa [← hq]
  · intro hmem
    exact ⟨(p, h), List.mem_filter.2 ⟨hmem, decide_eq_true rfl⟩, rfl⟩

/-- If all of them have an address each, then so have those of one level. -/
theorem LevelChange.nodup_atLevel {hosts : List (Nat × Host)}
    (distinct : (hosts.map fun placed => placed.2.address).Nodup) (p : Nat) :
    ((atLevel p hosts).map (·.address)).Nodup := by
  rw [atLevel, List.map_map]
  exact distinct.sublist (List.filter_sublist.map _)

/-- Whoever leaves on the way to a list of hosts leaves the level at which it is: it is not in
the list, or a host of the list takes its place. -/
theorem MembershipChange.mem_hostsAt_of_leaving {s : PrioritySet}
    {desired arriving : List HostConfig} {p : Nat} {h : Host}
    (hleaving : (p, h) ∈ unwanted s desired ++ arriving.filterMap fun c => s.find? c.address) :
    h ∈ s.hostsAt p := by
  rcases List.mem_append.1 hleaving with hunwanted | hreplaced
  · obtain ⟨l, hl, hmem⟩ := List.mem_flatMap.1 hunwanted
    obtain ⟨h', hh', heq⟩ := List.mem_map.1 hmem
    cases heq
    obtain ⟨i, hi⟩ := List.getElem?_of_mem hl
    rw [s.dense i l hi, PrioritySet.hostsAt_of_level? hi]
    exact (List.mem_filter.1 hh').1
  · obtain ⟨c, -, hfind⟩ := List.mem_filterMap.1 hreplaced
    exact (PrioritySet.find?_eq_some hfind).1

/-- The way to a list of proper hosts fits: whoever has to make place for a new host was
found at its address, and nobody else is there. -/
theorem MembershipChange.fits_toReach {s : PrioritySet} (distinct : s.LevelsDistinct)
    (oneLevel : s.OneLevel) (t : HostTable) {desired : List HostConfig}
    (proper : ProperHosts desired) {change : LevelChange}
    (hchange : change ∈ (toReach t s desired).1.levels) : change.Fits s := by
  rw [toReach] at hchange
  dsimp only at hchange
  obtain ⟨p, -, rfl⟩ := List.mem_map.1 hchange
  generalize harriving : desired.filter (fun c => (c.kept? s).isNone) = arriving
  have hproper : ∀ c ∈ arriving, c ∈ desired := by
    subst harriving
    exact fun c hc => (List.mem_filter.1 hc).1
  refine ⟨fun h hh hdrop => ?_, ?_, fun h hh => ?_⟩
  · left
    rw [LevelChange.mem_atLevel]
    rcases HostSet.isDropped_iff.1 hdrop with ⟨o, ho, haddress⟩ | ⟨o, ho, haddress⟩
    · -- it has the address of one who leaves, so it is the one
      rw [LevelChange.mem_atLevel] at ho
      rwa [← distinct.eq_of_address (mem_hostsAt_of_leaving ho) hh haddress]
    · -- it has the address of one who comes, and was found there
      rw [LevelChange.mem_atLevel] at ho
      obtain ⟨c, hc, rfl, hcaddress, -⟩ := HostTable.exists_of_mem_zip_enrollAll ho
      refine List.mem_append_right _ (List.mem_filterMap.2 ⟨c, hc, ?_⟩)
      rw [← hcaddress, haddress]
      exact oneLevel.find?_address distinct hh
  · apply LevelChange.nodup_atLevel
    rw [HostTable.addresses_zip_enrollAll, ← harriving]
    exact proper.distinct.sublist (List.filter_sublist.map _)
  · rw [LevelChange.mem_atLevel] at hh
    obtain ⟨c, hc, -, -, hmetadata⟩ := HostTable.exists_of_mem_zip_enrollAll hh
    rw [Host.Flat, hmetadata]
    exact proper.flat c (hproper c hc)

namespace Cluster

/-! ## Clusters in step -/

/-- To publish leaves the engine as it is. -/
@[simp] theorem engine?_publish (c : Cluster) :
    c.publish.balancing.engine? = c.balancing.engine? :=
  c.balancing.engine?_chooser c.hosts c.set

/-- The engine, if there are subsets, is in step with the hosts of the cluster. -/
structure InStep (c : Cluster) : Prop where
  distinct : c.set.LevelsDistinct
  flat : ∀ h ∈ c.set.hosts, h.Flat
  engine : ∀ e, c.balancing.engine? = some e → e.InStep c.set

variable {c c' : Cluster}

/-- What moves no host and leaves the engine as it is keeps the cluster in step. -/
theorem InStep.congr (h : c.InStep) (same : ∀ p, c'.set.hostsAt p = c.set.hostsAt p)
    (engine : ∀ e', c'.balancing.engine? = some e' → e'.InStep c'.set) : c'.InStep where
  distinct p := by
    rw [same]
    exact h.distinct p
  flat host hhost := by
    obtain ⟨p, hp⟩ := PrioritySet.mem_hosts.1 hhost
    exact h.flat host (PrioritySet.mem_hosts.2 ⟨p, same p ▸ hp⟩)
  engine := engine

/-- The same where the engine is left alone. -/
theorem InStep.congrSet (h : c.InStep) (same : ∀ p, c'.set.hostsAt p = c.set.hostsAt p)
    (balancing : c'.balancing.engine? = c.balancing.engine?) : c'.InStep :=
  h.congr same fun e he => (h.engine e (balancing ▸ he)).congr same

/-- The configuration that a cluster remembers has no part in it. -/
theorem InStep.withConfig (h : c.InStep) (config : ClusterConfig) :
    ({ c with config } : Cluster).InStep :=
  ⟨h.distinct, h.flat, h.engine⟩

/-- Nor has what is published. -/
theorem InStep.publish (h : c.InStep) : c.publish.InStep :=
  h.congrSet (fun _ => rfl) (engine?_publish c)

/-- Nor has the table: subsets are made by metadata, which is in the hosts themselves. -/
theorem InStep.outside (h : c.InStep) (hosts : HostTable) : ({ c with hosts } : Cluster).InStep :=
  h.congrSet (fun _ => rfl) rfl

/-- The engine catches up with health and weights. -/
theorem engine?_refresh_inStep {b : Balancing} {before after : PrioritySet}
    (h : ∀ e, b.engine? = some e → e.InStep before) (t : HostTable)
    (same : ∀ p, after.hostsAt p = before.hostsAt p) (e : SubsetEngine)
    (he : (b.refresh t after).engine? = some e) : e.InStep after := by
  rw [Balancing.engine?_refresh] at he
  obtain ⟨engine, hb, rfl⟩ := Option.map_eq_some_iff.1 he
  exact (h engine hb).refresh t same

/-- A refresh moves nobody, in the cluster or in its subsets. -/
theorem InStep.refresh (h : c.InStep) : c.refresh.InStep := by
  apply InStep.publish
  refine h.congr (fun p => PrioritySet.hostsAt_refreshHealth c.hosts p) ?_
  exact engine?_refresh_inStep h.engine c.hosts (PrioritySet.hostsAt_refreshHealth c.hosts)

/-! ## Membership changes -/

/-- **One part of a change.** -/
theorem InStep.applyLevel (h : c.InStep) {change : LevelChange} (fits : change.Fits c.set) :
    (c.applyLevel change).InStep := by
  have hosts := hostsAt_applyLevel c change
  rw [Cluster.applyLevel] at hosts ⊢
  split at hosts
  next hempty =>
    rw [if_pos hempty]
    exact h
  next hne =>
    rw [if_neg hne]
    have step := LevelStep.updateHosts c.set c.hosts fits.listed
    refine ⟨fun p => ?_, fun host hhost => ?_, fun e he => ?_⟩
    · rw [hosts]
      split
      · -- those who stay have other addresses than those who come
        rw [List.map_append]
        refine ((h.distinct p).sublist (List.filter_sublist.map _)).append fits.distinct ?_
        intro address hkept hadded
        obtain ⟨o, ho, rfl⟩ := List.mem_map.1 hadded
        obtain ⟨o', ho', haddress⟩ := List.mem_map.1 hkept
        have hstays := (List.mem_filter.1 ho').2
        rw [HostSet.isDropped_iff.2 (.inr ⟨o, ho, haddress.symm⟩)] at hstays
        cases hstays
      · exact h.distinct p
    · rcases step.mem_hosts hhost with hbefore | hadded
      · exact h.flat host hbefore
      · exact fits.flat host hadded
    · rw [Balancing.engine?_update] at he
      obtain ⟨engine, hb, rfl⟩ := Option.map_eq_some_iff.1 he
      exact (h.engine engine hb).update c.hosts step fits.flat

/-- What every part of a change that fits keeps, the whole change keeps. Each part speaks of a
level that no other one changes, so what fits at first fits when its turn comes. -/
theorem applyLevels_induct {P : Cluster → Prop} {levels : List LevelChange}
    (distinct : (levels.map (·.priority)).Nodup) (fits : ∀ change ∈ levels, change.Fits c.set)
    (step : ∀ c' change, P c' → change.Fits c'.set → P (c'.applyLevel change)) (h : P c) :
    P (levels.foldl Cluster.applyLevel c) := by
  induction levels generalizing c with
  | nil => exact h
  | cons first rest ih =>
    rw [List.map_cons, List.nodup_cons] at distinct
    refine ih distinct.2 (fun change hchange => ?_) (step c first h (fits first List.mem_cons_self))
    refine (fits change (List.mem_cons_of_mem _ hchange)).congr ?_
    have hne : change.priority ≠ first.priority := by
      intro heq
      exact distinct.1 (heq ▸ List.mem_map_of_mem hchange)
    rw [hostsAt_applyLevel, if_neg hne]

/-- **All parts of a change.** -/
theorem InStep.applyLevels (h : c.InStep) {levels : List LevelChange}
    (distinct : (levels.map (·.priority)).Nodup) (fits : ∀ change ∈ levels, change.Fits c.set) :
    (levels.foldl Cluster.applyLevel c).InStep :=
  applyLevels_induct distinct fits (fun _ _ inStep hfits => inStep.applyLevel hfits) h

/-- What the checker is told changes the table and the checker only. -/
theorem InStep.informChecker (h : c.InStep) (now : Nat) (levels : List LevelChange) :
    (c.informChecker now levels).InStep := by
  rw [Cluster.informChecker]
  split
  · exact h
  · exact h.congrSet (fun _ => rfl) rfl

/-- A change with its weights: the checker is told, then the levels, and at last the engine if
weights of hosts changed. -/
theorem InStep.applyChange (h : c.InStep) (now : Nat) {change : MembershipChange}
    (distinct : (change.levels.map (·.priority)).Nodup)
    (fits : ∀ part ∈ change.levels, part.Fits c.set) : (c.applyChange now change).InStep := by
  have changed : (change.levels.foldl Cluster.applyLevel
      (c.informChecker now change.levels)).InStep := by
    refine (h.informChecker now change.levels).applyLevels distinct ?_
    rw [set_informChecker]
    exact fits
  rw [Cluster.applyChange]
  dsimp only
  split
  · exact changed.congr (fun _ => rfl)
      (engine?_refresh_inStep changed.engine _ fun _ => rfl)
  · exact changed.outside _

/-- The way to a list of hosts keeps a cluster in step, if no address is at two levels when it
begins. -/
theorem InStep.reach (h : c.InStep) (oneLevel : c.set.OneLevel) (now : Nat)
    {desired : List HostConfig} (proper : ProperHosts desired) : (c.reach now desired).InStep :=
  (h.outside _).applyChange now (MembershipChange.nodup_toReach c.hosts c.set desired)
    fun _ hpart => MembershipChange.fits_toReach h.distinct oneLevel c.hosts proper hpart

/-- So does a list of hosts, which goes that way and is published. -/
theorem InStep.setHosts (h : c.InStep) (oneLevel : c.set.OneLevel) (now : Nat)
    {desired : List HostConfig} (proper : ProperHosts desired) :
    (c.setHosts now desired).InStep := by
  rw [Cluster.setHosts]
  dsimp only
  split
  · exact h
  · exact ((h.reach oneLevel now proper).withConfig _).publish

/-- So does what discovery says. Here the level is known, and whoever is at another one is left
alone. -/
theorem InStep.changeMembership (h : c.InStep) (now priority : Nat) {added : List Host}
    (distinct : (added.map (·.address)).Nodup) (flat : ∀ o ∈ added, o.Flat)
    (removed : List String) : (c.changeMembership now priority added removed).InStep := by
  apply InStep.publish
  refine h.applyChange now (by simp) fun part hpart => ?_
  rw [List.mem_singleton.1 hpart]
  exact LevelChange.fits_ofAddresses h.distinct priority distinct flat removed

/-! ## Changes of configuration -/

/-- The engine of a balancing that was just built was just made, and computes as it was told. -/
theorem engine_of_build {config : ClusterConfig} {numerics : Numerics} {number : Nat}
    {t : HostTable} {s : PrioritySet} {w : Workshop} {b : Balancing}
    (h : Balancing.build config numerics number t s w = .ok b) {e : SubsetEngine}
    (he : b.engine? = some e) :
    ∃ plan : SubsetPlan, plan.numerics = numerics ∧ e = .new plan number t s w := by
  rw [Balancing.build] at h
  obtain ⟨strategy, -, h⟩ := Except.bind_eq_ok.1 h
  cases hsubset : config.subset with
  | none =>
    rw [hsubset] at h
    cases h
    cases he
  | some subset =>
    rw [hsubset] at h
    obtain ⟨settings, -, h⟩ := Except.bind_eq_ok.1 h
    cases h
    cases he
    exact ⟨_, rfl, rfl⟩

/-- An engine that was just built is in step with the set that it was built for. -/
theorem inStep_of_build {config : ClusterConfig} {numerics : Numerics} {number : Nat}
    {t : HostTable} {s : PrioritySet} {w : Workshop} {b : Balancing}
    (h : Balancing.build config numerics number t s w = .ok b) (flat : ∀ host ∈ s.hosts, host.Flat)
    (e : SubsetEngine) (he : b.engine? = some e) : e.InStep s := by
  obtain ⟨plan, -, rfl⟩ := engine_of_build h he
  exact SubsetEngine.inStep_new plan number t flat w

/-- Another checker moves nobody. -/
theorem InStep.adoptChecker (h : c.InStep) (now : Nat) (checker : Option (Option Checker)) :
    (c.adoptChecker now checker).InStep := by
  cases checker with
  | none => exact h
  | some checker =>
    cases checker with
    | none => exact h.congrSet (fun _ => rfl) rfl
    | some checker => exact h.congrSet (fun _ => rfl) rfl

/-- It leaves all levels as they are. -/
theorem set_adoptChecker (c : Cluster) (now : Nat) (checker : Option (Option Checker)) :
    (c.adoptChecker now checker).set = c.set := by
  cases checker with
  | none => rfl
  | some checker => cases checker <;> rfl

/-- Other weights of localities move nobody. -/
theorem InStep.adoptWeights? (h : c.InStep) {config : ClusterConfig}
    (adopted : c.adoptWeights? config = some c') : c'.InStep := by
  have same := hostsAt_adoptWeights? c adopted
  obtain ⟨set, -, rfl⟩ := (adoptWeights?_eq_some c).1 adopted
  exact h.congrSet same rfl

/-- The configured hosts come, and all partitions are computed anew. -/
theorem InStep.adoptHosts (h : c.InStep) (oneLevel : c.set.OneLevel) (now : Nat)
    {config : ClusterConfig} (proper : ProperHosts config.hosts) :
    (c.adoptHosts now config).InStep :=
  (h.reach oneLevel now proper).congrSet (fun p => PrioritySet.hostsAt_refreshHealth _ p) rfl

/-- **A change of configuration**, taken or not. The new engine is made for the hosts as they
are in the end. -/
theorem InStep.configured (h : c.InStep) (oneLevel : c.set.OneLevel) {now : Nat}
    {config : ClusterConfig} (proper : ProperHosts config.hosts)
    {result : Except ConfigError Unit} (configured : c.Configured now config result c') :
    c'.InStep := by
  cases configured with
  | turnedDown => exact h
  | @taken checker weighed balancing prepared adopted built =>
    -- neither the checker nor weights move anybody, so an address is at one level still
    have oneLevel' : weighed.set.OneLevel := by
      intro p q o o' ho ho'
      rw [hostsAt_adoptWeights? _ adopted, set_adoptChecker] at ho ho'
      exact oneLevel p q o o' ho ho'
    have arrived := ((h.adoptChecker now checker).adoptWeights? adopted).adoptHosts oneLevel' now
      proper
    apply InStep.publish
    exact arrived.congr (fun _ => rfl) (inStep_of_build built arrived.flat)

/-- Before the first hosts come, the engine is in step with nobody. -/
theorem IsOpening.inStep {config : ClusterConfig} {transports : List ProbeKind}
    {numerics : Numerics} (h : c.IsOpening config transports numerics) : c.InStep where
  distinct p := by
    rw [h.nobody]
    exact List.nodup_nil
  flat host hhost := by
    rw [h.hosts_eq_nil] at hhost
    cases hhost
  engine e he :=
    (inStep_of_build h.balancing (fun host hhost => by cases hhost) e he).congr h.nobody

/-- Before the first hosts come there is no address at all. -/
theorem IsOpening.oneLevel {config : ClusterConfig} {transports : List ProbeKind}
    {numerics : Numerics} (h : c.IsOpening config transports numerics) : c.set.OneLevel := by
  intro p q o o' ho
  rw [h.nobody] at ho
  cases ho

/-- A new cluster is in step. -/
theorem inStep_new {config : ClusterConfig} {transports : List ProbeKind} {numerics : Numerics}
    {now : Nat} (h : Cluster.new config transports numerics now = .ok (.ok c))
    (proper : ProperHosts config.hosts) : c.InStep := by
  obtain ⟨opening, isOpening, rfl⟩ := exists_opening h
  exact (isOpening.inStep.reach isOpening.oneLevel now proper).publish

/-! ## Whole runs -/

/-- The hosts that an operation brings have an address each, and no lists in lists. -/
def Operation.Proper : Operation → Prop
  | .membership _ _ added _ => (added.map (·.address)).Nodup ∧ ∀ h ∈ added, h.Flat
  | .hosts _ desired => ProperHosts desired
  | .config _ next => ProperHosts next.hosts
  | _ => True

/-- Changes of health are followed by a refresh, if there are any. -/
theorem InStep.noteTransitions (h : c.InStep) (changed : List Transition) :
    (c.noteTransitions changed).InStep := by
  rw [Cluster.noteTransitions]
  split
  · exact h.refresh
  · exact h

/-- What a cluster hears from its checker moves nobody. -/
theorem InStep.heard (h : c.InStep) (heard : c.Heard c') : c'.InStep := by
  cases heard with
  | nothing => exact h
  | reported =>
    apply InStep.noteTransitions
    exact h.congrSet (fun _ => rfl) rfl

/-- **One operation** keeps a cluster in step. -/
theorem InStep.perform (h : c.InStep) (oneLevel : c.set.OneLevel) {operation : Operation}
    (proper : operation.Proper) (done : c.perform operation = .ok c') : c'.InStep := by
  cases operation with
  | membership now priority added removed =>
    cases done
    exact h.changeMembership now priority proper.1 proper.2 removed
  | hosts now desired =>
    cases done
    exact h.setHosts oneLevel now proper
  | config now config =>
    obtain ⟨result, configured⟩ := configured_of_perform done
    exact h.configured oneLevel proper configured
  | hostWeight address weight =>
    cases done
    rw [setHostWeight]
    split
    · exact h
    · dsimp only
      split
      · exact (h.outside _).refresh
      · exact h.outside _
  | localityWeights priority weights =>
    cases done
    rw [setLocalityWeights]
    apply InStep.refresh
    exact h.congrSet (fun p => PrioritySet.hostsAt_setLocalityWeights priority p weights) rfl
  | timers now jitter => exact h.heard (heard_timers done)
  | result now jitter asker key probe result => exact h.heard (heard_deliver done)
  | transitions changed =>
    cases done
    exact h.noteTransitions changed
  | outside hosts =>
    cases done
    exact h.outside hosts

/-- A cluster that came about by some operations, none of which began while an address was
at two levels. -/
inductive ProperRun : Cluster → Prop where
  | start {config : ClusterConfig} {transports : List ProbeKind} {numerics : Numerics} {now : Nat}
      {c : Cluster} :
      Cluster.new config transports numerics now = .ok (.ok c) → ProperHosts config.hosts →
        ProperRun c
  | step {c c' : Cluster} (operation : Operation) :
      ProperRun c → c.set.OneLevel → operation.Proper → c.perform operation = .ok c' → ProperRun c'

/-- By induction over the operations. That no address is at two levels is asked anew before each of
them, as a delta may bring it about. -/
theorem ProperRun.inStep (run : ProperRun c) : c.InStep := by
  induction run with
  | start h proper => exact inStep_new h proper
  | step _ _ oneLevel proper done ih => exact ih.perform oneLevel proper done

end Cluster

/-! ## What subsets have -/

/-- Each subset has, level by level, the hosts that match it of all those there are, the same
ones and in the same order. -/
structure SubsetEngine.Filters (e : SubsetEngine) (whole : PrioritySet) : Prop where
  /-- The subsets of tuples. -/
  held : ∀ tuple s, e.view.root.get? tuple = some s → ∀ p, s.set.hostsAt p =
    (whole.hostsAt p).filter fun h => h.matchesTuple e.plan.settings.listAsAny tuple
  /-- The subset of all hosts. -/
  any : ∀ p, e.view.any.set.hostsAt p = whole.hostsAt p
  /-- There is a default subset for each metadata that the settings name. -/
  defaultsMetadata : e.view.defaults.map (·.metadata) = e.plan.settings.defaults
  defaults : ∀ s ∈ e.view.defaults, ∀ p, s.set.hostsAt p =
    (whole.hostsAt p).filter fun h => h.matchesTuple e.plan.settings.listAsAny s.metadata
  /-- Every tuple of a host under a key set has a subset. -/
  complete : ∀ h ∈ whole.hosts, ∀ keys ∈ e.plan.settings.keySets,
    ∀ tuple ∈ h.tuples e.plan.settings.listAsAny keys.keys, ∃ s, e.view.root.get? tuple = some s
  /-- A host that left or was replaced is in no subset. -/
  nobodyElse : ∀ s, (∃ tuple, e.view.root.get? tuple = some s) ∨ s = e.view.any ∨
    s ∈ e.view.defaults → ∀ h ∈ s.set.hosts, h ∈ whole.hosts

/-- This is what it means for an engine to be in step. -/
theorem SubsetEngine.InStep.filters {e : SubsetEngine} {whole : PrioritySet} (h : e.InStep whole) :
    e.Filters whole where
  held tuple s hs p := by
    have entry := h.holds tuple s hs
    rw [entry.inStep.hosts, entry.metadata]
  any p := by
    rw [h.standing.any.hosts, h.standing.anyMetadata, List.filter_eq_self]
    exact fun o _ => o.matchesTuple_nil
  defaultsMetadata := h.standing.defaultsMetadata
  defaults s hs p := (h.standing.defaults s hs).hosts p
  complete o ho keys hkeys tuple htuple :=
    Option.isSome_iff_exists.1 (h.complete o ho tuple (mem_tuplesOf.2 ⟨keys, hkeys, htuple⟩))
  nobodyElse s hs o ho := by
    have inStep : s.InStep e.plan whole := by
      rcases hs with ⟨tuple, hs⟩ | rfl | hs
      · exact (h.holds tuple s hs).inStep
      · exact h.standing.any
      · exact h.standing.defaults s hs
    exact (inStep.mem_hosts.1 ho).1

namespace Cluster

/-- **Subsets are never behind.** After any run in which no two hosts share an address, and no
host carries a list within a list, the subsets of a cluster are what filtering its hosts anew
would give. -/
theorem ProperRun.subsets_filter {c : Cluster} (run : ProperRun c) {e : SubsetEngine}
    (he : c.balancing.engine? = some e) : e.Filters c.set :=
  (run.inStep.engine e he).filters

/-! ### A run -/

section Staged

/-- A host with a stage, as configured. -/
def staged (address stage : String) (priority : Nat) : HostConfig :=
  { address, weight := 1, priority, locality := default
    metadata := .ofList [("stage", .text stage)] }

/-- A cluster that groups its hosts by stage. -/
def stagedConfig : ClusterConfig :=
  { ClusterConfig.standard with
    subset := some { SubsetConfig.standard with
      selectors := [{ SelectorConfig.standard with keys := ["stage"] }] }
    hosts := [staged "a" "prod" 0, staged "b" "dev" 0] }

/-- The cluster as it opens, with a subset for each stage. -/
def stagedCluster : Cluster :=
  ((Cluster.new stagedConfig [] .float 0).toOption.bind Except.toOption).get (by decide +kernel)

/-- One host moves to another level and another stage. -/
def movedCluster : Cluster :=
  stagedCluster.setHosts 0 [staged "a" "prod" 0, staged "b" "prod" 1]

/-- And a third one comes. -/
def restagedCluster : Cluster :=
  movedCluster.changeMembership 0 0
    [{ id := 3, address := "c", locality := default
       metadata := .ofList [("stage", .text "dev")] }] []

/-- Its subsets follow a host that moves to another level, and one that comes. -/
theorem subsets_filter_restagedCluster :
    ∃ e, restagedCluster.balancing.engine? = some e ∧ e.Filters restagedCluster.set := by
  have started : ProperRun stagedCluster :=
    .start (Except.eq_ok_ok_get (by decide +kernel)) ⟨by decide, by decide⟩
  have moved : ProperRun movedCluster :=
    started.step (.hosts 0 [staged "a" "prod" 0, staged "b" "prod" 1])
      (by decide +kernel) ⟨by decide, by decide⟩ rfl
  have run : ProperRun restagedCluster :=
    moved.step (.membership 0 0 _ []) (by decide +kernel) ⟨by decide, by decide⟩ rfl
  have hsome : restagedCluster.balancing.engine?.isSome = true := by decide +kernel
  obtain ⟨e, he⟩ := Option.isSome_iff_exists.1 hsome
  exact ⟨e, he, run.subsets_filter he⟩

end Staged

end Cluster

end LoadBalancing
