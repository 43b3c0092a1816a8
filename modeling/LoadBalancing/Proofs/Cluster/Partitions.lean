/-
What a cluster keeps about the health of its hosts is never out of date.

Health is written by the checker, into the host table. The levels of a cluster and those of
its subsets keep partitions by health beside their hosts, and the cluster does not compute them
anew after every step. It leaves them alone where nothing was reported, where only weights
change, and in subsets that a change does not concern. Each of these is harmless. What is not
reported is no change of health (`HostTable.Reported`), weights are no health, and hosts get
another health as they come only if they come to a level that is computed anew for that
reason. The last point rests on two facts about the run: no host comes that is at another level,
and the table knows every host by a number of its own.
-/
import LoadBalancing.Proofs.Check.Reports
import LoadBalancing.Proofs.Cluster.Addresses
import LoadBalancing.Proofs.Cluster.Rejection
import LoadBalancing.Proofs.Subset.Partitions

set_option autoImplicit false

namespace LoadBalancing

/-! ## Hosts and their numbers -/

namespace HostTable

/-- The table knows each of the hosts, by a number of its own. -/
structure Numbers (t : HostTable) (hosts : List Host) : Prop where
  known : ∀ h ∈ hosts, h.id < t.states.size
  own : ∀ h ∈ hosts, ∀ h' ∈ hosts, h.id = h'.id → h = h'

instance (t : HostTable) (hosts : List Host) : Decidable (t.Numbers hosts) :=
  decidable_of_iff ((∀ h ∈ hosts, h.id < t.states.size) ∧
      ∀ h ∈ hosts, ∀ h' ∈ hosts, h.id = h'.id → h = h')
    ⟨fun h => ⟨h.1, h.2⟩, fun h => ⟨h.known, h.own⟩⟩

variable {t t' : HostTable} {hosts : List Host}

/-- Some of the hosts are numbered as all of them are. A table that grows takes no number away. -/
theorem Numbers.mono (h : t.Numbers hosts) {part : List Host} (sub : part ⊆ hosts)
    (size : t.states.size ≤ t'.states.size) : t'.Numbers part :=
  ⟨fun o ho => Nat.lt_of_lt_of_le (h.known o (sub ho)) size,
    fun o ho o' ho' heq => h.own o (sub ho) o' (sub ho') heq⟩

/-- New hosts get numbers of their own. -/
theorem Numbers.enrollAll (h : t.Numbers hosts) (configs : List HostConfig) :
    (t.enrollAll configs).2.Numbers (hosts ++ (t.enrollAll configs).1) := by
  have later := (advances_enrollAll t configs).size
  -- an old number and a new one differ, since new ones begin where the table ended before
  refine ⟨fun o ho => ?_, fun o ho o' ho' heq => ?_⟩
  · rcases List.mem_append.1 ho with hold | hnew
    · exact Nat.lt_of_lt_of_le (h.known o hold) later
    · exact (id_of_mem_enrollAll hnew).2
  · rcases List.mem_append.1 ho with hold | hnew <;>
      rcases List.mem_append.1 ho' with hold' | hnew'
    · exact h.own o hold o' hold' heq
    · have := h.known o hold
      have := (id_of_mem_enrollAll hnew').1
      omega
    · have := h.known o' hold'
      have := (id_of_mem_enrollAll hnew).1
      omega
    · exact List.inj_on_of_nodup_map (nodup_enrollAll t configs) hnew hnew' heq

/-- Weights that are set change nobody's health, so the table advances for nobody. -/
theorem advances_setWeights (t : HostTable) (weights : List (Host × Nat)) :
    t.Advances (Cluster.setWeights t weights).2 [] := by
  refine List.foldlRecOn (motive := fun s : Bool × HostTable => t.Advances s.2 []) _ _
    (.refl t []) ?_
  intro s ih w _
  exact ih.trans (advances_setWeight s.2 w.1 w.2)

/-- Verdicts that are cleared concern the hosts they are cleared for, and nobody else. -/
theorem advances_clearVerdicts (t : HostTable) (hosts : List Host) (first last : Nat) :
    t.Advances (Cluster.clearVerdicts t hosts first last) hosts := by
  refine List.foldlRecOn (motive := fun t' : HostTable => t.Advances t' hosts) _ _
    (.refl t hosts) ?_
  intro t' ih h hh
  refine List.foldlRecOn (motive := fun t' : HostTable => t.Advances t' hosts) _ _ ih ?_
  intro t'' ih' i _
  exact ih'.trans ((advances_setVerdict t'' h i .healthy).mono
    (List.cons_subset.2 ⟨hh, List.nil_subset _⟩))

end HostTable

/-- A level is current after a change of the table, or it has one of the hosts that the change
may concern. -/
theorem HostSet.Current.advance {s : HostSet} {t t' : HostTable} {changed : List Host}
    (h : s.Current t) (known : ∀ o ∈ s.hosts, o.id < t.states.size)
    (advances : t.Advances t' changed) :
    s.Current t' ∨ ∃ o ∈ s.hosts, ∃ a ∈ changed, a.id = o.id := by
  by_cases concerned : ∃ o ∈ s.hosts, ∃ a ∈ changed, a.id = o.id
  · exact .inr concerned
  · refine .inl (h.congr fun o ho => advances.health o (known o ho) fun a ha heq => ?_)
    exact concerned ⟨o, ho, a, ha, heq⟩

/-- The same for all levels, where the change concerns nobody. -/
theorem PrioritySet.Current.advance {s : PrioritySet} {t t' : HostTable} (h : s.Current t)
    (known : ∀ o ∈ s.hosts, o.id < t.states.size) (advances : t.Advances t' []) : s.Current t' :=
  h.congr fun o ho => advances.health o (known o ho) (by simp)

namespace Cluster

/-! ## Clusters with their partitions -/

/-- The partitions of all levels and of all subsets are current. -/
structure Current (c : Cluster) : Prop where
  set : c.set.Current c.hosts
  engine : ∀ e, c.balancing.engine? = some e → e.Current c.hosts

/-- What the partitions rest on: subsets in step, one host at an address, one host to a
number. -/
structure Grounded (c : Cluster) : Prop where
  inStep : c.InStep
  distinct : c.set.Distinct
  numbers : c.hosts.Numbers c.set.hosts

variable {c c' : Cluster}

/-- What moves no host, and drops none from the table, leaves the ground as it is. -/
theorem Grounded.congr (h : c.Grounded) (inStep : c'.InStep)
    (same : ∀ p, c'.set.hostsAt p = c.set.hostsAt p)
    (size : c.hosts.states.size ≤ c'.hosts.states.size) : c'.Grounded where
  inStep := inStep
  distinct := (PrioritySet.distinct_congr same).2 h.distinct
  numbers := by
    refine h.numbers.mono (fun o ho => ?_) size
    obtain ⟨p, hp⟩ := PrioritySet.mem_hosts.1 ho
    exact PrioritySet.mem_hosts.2 ⟨p, same p ▸ hp⟩

/-- The configuration that a cluster remembers has no part in it. -/
theorem Grounded.withConfig (h : c.Grounded) (config : ClusterConfig) :
    ({ c with config } : Cluster).Grounded :=
  h.congr (h.inStep.withConfig config) (fun _ => rfl) (Nat.le_refl _)

/-- As long as nobody gets another health, partitions stay current. -/
theorem Current.advance (h : c.Current) (grounded : c.Grounded) (set : c'.set = c.set)
    (engine : c'.balancing.engine? = c.balancing.engine?)
    (advances : c.hosts.Advances c'.hosts []) : c'.Current where
  set := set ▸ h.set.advance grounded.numbers.known advances
  engine e he := by
    rw [engine] at he
    refine ((h.engine e he).and (grounded.inStep.engine e he).throughout).imp fun s hs => ?_
    exact hs.1.advance (fun o ho => grounded.numbers.known o (hs.2.mem_hosts.1 ho).1) advances

/-- To publish is to show what there is, and computes nothing anew. -/
theorem Current.publish (h : c.Current) : c.publish.Current :=
  ⟨h.set, fun e he => h.engine e (engine?_publish c ▸ he)⟩

/-- An engine that just caught up is current. -/
theorem current_of_refresh {b : Balancing} {t : HostTable} {s : PrioritySet} {e : SubsetEngine}
    (he : (b.refresh t s).engine? = some e) : e.Current t := by
  rw [Balancing.engine?_refresh] at he
  obtain ⟨engine, -, rfl⟩ := Option.map_eq_some_iff.1 he
  exact engine.current_refresh t s

/-- A refresh makes everything current, whatever it was before. -/
theorem current_refresh (c : Cluster) : c.refresh.Current := by
  apply Current.publish
  exact ⟨PrioritySet.current_refreshHealth c.set c.hosts, fun e he => current_of_refresh he⟩

/-! ## Parts of membership changes -/

/-- The levels are told who comes and goes. The table is not. -/
@[simp] theorem hosts_applyLevel (c : Cluster) (change : LevelChange) :
    (c.applyLevel change).hosts = c.hosts := by
  rw [applyLevel]
  split <;> rfl

/-- Nor is it by all parts of a change. -/
theorem hosts_applyLevels (c : Cluster) (levels : List LevelChange) :
    (levels.foldl applyLevel c).hosts = c.hosts := by
  refine List.foldlRecOn (motive := fun c' : Cluster => c'.hosts = c.hosts) _ _ rfl ?_
  intro c' ih change _
  rw [hosts_applyLevel, ih]

/-- A checker that is told about one level after the other writes verdicts of those who come,
whichever level they come to. -/
theorem advances_foldl_add (k : Checker) (t : HostTable) (now : Nat) (levels : List LevelChange) :
    t.Advances (levels.foldl (fun (k, t) l => k.add t now l.added) (k, t)).2
      (levels.flatMap (·.added)) := by
  induction levels generalizing k t with
  | nil => exact .refl t _
  | cons first rest ih =>
    rw [List.flatMap_cons, List.foldl_cons]
    exact ((k.advances_add t now first.added).mono (List.subset_append_left _ _)).trans
      ((ih _ _).mono (List.subset_append_right _ _))

/-- Those who come are given the verdicts that their checks start with. Nobody else is
concerned. -/
theorem advances_informChecker (c : Cluster) (now : Nat) (levels : List LevelChange) :
    c.hosts.Advances (c.informChecker now levels).hosts (levels.flatMap (·.added)) := by
  rw [informChecker]
  split
  · exact .refl _ _
  · exact advances_foldl_add _ c.hosts now levels

/-- The checker is told apart from the balancing. -/
theorem balancing_informChecker (c : Cluster) (now : Nat) (levels : List LevelChange) :
    (c.informChecker now levels).balancing = c.balancing := by
  rw [informChecker]
  split <;> rfl

/-- A part in which nobody comes or goes is not told to the engine. Any other is, with the levels as
they are by then. -/
theorem engine?_applyLevel (c : Cluster) (change : LevelChange) :
    (c.applyLevel change).balancing.engine? = c.balancing.engine? ∨
      (c.applyLevel change).balancing.engine? = c.balancing.engine?.map fun e =>
        e.update c.hosts (c.applyLevel change).set change.priority change.added change.removed := by
  rw [applyLevel]
  split
  · exact .inl rfl
  · exact .inr (Balancing.engine?_update ..)

/-- Who is there after a change was there before, or came with one of its parts. -/
theorem mem_hosts_applyLevels {levels : List LevelChange} {o : Host}
    (h : o ∈ (levels.foldl applyLevel c).set.hosts) :
    o ∈ c.set.hosts ∨ o ∈ levels.flatMap (·.added) := by
  induction levels generalizing c with
  | nil => exact .inl h
  | cons first rest ih =>
    rw [List.flatMap_cons, List.mem_append]
    -- who is there after the rest was there after the first part, or comes with the rest
    rcases ih h with hbefore | hadded
    · obtain ⟨p, hp⟩ := PrioritySet.mem_hosts.1 hbefore
      rw [hostsAt_applyLevel] at hp
      split at hp
      · rcases List.mem_append.1 hp with hkept | hcame
        · exact .inl (PrioritySet.mem_hosts.2 ⟨p, (List.mem_filter.1 hkept).1⟩)
        · exact .inr (.inl hcame)
      · exact .inl (PrioritySet.mem_hosts.2 ⟨p, hp⟩)
    · exact .inr (.inr hadded)

/-- **One part of a change.** Its level may be behind before, and so may subsets that one of
those who come belongs to. -/
theorem current_applyLevel (inStep : c.InStep) (change : LevelChange)
    (set : ∀ p l, c.set.level? p = some l →
      l.Current c.hosts ∨ p = change.priority ∧ change.added ≠ [])
    (engine : ∀ e, c.balancing.engine? = some e →
      e.Throughout (HostSubset.Behind e.plan c.hosts change.priority change.added)) :
    (c.applyLevel change).Current := by
  rw [applyLevel]
  split
  next hempty =>
    -- nobody comes, so nothing can be behind
    have nobody : change.added = [] := by
      rw [LevelChange.isEmpty, Bool.and_eq_true, List.isEmpty_iff] at hempty
      exact hempty.1
    refine ⟨PrioritySet.current_of_levels fun p l hl =>
      (set p l hl).resolve_right fun h => h.2 nobody, fun e he => ?_⟩
    refine (engine e he).imp fun s hs => PrioritySet.current_of_levels fun p l hl =>
      (hs p l hl).resolve_right ?_
    rintro ⟨-, o, ho, -⟩
    rw [nobody] at ho
    cases ho
  next =>
    refine ⟨PrioritySet.current_updateHosts (fun q l hq hl => ?_) fun l hl => ?_, fun e he => ?_⟩
    · exact (set q l hl).resolve_right fun h => hq h.1
    · exact (set change.priority l hl).imp_right fun h => .inl h.2
    · rw [Balancing.engine?_update] at he
      obtain ⟨e', hb, rfl⟩ := Option.map_eq_some_iff.1 he
      exact SubsetEngine.current_update (inStep.engine e' hb).holds (engine e' hb)

/-- If nothing is behind before a part of a change, nothing is after it. -/
theorem Current.applyLevel (h : c.Current) (inStep : c.InStep) (change : LevelChange) :
    (c.applyLevel change).Current :=
  current_applyLevel inStep change (fun p l hl => .inl (h.set.levels p l hl)) fun e he =>
    (h.engine e he).imp fun _ => HostSubset.behind_of_current

/-- **All parts of a change**, if nothing is behind when they begin. -/
theorem Current.applyLevels (h : c.Current) (inStep : c.InStep) {levels : List LevelChange}
    (distinct : (levels.map (·.priority)).Nodup) (fits : ∀ change ∈ levels, change.Fits c.set) :
    (levels.foldl Cluster.applyLevel c).Current := by
  have both : (levels.foldl Cluster.applyLevel c).InStep ∧
      (levels.foldl Cluster.applyLevel c).Current :=
    applyLevels_induct (P := fun c => c.InStep ∧ c.Current) distinct fits
      (fun _ change h hfits => ⟨h.1.applyLevel hfits, h.2.applyLevel h.1 change⟩) ⟨inStep, h⟩
  exact both.2

/-! ## Membership changes -/

section Change

variable {now : Nat} {change : MembershipChange}

/-- The cluster when the checker and all levels have heard of a change, and the weights have
not. -/
def told (c : Cluster) (now : Nat) (change : MembershipChange) : Cluster :=
  change.levels.foldl applyLevel (c.informChecker now change.levels)

/-- Of all that a change does, only the checker writes to the table. -/
theorem hosts_told (c : Cluster) (now : Nat) (change : MembershipChange) :
    (c.told now change).hosts = (c.informChecker now change.levels).hosts :=
  hosts_applyLevels _ _

/-- Whether a membership change brings other weights of hosts. -/
def setsWeights (c : Cluster) (now : Nat) (change : MembershipChange) : Bool :=
  (setWeights (c.told now change).hosts change.weights).1

/-- A membership change with its weights. -/
theorem applyChange_eq (c : Cluster) (now : Nat) (change : MembershipChange) :
    c.applyChange now change =
      let c' := c.told now change
      let hosts := (setWeights c'.hosts change.weights).2
      if c.setsWeights now change then
        { c' with hosts, balancing := c'.balancing.refresh hosts c'.set }
      else { c' with hosts } := rfl

/-- The hosts that come have numbers of their own, so all have afterwards. -/
theorem numbers_told
    (numbers : c.hosts.Numbers (c.set.hosts ++ change.levels.flatMap (·.added))) :
    (c.told now change).hosts.Numbers (c.told now change).set.hosts := by
  rw [hosts_told]
  refine numbers.mono (fun o ho => ?_) (advances_informChecker c now change.levels).size
  rw [← set_informChecker c now change.levels]
  exact List.mem_append.2 (mem_hosts_applyLevels ho)

/-- A change that fits keeps the ground firm. Whether an address is at two levels then is asked of
the whole change, as its weights move nobody. -/
theorem Grounded.told (inStep : c.InStep) (distinct : (change.levels.map (·.priority)).Nodup)
    (fits : ∀ part ∈ change.levels, part.Fits c.set)
    (numbers : c.hosts.Numbers (c.set.hosts ++ change.levels.flatMap (·.added)))
    (apart : (c.applyChange now change).set.Distinct) : (c.told now change).Grounded where
  inStep := by
    refine (inStep.informChecker now change.levels).applyLevels distinct ?_
    rw [set_informChecker]
    exact fits
  distinct := by
    rw [set_applyChange] at apart
    exact apart
  numbers := numbers_told numbers

/-- The weights that come last have no part in health. -/
theorem Grounded.applyChange (h : (c.told now change).Grounded)
    (inStep : (c.applyChange now change).InStep) : (c.applyChange now change).Grounded := by
  refine h.congr inStep (fun p => by rw [set_applyChange]; rfl) ?_
  have weights := HostTable.advances_setWeights (c.told now change).hosts change.weights
  rw [Cluster.applyChange]
  dsimp only
  split <;> exact weights.size

/-- Other weights of hosts are told to the engine, which computes its subsets anew. If there are
none, what is current stays so. -/
theorem Current.applyChange (h : (c.told now change).Current)
    (grounded : (c.told now change).Grounded) : (c.applyChange now change).Current := by
  have weights := HostTable.advances_setWeights (c.told now change).hosts change.weights
  rw [Cluster.applyChange]
  dsimp only
  split
  · exact ⟨h.set.advance grounded.numbers.known weights, fun e he => current_of_refresh he⟩
  · exact h.advance grounded rfl rfl weights

end Change

/-! ### From discovery -/

section Discovery

variable (now : Nat) {priority : Nat} {added : List Host} (removed : List String)

/-- A host that comes and has the number of a live one is that one, and comes to its level. -/
theorem Grounded.comes_again (h : c.Grounded)
    (apart : ∀ a ∈ added, ∀ found ∈ c.set.find? a.address, found.1 = priority)
    (numbers : c.hosts.Numbers (c.set.hosts ++ added)) {p : Nat} {o a : Host}
    (ho : o ∈ c.set.hostsAt p) (ha : a ∈ added) (heq : a.id = o.id) :
    p = priority ∧ o ∈ added := by
  have hlive : o ∈ c.set.hosts := PrioritySet.mem_hosts.2 ⟨p, ho⟩
  obtain rfl : a = o := numbers.own a (List.mem_append_right _ ha) o
    (List.mem_append_left _ hlive) heq
  have hfind := h.distinct.oneLevel.find?_address h.distinct.levels ho
  exact ⟨apart a ha _ hfind, ha⟩

/-- **What discovery says** leaves nothing behind. A host that comes again, at its own level,
may be given another health on the way. Its level is computed anew then, and so are the
subsets it belongs to. -/
theorem Current.tell (current : c.Current) (h : c.Grounded)
    (apart : ∀ a ∈ added, ∀ found ∈ c.set.find? a.address, found.1 = priority)
    (numbers : c.hosts.Numbers (c.set.hosts ++ added)) :
    (c.told now ⟨[.ofAddresses c.set priority added removed], []⟩).Current := by
  have advances := advances_informChecker c now [.ofAddresses c.set priority added removed]
  rw [List.flatMap_singleton] at advances
  refine current_applyLevel (h.inStep.informChecker now _) _ (fun p l hl => ?_) fun e he => ?_
  · rw [set_informChecker] at hl
    have hhosts := PrioritySet.hostsAt_of_level? hl
    refine ((current.set.levels p l hl).advance (fun o ho => ?_) advances).imp_right ?_
    · exact h.numbers.known o (PrioritySet.mem_hosts.2 ⟨p, hhosts ▸ ho⟩)
    · rintro ⟨o, ho, a, ha, heq⟩
      obtain ⟨hp, hadded⟩ := h.comes_again apart numbers (hhosts ▸ ho) ha heq
      exact ⟨hp, List.ne_nil_of_mem hadded⟩
  · rw [balancing_informChecker] at he
    refine ((current.engine e he).and (h.inStep.engine e he).throughout).imp ?_
    rintro s ⟨hcurrent, inStep⟩ p l hl
    have hhosts := PrioritySet.hostsAt_of_level? hl
    refine ((hcurrent.levels p l hl).advance (fun o ho => ?_) advances).imp_right ?_
    · have hin : o ∈ s.set.hosts := PrioritySet.mem_hosts.2 ⟨p, hhosts ▸ ho⟩
      exact h.numbers.known o (inStep.mem_hosts.1 hin).1
    · rintro ⟨o, ho, a, ha, heq⟩
      -- the host of the subset is one of the cluster that matches
      rw [← hhosts, inStep.hosts, List.mem_filter] at ho
      obtain ⟨hp, hadded⟩ := h.comes_again apart numbers ho.1 ha heq
      exact ⟨hp, o, hadded, ho.2⟩

end Discovery

/-! ### From lists of hosts -/

section Lists

variable (now : Nat) {desired : List HostConfig}

/-- The hosts that come on the way to a list are those that were just taken into the table. -/
theorem mem_added_toReach {t : HostTable} {s : PrioritySet} {o : Host}
    (ho : o ∈ (MembershipChange.toReach t s desired).1.levels.flatMap (·.added)) :
    o ∈ (t.enrollAll (desired.filter fun d => (d.kept? s).isNone)).1 := by
  obtain ⟨l, hl, ho⟩ := List.mem_flatMap.1 ho
  obtain ⟨p, -, rfl⟩ := List.mem_map.1 hl
  exact (List.of_mem_zip (LevelChange.mem_atLevel.1 ho)).2

/-- The cluster that a list of hosts is told to. The hosts that have to come are taken in. -/
def withArrivals (c : Cluster) (desired : List HostConfig) : Cluster :=
  { c with hosts := (MembershipChange.toReach c.hosts c.set desired).2 }

/-- New hosts have new numbers, so whatever they are given is nobody else's. -/
theorem advances_arrivals (c : Cluster) (now : Nat) (desired : List HostConfig) :
    c.hosts.Advances ((c.withArrivals desired).informChecker now
      (MembershipChange.toReach c.hosts c.set desired).1.levels).hosts [] := by
  refine (HostTable.advances_enrollAll c.hosts _).ofFresh
    (advances_informChecker (c.withArrivals desired) now _) fun o ho => ?_
  exact (HostTable.id_of_mem_enrollAll (mem_added_toReach ho)).1

/-- The way to a proper list of hosts is firm ground up to its weights. -/
theorem Grounded.toldArrivals (h : c.Grounded) (proper : ProperHosts desired) :
    ((c.withArrivals desired).told now
      (MembershipChange.toReach c.hosts c.set desired).1).Grounded := by
  refine Grounded.told (h.inStep.outside _) (MembershipChange.nodup_toReach c.hosts c.set desired)
    (fun part hpart => MembershipChange.fits_toReach h.distinct.levels h.distinct.oneLevel c.hosts
      proper hpart) ?_ ?_
  · refine (h.numbers.enrollAll (desired.filter fun d => (d.kept? c.set).isNone)).mono ?_
      (Nat.le_refl _)
    refine List.append_subset.2 ⟨List.subset_append_left _ _, fun o ho => ?_⟩
    exact List.mem_append_right _ (mem_added_toReach ho)
  · exact (distinct_reach_iff h.distinct now desired).2
      (proper.distinct.sublist (List.filter_sublist.map _))

/-- And so it is to its end. -/
theorem Grounded.reach (h : c.Grounded) (proper : ProperHosts desired) :
    (c.reach now desired).Grounded :=
  (h.toldArrivals now proper).applyChange (h.inStep.reach h.distinct.oneLevel now proper)

/-- **The way to a list of hosts** leaves nothing behind. -/
theorem Current.reach (current : c.Current) (h : c.Grounded) (proper : ProperHosts desired) :
    (c.reach now desired).Current := by
  refine Current.applyChange ?_ (h.toldArrivals now proper)
  have informed := current.advance h (set_informChecker (c.withArrivals desired) now
    (MembershipChange.toReach c.hosts c.set desired).1.levels)
    (congrArg Balancing.engine? (balancing_informChecker (c.withArrivals desired) now _))
    (advances_arrivals c now desired)
  refine informed.applyLevels ((h.inStep.outside _).informChecker now _)
    (MembershipChange.nodup_toReach c.hosts c.set desired) fun part hpart => ?_
  rw [set_informChecker]
  exact MembershipChange.fits_toReach h.distinct.levels h.distinct.oneLevel c.hosts proper hpart

end Lists

/-! ## Operations -/

/-- Requests see the hosts and the subsets as they stand. -/
structure Published (c : Cluster) : Prop where
  set : c.snapshot.set = c.set
  view : ∀ e, c.balancing.engine? = some e → c.snapshot.chooser = .subsets e.view

/-- Everything is current and published, and stands on firm ground. -/
structure Tidy (c : Cluster) : Prop where
  grounded : c.Grounded
  current : c.Current
  published : c.Published

/-- What is published is what there is. -/
theorem published_publish (c : Cluster) : c.publish.Published := by
  refine ⟨rfl, fun e he => ?_⟩
  rw [engine?_publish, Balancing.engine?_eq_some] at he
  rw [publish, he]
  rfl

/-- A cluster that is current lacks nothing but to be published. -/
theorem tidy_publish (h : c.Grounded) (current : c.Current) : c.publish.Tidy :=
  ⟨h.congr h.inStep.publish (fun _ => rfl) (Nat.le_refl _), current.publish, published_publish c⟩

/-- A refresh makes a cluster tidy, however far behind it was. Only the ground has to be firm. -/
theorem tidy_refresh (h : c.Grounded) : c.refresh.Tidy :=
  ⟨h.congr h.inStep.refresh (PrioritySet.hostsAt_refreshHealth c.hosts) (Nat.le_refl _),
    current_refresh c, published_publish _⟩

/-- What discovery says leaves a cluster tidy, if the hosts have numbers of their own and none of
them is at another level. -/
theorem Tidy.changeMembership (h : c.Tidy) (now priority : Nat) {added : List Host}
    (removed : List String) (distinct : (added.map (·.address)).Nodup)
    (apart : ∀ a ∈ added, ∀ found ∈ c.set.find? a.address, found.1 = priority)
    (flat : ∀ o ∈ added, o.Flat) (numbers : c.hosts.Numbers (c.set.hosts ++ added)) :
    (c.changeMembership now priority added removed).Tidy := by
  have inStep := h.grounded.inStep
  have fits : ∀ part ∈ [LevelChange.ofAddresses c.set priority added removed],
      part.Fits c.set := by
    intro part hpart
    rw [List.mem_singleton.1 hpart]
    exact LevelChange.fits_ofAddresses h.grounded.distinct.levels priority distinct flat removed
  have told : (c.told now ⟨[.ofAddresses c.set priority added removed], []⟩).Grounded := by
    refine Grounded.told inStep (by simp) fits ?_ ?_
    · rw [List.flatMap_singleton]
      exact numbers
    · exact (distinct_changeMembership_iff h.grounded.distinct now priority added removed).2
        ⟨distinct, apart⟩
  exact tidy_publish (told.applyChange (inStep.applyChange now (by simp) fits))
    ((h.current.tell now removed h.grounded apart numbers).applyChange told)

/-- A list of hosts leaves a cluster tidy. A list that is the same as before changes nothing at
all. -/
theorem Tidy.setHosts (h : c.Tidy) (now : Nat) {desired : List HostConfig}
    (proper : ProperHosts desired) : (c.setHosts now desired).Tidy := by
  rw [Cluster.setHosts]
  dsimp only
  split
  · exact h
  · have grounded := h.grounded.reach now proper
    have current := h.current.reach now h.grounded proper
    exact tidy_publish (grounded.withConfig _) (current.advance grounded rfl rfl (.refl _ []))

/-! ### Changes of configuration -/

/-- Another checker may change the health of all hosts. It drops none of them. -/
theorem size_adoptChecker (c : Cluster) (now : Nat) (checker : Option (Option Checker)) :
    c.hosts.states.size ≤ (c.adoptChecker now checker).hosts.states.size := by
  have cleared (checker : Option Checker) := HostTable.advances_clearVerdicts c.hosts c.set.hosts
    (checkCount checker) (checkCount c.checker)
  cases checker with
  | none => exact Nat.le_refl _
  | some checker =>
    cases checker with
    | none => exact (cleared none).size
    | some checker =>
      exact Nat.le_trans (cleared (some checker)).size (checker.advances_adopt _ now _).size

/-- A change of configuration computes everything anew in the end, for the hosts as they are by
then. -/
theorem Tidy.configured (h : c.Tidy) {now : Nat} {config : ClusterConfig}
    (flat : ∀ d ∈ config.hosts, d.metadata.Flat) {result : Except ConfigError Unit}
    (configured : c.Configured now config result c') : c'.Tidy := by
  cases configured with
  | turnedDown => exact h
  | @taken checker weighed balancing prepared adopted built =>
    obtain ⟨_, hvalid, -⟩ := Except.bind_eq_ok.1 prepared
    have proper : ProperHosts config.hosts := ⟨ClusterConfig.nodup_of_validate hvalid, flat⟩
    have same := hostsAt_adoptWeights? _ adopted
    have replaced : (c.adoptChecker now checker).Grounded :=
      h.grounded.congr (h.grounded.inStep.adoptChecker now checker)
        (fun p => by rw [set_adoptChecker]) (size_adoptChecker c now checker)
    have hweighed : weighed.Grounded := by
      refine replaced.congr (replaced.inStep.adoptWeights? adopted) same ?_
      obtain ⟨set, -, rfl⟩ := (adoptWeights?_eq_some _).1 adopted
      exact Nat.le_refl _
    have reached := hweighed.reach now proper
    -- the health of the levels may be behind until here, so only the ground is followed so far
    have arrived : (weighed.adoptHosts now config).Grounded :=
      reached.congr (reached.inStep.congrSet (PrioritySet.hostsAt_refreshHealth _) rfl)
        (PrioritySet.hostsAt_refreshHealth _) (Nat.le_refl _)
    refine tidy_publish (arrived.congr
      (arrived.inStep.congr (fun _ => rfl) (inStep_of_build built arrived.inStep.flat))
      (fun _ => rfl) (Nat.le_refl _)) ⟨PrioritySet.current_refreshHealth _ _, fun e he => ?_⟩
    -- the subsets are made for the hosts as they are in the end, so they are current as well
    obtain ⟨plan, -, rfl⟩ := engine_of_build built he
    exact SubsetEngine.current_new plan _ _ _ _

/-! ### New clusters -/

/-- A new cluster is tidy: it begins with nobody, and goes the way to its configured hosts. -/
theorem tidy_new {config : ClusterConfig} {transports : List ProbeKind} {numerics : Numerics}
    {now : Nat} (h : Cluster.new config transports numerics now = .ok (.ok c))
    (flat : ∀ d ∈ config.hosts, d.metadata.Flat) : c.Tidy := by
  obtain ⟨opening, isOpening, rfl⟩ := exists_opening h
  have proper : ProperHosts config.hosts := ⟨ClusterConfig.nodup_of_validate isOpening.valid, flat⟩
  -- before the first hosts come there is nobody who could be behind
  have grounded : opening.Grounded :=
    ⟨isOpening.inStep, PrioritySet.distinct_of_nobody isOpening.nobody, by
      rw [isOpening.hosts_eq_nil]
      exact ⟨by simp, by simp⟩⟩
  have current : opening.Current := by
    refine ⟨?_, fun e he => ?_⟩
    · -- configured weights leave the partitions of nobody as they are
      exact everywhere_applyLocalityWeights? isOpening.set (PrioritySet.current_empty _ _)
        (HostSet.lasting_current _) fun _ => trivial
    · obtain ⟨plan, -, rfl⟩ := engine_of_build isOpening.balancing he
      rw [isOpening.hosts]
      exact SubsetEngine.current_new plan _ _ _ _
  exact tidy_publish (grounded.reach now proper) (current.reach now grounded proper)

/-! ### Weights and health -/

/-- What happens to the table without anybody's health being another one needs no notice. -/
theorem Tidy.advance (h : c.Tidy) {hosts : HostTable} (advances : c.hosts.Advances hosts []) :
    ({ c with hosts } : Cluster).Tidy where
  grounded := h.grounded.congr (h.grounded.inStep.outside hosts) (fun _ => rfl) advances.size
  current := h.current.advance h.grounded rfl rfl advances
  published := ⟨h.published.set, h.published.view⟩

/-- The weight of a host has no part in health, but subsets are weighed by it and may have to
follow. -/
theorem Tidy.setHostWeight (h : c.Tidy) (address : String) (weight : Nat) :
    (c.setHostWeight address weight).2.Tidy := by
  rw [Cluster.setHostWeight]
  split
  · exact h
  next host _ =>
    have weighted := h.advance (HostTable.advances_setWeight c.hosts host weight)
    dsimp only
    split
    · exact tidy_refresh weighted.grounded
    · exact weighted

/-- New weights of localities are followed by a refresh. -/
theorem Tidy.setLocalityWeights (h : c.Tidy) (priority : Nat) (weights : LocalityWeights) :
    (c.setLocalityWeights priority weights).Tidy := by
  have same (p : Nat) : (c.set.setLocalityWeights priority weights).hostsAt p = c.set.hostsAt p :=
    PrioritySet.hostsAt_setLocalityWeights priority p weights
  exact tidy_refresh
    (h.grounded.congr (h.grounded.inStep.congrSet same rfl) same (Nat.le_refl _))

/-- Verdicts that change are noted if they change anybody's health. -/
theorem Tidy.noteReported (h : c.Tidy) {checker : Option Checker} {hosts : HostTable}
    {transitions : List Transition} (reported : c.hosts.Reported hosts transitions) :
    ({ c with checker, hosts }.noteTransitions transitions).Tidy := by
  have grounded : ({ c with checker, hosts } : Cluster).Grounded :=
    h.grounded.congr (h.grounded.inStep.congrSet (fun _ => rfl) rfl) (fun _ => rfl) reported.size
  rw [noteTransitions]
  split
  · exact tidy_refresh grounded
  next hquiet =>
    exact ⟨grounded, h.current.advance h.grounded rfl rfl
      (reported.quiet (Bool.eq_false_iff.2 hquiet)), ⟨h.published.set, h.published.view⟩⟩

/-- What a cluster hears from its checker, it notes. -/
theorem Tidy.heard (h : c.Tidy) (heard : c.Heard c') : c'.Tidy := by
  cases heard with
  | nothing => exact h
  | reported _ _ reports => exact h.noteReported reports

/-! ## Whole runs -/

/-- What an operation may bring. A delta has hosts that the table knows, with an address each
that is at no other level; health is for the checker to write. Nobody carries lists in lists. -/
def Operation.Sane (c : Cluster) : Operation → Prop
  | .membership _ priority added _ =>
    (added.map (·.address)).Nodup ∧
      (∀ a ∈ added, ∀ found ∈ c.set.find? a.address, found.1 = priority) ∧
      (∀ o ∈ added, o.Flat) ∧ c.hosts.Numbers (c.set.hosts ++ added)
  | .hosts _ desired => ProperHosts desired
  | .config _ next => ∀ d ∈ next.hosts, d.metadata.Flat
  | .outside table => c.hosts.Advances table []
  | _ => True

/-- **One operation** leaves a cluster tidy. -/
theorem Tidy.perform (h : c.Tidy) {operation : Operation} (sane : operation.Sane c)
    (done : c.perform operation = .ok c') : c'.Tidy := by
  cases operation with
  | membership now priority added removed =>
    cases done
    obtain ⟨distinct, apart, flat, numbers⟩ := sane
    exact h.changeMembership now priority removed distinct apart flat numbers
  | hosts now desired =>
    cases done
    exact h.setHosts now sane
  | config now config =>
    obtain ⟨result, configured⟩ := configured_of_perform done
    exact h.configured sane configured
  | hostWeight address weight =>
    cases done
    exact h.setHostWeight address weight
  | localityWeights priority weights =>
    cases done
    exact h.setLocalityWeights priority weights
  | timers now jitter => exact h.heard (heard_timers done)
  | result now jitter asker key probe result => exact h.heard (heard_deliver done)
  | transitions changed =>
    cases done
    rw [noteTransitions]
    split
    · exact tidy_refresh h.grounded
    · exact h
  | outside hosts =>
    cases done
    exact h.advance sane

/-- A cluster that came about by some operations, each of which was sane when it came. -/
inductive SaneRun : Cluster → Prop where
  | start {config : ClusterConfig} {transports : List ProbeKind} {numerics : Numerics} {now : Nat}
      {c : Cluster} : Cluster.new config transports numerics now = .ok (.ok c) →
      (∀ d ∈ config.hosts, d.metadata.Flat) → SaneRun c
  | step {c c' : Cluster} (operation : Operation) :
      SaneRun c → operation.Sane c → c.perform operation = .ok c' → SaneRun c'

/-- By induction over the operations, each of which leaves a cluster tidy. -/
theorem SaneRun.tidy (run : SaneRun c) : c.Tidy := by
  induction run with
  | start h flat => exact tidy_new h flat
  | step _ _ sane done ih => exact ih.perform sane done

/-- What a message may bring. The hosts of a delta are taken in as it comes, so they have numbers
of their own. -/
def SaneMessage (c : Cluster) : ClusterUpdate → Prop
  | .membership priority added _ =>
    ProperHosts added ∧ ∀ d ∈ added, ∀ found ∈ c.set.find? d.address, found.1 = priority
  | .hosts desired => ProperHosts desired
  | .config next => ∀ d ∈ next.hosts, d.metadata.Flat
  | .stop => True

/-- A message is one operation, or two: the hosts of a delta are taken in before they come. So what
is sane of messages is sane of operations. -/
theorem SaneRun.handle (run : SaneRun c) {now : Nat} {message : ClusterUpdate}
    (sane : c.SaneMessage message) (done : c.handle now message = .ok c') : SaneRun c' := by
  cases message with
  | membership priority added removed =>
    obtain ⟨proper, apart⟩ := sane
    -- the hosts are taken into the table first, and then they come
    have enrolled : SaneRun { c with hosts := (c.hosts.enrollAll added).2 } :=
      run.step (.outside (c.hosts.enrollAll added).2)
        (HostTable.advances_enrollAll c.hosts added) rfl
    have membership : Operation.Sane { c with hosts := (c.hosts.enrollAll added).2 }
        (.membership now priority (c.hosts.enrollAll added).1 removed) := by
      refine ⟨?_, fun a ha => ?_, fun a ha => ?_, run.tidy.grounded.numbers.enrollAll added⟩
      · rw [HostTable.addresses_enrollAll]
        exact proper.distinct
      · obtain ⟨d, hd, haddress, -⟩ := HostTable.exists_of_mem_enrollAll ha
        rw [haddress]
        exact apart d hd
      · obtain ⟨d, hd, -, hmetadata⟩ := HostTable.exists_of_mem_enrollAll ha
        rw [Host.Flat, hmetadata]
        exact proper.flat d hd
    exact enrolled.step _ membership done
  | hosts desired => exact run.step (.hosts now desired) sane done
  | config config => exact run.step (.config now config) sane done
  | stop =>
    cases done
    exact run

/-- The partitions of all levels and of all subsets are by the health that hosts have now, and
they are what is published. -/
structure UpToDate (c : Cluster) : Prop where
  levels : c.set.MatchesHealth c.hosts
  subsets : ∀ e, c.balancing.engine? = some e → e.Throughout fun s => s.set.MatchesHealth c.hosts
  published : c.Published

/-- **Partitions are never out of date**, whatever happened to a cluster. -/
theorem SaneRun.upToDate (run : SaneRun c) : c.UpToDate where
  levels := run.tidy.current.set.matchesHealth
  subsets e he := (run.tidy.current.engine e he).imp fun _ hs => hs.matchesHealth
  published := run.tidy.published

/-! ### A host that comes again -/

section Probed

/-- A cluster with subsets whose hosts are probed. -/
def probedConfig : ClusterConfig :=
  { stagedConfig with checks := [{ CheckConfig.standard with healthyThreshold := 1 }] }

/-- The cluster as it opens, with two hosts that wait for their first probe. -/
def probedCluster : Cluster :=
  ((Cluster.new probedConfig [.tcp] .float 0).toOption.bind Except.toOption).get (by decide +kernel)

/-- Both hosts are probed. -/
def probingCluster : Cluster :=
  (probedCluster.perform (.timers 0 fun _ => (0, 0))).toOption.get (by decide +kernel)

/-- One of them passes. -/
def passedCluster : Cluster :=
  (probingCluster.perform
    (.result 5 (fun _ => (0, 0)) 0 ⟨"a", 0⟩ 3 (.ok .healthy))).toOption.get (by decide +kernel)

/-- The host that passed. -/
def passedHost : Host :=
  { id := 0, address := "a", locality := default, metadata := .ofList [("stage", .text "prod")] }

/-- Discovery adds it a second time. Its new session begins with another verdict. -/
def doubtedCluster : Cluster :=
  passedCluster.changeMembership 9 0 [passedHost] []

/-- The host is healthy once it passed, and is not when it comes again. Both times partitions
follow, those of the subsets as well. -/
theorem upToDate_doubtedCluster :
    passedCluster.UpToDate ∧ passedCluster.set.levels.map (·.healthy) = [[passedHost]] ∧
      doubtedCluster.UpToDate ∧ doubtedCluster.set.levels.map (·.healthy) = [[]] ∧
      doubtedCluster.balancing.engine?.isSome = true := by
  have started : SaneRun probedCluster :=
    .start (Except.eq_ok_ok_get (by decide +kernel)) (by decide)
  have probing : SaneRun probingCluster :=
    started.step (.timers 0 fun _ => (0, 0)) trivial (Except.eq_ok_get _)
  have passed : SaneRun passedCluster :=
    probing.step (.result 5 (fun _ => (0, 0)) 0 ⟨"a", 0⟩ 3 (.ok .healthy)) trivial
      (Except.eq_ok_get _)
  have doubted : SaneRun doubtedCluster :=
    passed.step (.membership 9 0 [passedHost] [])
      ⟨by decide, by decide +kernel, by decide, by decide +kernel⟩ rfl
  exact ⟨passed.upToDate, by decide +kernel, doubted.upToDate, by decide +kernel,
    by decide +kernel⟩

end Probed

end Cluster

end LoadBalancing
