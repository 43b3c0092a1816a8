/-
Which hosts of a cluster have their health sessions, after any run.

Membership is kept by level, and sessions are kept by address alone. So the checker does
not know the level that a notice speaks of: when a host leaves one level, all sessions at
its address end, also those of a host that came to another level in the meantime. That
host stays in the cluster without a session, and its verdicts do not change any more.

What the checker knows is what it was told. The notices of a run are gathered in one
history, and the sessions are those of the hosts that are present by this history. Such a
host always is one of the cluster (`Tended`). Whether every host of the cluster has its
sessions is therefore the same as whether every host of the cluster is present by the
history (`Story.sessions_iff`): the last thing said about its address is that it came.
-/
import LoadBalancing.Proofs.Check.Watch
import LoadBalancing.Proofs.Check.Watched
import LoadBalancing.Proofs.Cluster.Rejection

set_option autoImplicit false

namespace LoadBalancing

/-! ## What a cluster says to its checker -/

namespace LevelChange

/-- What is said about a membership change: first who leaves, then who comes. -/
def notices (levels : List LevelChange) : List Notice :=
  (levels.flatMap (·.removed)).map .left ++ (levels.flatMap (·.added)).map .came

theorem notices_eq_nil {levels : List LevelChange} (h : levels.all (·.isEmpty) = true) :
    notices levels = [] := by
  rw [List.all_eq_true] at h
  have hempty (change : LevelChange) (hmem : change ∈ levels) :
      change.added = [] ∧ change.removed = [] := by
    have := h change hmem
    rwa [isEmpty, Bool.and_eq_true, List.isEmpty_iff, List.isEmpty_iff] at this
  rw [notices, List.flatMap_eq_nil_iff.2 fun change hmem => (hempty change hmem).2,
    List.flatMap_eq_nil_iff.2 fun change hmem => (hempty change hmem).1]
  rfl

end LevelChange

namespace Cluster

/-- What is said on the way to a list of hosts. -/
def noticesToReach (c : Cluster) (desired : List HostConfig) : List Notice :=
  LevelChange.notices (MembershipChange.toReach c.hosts c.set desired).1.levels

/-- What is said in an operation. A new checker hears of all hosts that are there. -/
def notices (c : Cluster) : Operation → List Notice
  | .membership _ priority added removed =>
    LevelChange.notices [.ofAddresses c.set priority added removed]
  | .hosts _ desired => c.noticesToReach desired
  | .config now config =>
    match c.prepare config with
    | .error _ => []
    | .ok checker =>
      match (c.adoptChecker now checker).adoptWeights? config with
      | none => []
      | some weighed =>
        (if checker.isSome then c.set.hosts.map .came else []) ++
          weighed.noticesToReach config.hosts
  | _ => []

/-- One level after the other, a checker hears of all who leave. -/
theorem hears_foldl_remove (k : Checker) (levels : List LevelChange) :
    k.Hears ((levels.flatMap (·.removed)).map .left)
      (levels.foldl (fun k l => k.remove l.removed) k) := by
  induction levels generalizing k with
  | nil => exact (Checker.SameWatch.refl k).hears
  | cons change rest ih =>
    rw [List.flatMap_cons, List.map_append, List.foldl_cons]
    exact (k.hears_remove change.removed).trans (ih _)

/-- One level after the other, it hears of all who come. -/
theorem hears_foldl_add (k : Checker) (t : HostTable) (now : Nat) (levels : List LevelChange) :
    k.Hears ((levels.flatMap (·.added)).map .came)
      (levels.foldl (fun (k, t) l => k.add t now l.added) (k, t)).1 := by
  induction levels generalizing k t with
  | nil => exact (Checker.SameWatch.refl k).hears
  | cons change rest ih =>
    rw [List.flatMap_cons, List.map_append, List.foldl_cons]
    exact (k.hears_add t now change.added).trans (ih _ _)

/-- The notices of a membership change are what the checker hears. -/
theorem hears_informChecker (c : Cluster) (now : Nat) (levels : List LevelChange) {k : Checker}
    (hk : c.checker = some k) :
    ∃ k', (c.informChecker now levels).checker = some k' ∧
      k.Hears (LevelChange.notices levels) k' := by
  refine ⟨_, ?_, (hears_foldl_remove k levels).trans (hears_foldl_add _ c.hosts now levels)⟩
  rw [informChecker, hk]

theorem checker_informChecker_none (c : Cluster) (now : Nat) (levels : List LevelChange)
    (hk : c.checker = none) : (c.informChecker now levels).checker = none := by
  rw [informChecker, hk]
  exact hk

/-! ## The invariant -/

/-- Whoever is present by the history is a host of the set. -/
def AllPresent (s : PrioritySet) (history : List Notice) : Prop :=
  ∀ address h, Notice.present history address = some h → h ∈ s.hosts ∧ h.address = address

/-- The sessions of a cluster are those of the hosts that are present by its history, one
for each check, and whoever is present is a host of the cluster. -/
structure Tended (c : Cluster) (history : List Notice) : Prop where
  present : AllPresent c.set history
  checks : ∀ k, c.checker = some k → k.checks ≠ []
  watched : ∀ k, c.checker = some k → ∀ key, k.watched key =
    if key.check < k.checks.length then Notice.present history key.address else none

variable {c c' : Cluster} {history : List Notice}

theorem AllPresent.congr {s s' : PrioritySet} (h : AllPresent s history)
    (hosts : ∀ p, s'.hostsAt p = s.hostsAt p) : AllPresent s' history := by
  intro address host hpresent
  obtain ⟨hmem, haddress⟩ := h address host hpresent
  obtain ⟨p, hp⟩ := PrioritySet.mem_hosts.1 hmem
  exact ⟨PrioritySet.mem_hosts.2 ⟨p, by rwa [hosts]⟩, haddress⟩

/-- If all hosts of the set come once more, nothing that was said before counts: whoever was
present at an address is there, and so is one of those who come. -/
theorem AllPresent.present_append_came {s : PrioritySet} (h : AllPresent s history)
    (address : String) :
    Notice.present (history ++ s.hosts.map .came) address =
      Notice.settle (s.hosts.map .came) address none := by
  rw [Notice.present, Notice.settle_append]
  rcases Notice.settle_came s.hosts address none with ⟨nobody, -⟩ | ⟨last, -, -, hlast⟩
  · have habsent : Notice.present history address = none := by
      cases hpresent : Notice.present history address with
      | none => rfl
      | some host =>
        obtain ⟨hmem, haddress⟩ := h address host hpresent
        exact absurd haddress (nobody host hmem)
    rw [← Notice.present, habsent]
  · rw [hlast, hlast]

/-- Whatever says nothing and moves no host keeps all in place. -/
theorem Tended.congr (h : c.Tended history)
    (hosts : ∀ p, c'.set.hostsAt p = c.set.hostsAt p)
    (checker : ∀ k', c'.checker = some k' → ∃ k, c.checker = some k ∧ k.SameWatch k') :
    c'.Tended history where
  present := h.present.congr hosts
  checks k' hk' := by
    obtain ⟨k, hk, same⟩ := checker k' hk'
    rw [same.checks]
    exact h.checks k hk
  watched k' hk' key := by
    obtain ⟨k, hk, same⟩ := checker k' hk'
    rw [same.watched, same.checks]
    exact h.watched k hk key

/-- The same, where the checker is not touched at all. -/
theorem Tended.congrSet (h : c.Tended history) (hosts : ∀ p, c'.set.hostsAt p = c.set.hostsAt p)
    (checker : c'.checker = c.checker) : c'.Tended history :=
  h.congr hosts fun k hk => ⟨k, checker ▸ hk, .refl k⟩

/-! ## Membership changes -/

/-- Those who came in a membership change, and those who were there and were not spoken of,
are hosts of the cluster afterwards. -/
theorem AllPresent.applyLevels (h : AllPresent c.set history) {levels : List LevelChange}
    (distinct : (levels.map (·.priority)).Nodup) :
    AllPresent (levels.foldl applyLevel c).set (history ++ LevelChange.notices levels) := by
  intro address host hpresent
  rw [Notice.present, Notice.settle_append, LevelChange.notices, Notice.settle_append] at hpresent
  rcases Notice.settle_came (levels.flatMap (·.added)) address
    (Notice.settle ((levels.flatMap (·.removed)).map .left) address
      (Notice.settle history address none)) with ⟨nobody, hsame⟩ | ⟨last, hlast, haddress, hsettle⟩
  · -- nobody came to this address, so whoever is there now was there before and did not leave
    rw [hsame, Notice.settle_left] at hpresent
    split at hpresent
    · cases hpresent
    next stays =>
      obtain ⟨hmem, haddress⟩ := h address host hpresent
      obtain ⟨p, hp⟩ := PrioritySet.mem_hosts.1 hmem
      refine ⟨PrioritySet.mem_hosts.2 ⟨p, ?_⟩, haddress⟩
      by_cases hlevel : p ∈ levels.map (·.priority)
      · -- its level changes, but nobody who comes or leaves there has its address
        obtain ⟨change, hchange, rfl⟩ := List.mem_map.1 hlevel
        rw [hostsAt_applyLevels c distinct hchange, List.mem_append, List.mem_filter]
        refine .inl ⟨hp, ?_⟩
        have hkept : ¬ HostSet.isDropped change.added change.removed host = true := by
          rw [HostSet.isDropped_iff, haddress]
          rintro (⟨o, ho, hoa⟩ | ⟨o, ho, hoa⟩)
          · exact stays ⟨o, List.mem_flatMap.2 ⟨change, hchange, ho⟩, hoa⟩
          · exact nobody o (List.mem_flatMap.2 ⟨change, hchange, ho⟩) hoa
        simpa using hkept
      · rwa [hostsAt_applyLevels_of_not_mem c hlevel]
  · -- the last one who came is at the end of its level
    rw [hsettle] at hpresent
    cases hpresent
    obtain ⟨change, hchange, hadded⟩ := List.mem_flatMap.1 hlast
    refine ⟨PrioritySet.mem_hosts.2 ⟨change.priority, ?_⟩, haddress⟩
    rw [hostsAt_applyLevels c distinct hchange]
    exact List.mem_append_right _ hadded

/-- **A membership change.** Its notices are added to the history, and the sessions follow. -/
theorem Tended.applyChange (h : c.Tended history) (now : Nat) {change : MembershipChange}
    (distinct : (change.levels.map (·.priority)).Nodup) :
    (c.applyChange now change).Tended (history ++ LevelChange.notices change.levels) := by
  have informed (k' : Checker) (hk' : (c.applyChange now change).checker = some k') :
      ∃ k, c.checker = some k ∧ k.Hears (LevelChange.notices change.levels) k' := by
    rw [checker_applyChange] at hk'
    cases hk : c.checker with
    | none =>
      -- a membership change makes no checker where there was none
      rw [checker_informChecker_none c now change.levels hk] at hk'
      cases hk'
    | some k =>
      obtain ⟨k'', hk'', hears⟩ := hears_informChecker c now change.levels hk
      rw [hk''] at hk'
      cases hk'
      exact ⟨k, rfl, hears⟩
  refine ⟨?_, fun k' hk' => ?_, fun k' hk' key => ?_⟩
  · rw [set_applyChange]
    refine AllPresent.applyLevels ?_ distinct
    rw [set_informChecker]
    exact h.present
  · obtain ⟨k, hk, hears⟩ := informed k' hk'
    rw [hears.checks]
    exact h.checks k hk
  · obtain ⟨k, hk, hears⟩ := informed k' hk'
    rw [hears.watched, hears.checks, h.watched k hk]
    by_cases inRange : key.check < k.checks.length
    · rw [if_pos inRange, if_pos inRange, if_pos inRange, Notice.present, Notice.present,
        Notice.settle_append]
    · rw [if_neg inRange, if_neg inRange, if_neg inRange]

theorem Tended.outside (h : c.Tended history) (hosts : HostTable) :
    ({ c with hosts } : Cluster).Tended history :=
  ⟨h.present, h.checks, h.watched⟩

theorem Tended.withConfig (h : c.Tended history) (config : ClusterConfig) :
    ({ c with config } : Cluster).Tended history :=
  ⟨h.present, h.checks, h.watched⟩

theorem Tended.reach (h : c.Tended history) (now : Nat) (desired : List HostConfig) :
    (c.reach now desired).Tended (history ++ c.noticesToReach desired) :=
  (h.outside _).applyChange now (MembershipChange.nodup_toReach c.hosts c.set desired)

theorem Tended.publish (h : c.Tended history) : c.publish.Tended history :=
  h.congrSet (fun _ => rfl) rfl

theorem Tended.changeMembership (h : c.Tended history) (now priority : Nat) (added : List Host)
    (removed : List String) :
    (c.changeMembership now priority added removed).Tended
      (history ++ LevelChange.notices [.ofAddresses c.set priority added removed]) :=
  Tended.publish (h.applyChange now (by simp))

theorem Tended.setHosts (h : c.Tended history) (now : Nat) (desired : List HostConfig) :
    (c.setHosts now desired).Tended (history ++ c.noticesToReach desired) := by
  rw [Cluster.setHosts]
  dsimp only
  split
  next hempty =>
    rw [MembershipChange.isEmpty, Bool.and_eq_true] at hempty
    rw [noticesToReach, LevelChange.notices_eq_nil hempty.1, List.append_nil]
    exact h
  next => exact ((h.reach now desired).withConfig _).publish

/-! ## Changes of configuration -/

/-- A checker that was just built is fresh and has checks. -/
theorem eq_fresh_of_buildChecker {config : ClusterConfig} {transports : List ProbeKind}
    {k : Checker} (h : buildChecker config transports = .ok (some k)) :
    k = .fresh k.checks ∧ k.checks ≠ [] := by
  rw [buildChecker] at h
  split at h
  · cases h
  next hchecks =>
    obtain ⟨k', hnew, heq⟩ := Except.map_eq_ok.1 h
    cases heq
    obtain ⟨hfresh, hlength, -⟩ := Checker.eq_fresh_of_new hnew
    refine ⟨hfresh, fun hnil => hchecks ?_⟩
    rw [hnil, List.length_nil] at hlength
    rw [List.isEmpty_iff, ← List.length_eq_zero_iff, ← hlength]

theorem buildChecker_of_prepare {config : ClusterConfig} {checker : Option Checker}
    (h : c.prepare config = .ok (some checker)) :
    buildChecker config c.transports = .ok checker := by
  rw [prepare] at h
  obtain ⟨-, -, h⟩ := Except.bind_eq_ok.1 h
  dsimp only at h
  split at h
  · -- the checks are those there are, so there is no new checker
    obtain ⟨_, hnone, h⟩ := Except.bind_eq_ok.1 h
    obtain ⟨-, -, h⟩ := Except.bind_eq_ok.1 h
    cases hnone
    cases h
  · obtain ⟨checker', hchecker, h⟩ := Except.bind_eq_ok.1 h
    obtain ⟨-, -, h⟩ := Except.bind_eq_ok.1 h
    obtain ⟨built, hbuilt, rfl⟩ := Except.map_eq_ok.1 hchecker
    cases h
    exact hbuilt

/-- A checker that takes the place of another one hears that all hosts came. As whoever was
present is among them, the sessions are those of the history again. -/
theorem Tended.replaceChecker (h : c.Tended history) (now : Nat) {config : ClusterConfig}
    {checker : Option Checker} (built : buildChecker config c.transports = .ok checker) :
    (c.replaceChecker now checker).Tended (history ++ c.set.hosts.map .came) := by
  have hset : (c.replaceChecker now checker).set = c.set := by
    cases checker <;> rfl
  have adopted (k' : Checker) (hk' : (c.replaceChecker now checker).checker = some k') :
      ∃ k : Checker, (∀ key, k.watched key = none) ∧ k.checks ≠ [] ∧
        k.Hears (c.set.hosts.map .came) k' := by
    cases checker with
    | none => cases hk'
    | some k =>
      -- a checker that was just built watches nobody
      obtain ⟨hfresh, hchecks⟩ := eq_fresh_of_buildChecker built
      have hnone (key : SessionKey) : k.watched key = none :=
        Checker.watched_eq_none (by rw [hfresh]; rfl) key
      rw [Cluster.replaceChecker] at hk'
      obtain rfl := Option.some.inj hk'
      exact ⟨k, hnone, hchecks, k.hears_adopt _ now c.set.hosts⟩
  refine ⟨?_, ?_, ?_⟩
  · intro address host hpresent
    rw [h.present.present_append_came] at hpresent
    rw [hset]
    rcases Notice.settle_came c.set.hosts address none with
      ⟨-, hsame⟩ | ⟨last, hmem, haddress, hlast⟩
    · rw [hsame] at hpresent
      cases hpresent
    · rw [hlast] at hpresent
      cases hpresent
      exact ⟨hmem, haddress⟩
  · intro k' hk'
    obtain ⟨k, hfresh, hchecks, hears⟩ := adopted k' hk'
    rw [hears.checks]
    exact hchecks
  · -- a fresh checker watches nobody before it hears of the hosts
    intro k' hk' key
    obtain ⟨k, hfresh, hchecks, hears⟩ := adopted k' hk'
    rw [hears.watched, hears.checks, hfresh key, h.present.present_append_came]

theorem Tended.adoptWeights? (h : c.Tended history) {config : ClusterConfig}
    (adopted : c.adoptWeights? config = some c') : c'.Tended history := by
  have same := hostsAt_adoptWeights? c adopted
  obtain ⟨set, -, rfl⟩ := (adoptWeights?_eq_some c).1 adopted
  exact h.congrSet same rfl

theorem Tended.adoptHosts (h : c.Tended history) (now : Nat) (config : ClusterConfig) :
    (c.adoptHosts now config).Tended (history ++ c.noticesToReach config.hosts) :=
  (h.reach now config.hosts).congrSet (fun p => PrioritySet.hostsAt_refreshHealth _ p) rfl

/-- **A change of configuration**, taken or not. -/
theorem Tended.configured (h : c.Tended history) {now : Nat} {config : ClusterConfig}
    {result : Except ConfigError Unit} (configured : c.Configured now config result c') :
    c'.Tended (history ++ c.notices (.config now config)) := by
  cases configured with
  | turnedDown unprepared =>
    rw [notices, unprepared, List.append_nil]
    exact h
  | @taken checker weighed balancing prepared adopted built =>
    have replaced : (c.adoptChecker now checker).Tended
        (history ++ if checker.isSome then c.set.hosts.map .came else []) := by
      cases checker with
      | none =>
        rw [Option.isSome_none, if_neg Bool.false_ne_true, List.append_nil]
        exact h
      | some checker => exact h.replaceChecker now (buildChecker_of_prepare prepared)
    have arrived := (replaced.adoptWeights? adopted).adoptHosts now config
    simp only [notices, prepared, adopted]
    rw [← List.append_assoc]
    -- a new balancer has no part in who is watched
    refine Tended.publish ?_
    exact arrived.congrSet (fun _ => rfl) rfl

/-! ## Whole runs -/

theorem Tended.noteTransitions (h : c.Tended history) (changed : List Transition) :
    (c.noteTransitions changed).Tended history :=
  h.congrSet (hostsAt_noteTransitions c changed) (checker_noteTransitions c changed)

theorem Tended.heard (h : c.Tended history) (heard : c.Heard c') : c'.Tended history := by
  cases heard with
  | nothing => exact h
  | reported here watch =>
    apply Tended.noteTransitions
    refine h.congr (fun _ => rfl) fun k' hk' => ?_
    cases hk'
    exact ⟨_, here, watch⟩

theorem Tended.setHostWeight (h : c.Tended history) (address : String) (weight : Nat) :
    (c.setHostWeight address weight).2.Tended history := by
  rw [Cluster.setHostWeight]
  split
  · exact h
  · dsimp only
    split
    · exact h.congrSet (fun p => by simp) rfl
    · exact h.outside _

/-- **One operation.** The notices of the operation are added to the history. -/
theorem Tended.perform (h : c.Tended history) {operation : Operation}
    (done : c.perform operation = .ok c') :
    c'.Tended (history ++ c.notices operation) := by
  -- nothing is said in most operations
  have silent (tended : c'.Tended history) (hnone : c.notices operation = []) :
      c'.Tended (history ++ c.notices operation) := by
    rw [hnone, List.append_nil]
    exact tended
  cases operation with
  | membership now priority added removed =>
    cases done
    exact h.changeMembership now priority added removed
  | hosts now desired =>
    cases done
    exact h.setHosts now desired
  | config now config =>
    obtain ⟨result, configured⟩ := configured_of_perform done
    exact h.configured configured
  | hostWeight address weight =>
    cases done
    exact silent (h.setHostWeight address weight) rfl
  | localityWeights priority weights =>
    cases done
    refine silent ?_ rfl
    rw [setLocalityWeights]
    exact h.congrSet (fun p => by simp) rfl
  | timers now jitter => exact silent (h.heard (heard_timers done)) rfl
  | result now jitter asker key probe result => exact silent (h.heard (heard_deliver done)) rfl
  | transitions changed =>
    cases done
    exact silent (h.noteTransitions changed) rfl
  | outside hosts =>
    cases done
    exact silent (h.outside hosts) rfl

/-- A cluster that came about by some operations, and all that was said about its hosts on
the way, from the first ones on. -/
inductive Story : Cluster → List Notice → Prop where
  | start {config : ClusterConfig} {transports : List ProbeKind} {numerics : Numerics} {now : Nat}
      {c : Cluster} {opened : PrioritySet} :
      Cluster.new config transports numerics now = .ok (.ok c) →
      openingSet? config = some opened →
      Story c (LevelChange.notices
        (MembershipChange.toReach .empty opened config.hosts).1.levels)
  | step {c c' : Cluster} {history : List Notice} (operation : Operation) :
      Story c history → c.perform operation = .ok c' →
        Story c' (history ++ c.notices operation)

/-- A new cluster. Its checker is fresh, and the first hosts come to empty levels. -/
theorem tended_new {config : ClusterConfig} {transports : List ProbeKind} {numerics : Numerics}
    {now : Nat} {opened : PrioritySet}
    (h : Cluster.new config transports numerics now = .ok (.ok c))
    (hopened : openingSet? config = some opened) :
    c.Tended (LevelChange.notices
      (MembershipChange.toReach .empty opened config.hosts).1.levels) := by
  obtain ⟨opening, isOpening, rfl⟩ := exists_opening h
  have fresh (k : Checker) (hk : opening.checker = some k) : k = .fresh k.checks ∧ k.checks ≠ [] :=
    eq_fresh_of_buildChecker (hk ▸ isOpening.checker)
  have hset := isOpening.set
  rw [hopened] at hset
  cases hset
  apply Tended.publish
  -- before the first hosts come, nothing was noticed about anybody
  rw [← List.nil_append (LevelChange.notices _), ← isOpening.hosts]
  refine Tended.reach ⟨?_, ?_, ?_⟩ now config.hosts
  · intro address host hpresent
    cases hpresent
  · intro k hk
    exact (fresh k hk).2
  · intro k hk key
    rw [Checker.watched_eq_none (by rw [(fresh k hk).1]; rfl)]
    exact (ite_self none).symm

theorem Story.tended (story : Story c history) : c.Tended history := by
  induction story with
  | start h hopened => exact tended_new h hopened
  | step _ _ done ih => exact ih.perform done

/-! ## Who has sessions -/

/-- Every host has one session for each check, and nobody else has any. Under each key
there is at most one session, so having one is having exactly one. -/
structure AllWatched (s : PrioritySet) (k : Checker) : Prop where
  own : ∀ h ∈ s.hosts, ∀ i < k.checks.length,
    ∃ live, k.sessions.get? ⟨h.address, i⟩ = some live ∧ live.session.host = h
  others : ∀ key live, k.sessions.get? key = some live →
    key.check < k.checks.length ∧ ∃ h ∈ s.hosts, h.address = key.address

/-- **Who has sessions.** After any run, all hosts have theirs, and nobody else has any, if
and only if the last thing that was said about the address of each host is that it came.
It fails for a host whose address was told to have left another level after it came. -/
theorem Story.allWatched_iff (story : Story c history) {k : Checker} (hk : c.checker = some k) :
    AllWatched c.set k ↔
      ∀ h ∈ c.set.hosts, Notice.present history h.address = some h := by
  have tended := story.tended
  have hwatched := tended.watched k hk
  constructor
  · -- there is at least one check, and its session tells who came last
    intro all h hh
    have hpos : 0 < k.checks.length := List.length_pos_iff.2 (tended.checks k hk)
    have hown : k.watched ⟨h.address, 0⟩ = some h := Checker.watched_eq_some.2 (all.own h hh 0 hpos)
    rwa [hwatched, if_pos hpos] at hown
  · intro hpresent
    refine ⟨fun h hh i hi => ?_, fun key live hlive => ?_⟩
    · apply Checker.watched_eq_some.1
      rw [hwatched, if_pos hi]
      exact hpresent h hh
    · -- whoever has a session was told to be present, so it is a host of the cluster
      have hhost : k.watched key = some live.session.host :=
        Checker.watched_eq_some.2 ⟨live, hlive, rfl⟩
      rw [hwatched] at hhost
      split at hhost
      next inRange => exact ⟨inRange, _, tended.present key.address _ hhost⟩
      next => cases hhost

/-! ### A host that moves

A host moves from level 0 to level 1 by two changes, each of which speaks of one level.
If it leaves first, all is well. If it comes first, it loses its session when the host
at its old level is told to have left, and nothing ever gives it another one. -/

section Moving

/-- A cluster with one check and one host. -/
def oneHostConfig : ClusterConfig :=
  { ClusterConfig.standard with
    checks := [.standard]
    hosts := [{ address := "a", weight := 1, priority := 0, locality := default, metadata := ∅ }] }

def oneHost : Cluster :=
  ((Cluster.new oneHostConfig [.tcp] .float 0).toOption.bind Except.toOption).get
    (by decide +kernel)

/-- Its levels before the host comes. -/
def oneHostOpened : PrioritySet :=
  (openingSet? oneHostConfig).get (by decide)

theorem story_oneHost : Story oneHost (LevelChange.notices
    (MembershipChange.toReach .empty oneHostOpened oneHostConfig.hosts).1.levels) :=
  .start (Except.eq_ok_ok_get (by decide +kernel)) (Option.some_get _).symm

/-- The host at its new level. -/
def moved : Host :=
  { id := 1, address := "a", locality := default, metadata := ∅ }

/-- The host leaves level 0, and then it comes to level 1. -/
def leftAndCame : Cluster :=
  (oneHost.changeMembership 0 0 [] ["a"]).changeMembership 0 1 [moved] []

/-- The host comes to level 1, and then it leaves level 0. -/
def cameAndLeft : Cluster :=
  (oneHost.changeMembership 0 1 [moved] []).changeMembership 0 0 [] ["a"]

/-- A host that leaves before it comes has its session. -/
theorem allWatched_leftAndCame :
    ∃ k, leftAndCame.checker = some k ∧ AllWatched leftAndCame.set k := by
  have left : Story (oneHost.changeMembership 0 0 [] ["a"]) _ :=
    story_oneHost.step (.membership 0 0 [] ["a"]) rfl
  have story : Story leftAndCame _ := left.step (.membership 0 1 [moved] []) rfl
  have hsome : leftAndCame.checker.isSome = true := by decide +kernel
  obtain ⟨k, hk⟩ := Option.isSome_iff_exists.1 hsome
  refine ⟨k, hk, (story.allWatched_iff hk).2 ?_⟩
  decide +kernel

/-- A host that comes before it leaves is the only one at its address, and has no session. -/
theorem not_allWatched_cameAndLeft :
    ∃ history k, Story cameAndLeft history ∧ cameAndLeft.checker = some k ∧
      (cameAndLeft.set.hosts.map (·.address)).Nodup ∧ ¬ AllWatched cameAndLeft.set k := by
  have hsome : cameAndLeft.checker.isSome = true := by decide +kernel
  obtain ⟨k, hk⟩ := Option.isSome_iff_exists.1 hsome
  have came : Story (oneHost.changeMembership 0 1 [moved] []) _ :=
    story_oneHost.step (.membership 0 1 [moved] []) rfl
  have story : Story cameAndLeft _ := came.step (.membership 0 0 [] ["a"]) rfl
  refine ⟨_, k, story, hk, by decide +kernel, fun all => ?_⟩
  have hchecks : cameAndLeft.checker.any (fun k => decide (0 < k.checks.length)) = true := by
    decide +kernel
  -- the session went with the address, although the host at the other level stayed
  have hlost : (cameAndLeft.checker.bind fun k => k.sessions.get? ⟨"a", 0⟩) = none := by
    decide +kernel
  rw [hk, Option.any_some, decide_eq_true_eq] at hchecks
  rw [hk, Option.bind_some] at hlost
  obtain ⟨live, hlive, -⟩ := all.own moved (by decide +kernel) 0 hchecks
  rw [show moved.address = "a" from rfl, hlost] at hlive
  cases hlive

end Moving

end Cluster

end LoadBalancing
