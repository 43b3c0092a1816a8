/-
What a new configuration leaves as it is.

A configuration is taken in many parts: another checker may come, the levels may get another
factor and other weights, hosts come and go. A host that the configuration does not change
goes through all of it. It stays what it is and where it is, it keeps the verdicts of the checks
that are left and loses those of the others, and it keeps its sessions, or gets one new session
for each check if the checks are others.

Each part is followed for one such host. What is said about other hosts does not reach it, since
verdicts are written by number, sessions are kept by address, and it has both for itself.
-/
import LoadBalancing.Proofs.Check.Adopted
import LoadBalancing.Proofs.Cluster.Coherent
import LoadBalancing.Proofs.Cluster.Membership

set_option autoImplicit false

namespace LoadBalancing

/-! ## Verdicts -/

namespace HostTable

variable {t : HostTable} {h : Host}

theorem spares_setWeights (t : HostTable) (h : Host) (weights : List (Host × Nat)) :
    t.Spares (Cluster.setWeights t weights).2 h := by
  refine List.foldlRecOn (motive := fun s : Bool × HostTable => t.Spares s.2 h) _ _
    (.refl t h) ?_
  intro s before w _
  exact before.trans (spares_setWeight s.2 w.1 h w.2)

/-- What some checks said about one host is forgotten. -/
theorem verdict_foldl_healthy (known : h.id < t.states.size) (o : Host) {checks : List Nat}
    (hchecks : ∀ j ∈ checks, j < maxHealthChecks) {i : Nat} (hi : i < maxHealthChecks) :
    (checks.foldl (fun t j => (t.setVerdict o j .healthy).2) t).verdict h i =
      if o.id = h.id ∧ i ∈ checks then .healthy else t.verdict h i := by
  induction checks generalizing t with
  | nil => simp
  | cons j rest ih =>
    have hj := hchecks j List.mem_cons_self
    have later : h.id < (t.setVerdict o j .healthy).2.states.size := by
      rwa [setVerdict, size_modify]
    rw [List.foldl_cons, ih later fun k hk => hchecks k (List.mem_cons_of_mem _ hk),
      verdict_setVerdict known hj hi]
    by_cases hid : o.id = h.id
    · by_cases hij : i = j
      · simp [hid, hij]
      · simp [hid, hij]
    · simp [hid]

theorem size_foldl_setVerdict (t : HostTable) (o : Host) (checks : List Nat) (v : Health) :
    (checks.foldl (fun t j => (t.setVerdict o j v).2) t).states.size = t.states.size := by
  induction checks generalizing t with
  | nil => rfl
  | cons j rest ih => rw [List.foldl_cons, ih, setVerdict, size_modify]

/-- What the checks from `first` up to `last` said about some hosts is forgotten. -/
theorem verdict_clearVerdicts (known : h.id < t.states.size) (hosts : List Host)
    (first : Nat) {last i : Nat} (hlast : last ≤ maxHealthChecks) (hi : i < maxHealthChecks) :
    (Cluster.clearVerdicts t hosts first last).verdict h i =
      if (∃ o ∈ hosts, o.id = h.id) ∧ first ≤ i ∧ i < last then .healthy
      else t.verdict h i := by
  have hrange (j : Nat) : j ∈ List.range' first (last - first) ↔ first ≤ j ∧ j < last := by
    rw [List.mem_range'_1]
    omega
  have hchecks (j : Nat) (hj : j ∈ List.range' first (last - first)) : j < maxHealthChecks := by
    have := (hrange j).1 hj
    omega
  induction hosts generalizing t with
  | nil => simp [Cluster.clearVerdicts]
  | cons o rest ih =>
    -- clearing writes to hosts that are there and adds none, so the table keeps its size
    have later : h.id < ((List.range' first (last - first)).foldl
        (fun t j => (t.setVerdict o j .healthy).2) t).states.size := by
      rwa [size_foldl_setVerdict]
    rw [Cluster.clearVerdicts, List.foldl_cons, ← Cluster.clearVerdicts, ih later,
      verdict_foldl_healthy known o hchecks hi]
    simp only [hrange]
    by_cases hid : o.id = h.id
    · by_cases hi' : first ≤ i ∧ i < last
      · simp [hid, hi']
      · simp [hid, hi']
    · simp [hid]

end HostTable

/-! ## The way to a list of hosts -/

namespace Cluster

open MembershipChange (arrivals departures)

variable {c c' : Cluster} {h : Host} {p : Nat} {desired : List HostConfig}

/-- At each level, the hosts that a list does not change stay in their order, and those who come
stand behind them. -/
theorem hostsAt_reach (distinct : c.set.Distinct) (once : (desired.map (·.address)).Nodup)
    (now p : Nat) :
    (c.reach now desired).set.hostsAt p =
      (c.set.hostsAt p).filter (fun h => decide (h.UnchangedIn p desired)) ++
        LevelChange.atLevel p (arrivals c.hosts c.set desired) := by
  have change := changes_gather (c.withArrivals desired) now (arrivals c.hosts c.set desired)
    (departures c.set desired) (MembershipChange.toReach c.hosts c.set desired).1.weights p
  rw [reach]
  exact change.trans (congrArg (· ++ _)
    (MembershipChange.filter_isDropped_toReach c.hosts distinct once p))

/-! ## Membership changes -/

/-- The session under a key, if there is one. -/
def session? (c : Cluster) (key : SessionKey) : Option LiveSession :=
  c.checker.bind fun k => k.sessions.get? key

theorem session?_eq (checker : c'.checker = c.checker) (key : SessionKey) :
    c'.session? key = c.session? key := by
  rw [session?, session?, checker]

/-- Who comes and who leaves at other addresses does not matter to a session. -/
theorem session?_informChecker {levels : List LevelChange} {key : SessionKey}
    (apart : ∀ l ∈ levels, ∀ o ∈ l.added ++ l.removed, o.address ≠ key.address) (now : Nat) :
    (c.informChecker now levels).session? key = c.session? key := by
  cases hk : c.checker with
  | none => rw [session?, session?, checker_informChecker_none c now levels hk, hk]
  | some k =>
    rw [informChecker, session?, session?, hk]
    -- first those who leave are taken off the watch, and then those who come are put on it
    have removed : (levels.foldl (fun k l => k.remove l.removed) k).sessions.get? key =
        k.sessions.get? key := by
      refine List.foldlRecOn (motive := fun k' : Checker => k'.sessions.get? key =
        k.sessions.get? key) levels _ rfl ?_
      intro k' before l hl
      rw [k'.get?_remove_of_ne fun o ho => apart l hl o (List.mem_append_right _ ho)]
      exact before
    refine List.foldlRecOn (motive := fun s : Checker × HostTable => s.1.sessions.get? key =
      k.sessions.get? key) levels _ removed ?_
    rintro ⟨k', t'⟩ before l hl
    refine Eq.trans ?_ before
    exact k'.get?_startHosts_of_ne now t' _
      fun o ho => apart l hl o (List.mem_append_left _ ho)

theorem spares_informChecker (levels : List LevelChange)
    (apart : ∀ l ∈ levels, ∀ o ∈ l.added, o.id ≠ h.id) (now : Nat) :
    c.hosts.Spares (c.informChecker now levels).hosts h := by
  rw [informChecker]
  cases c.checker with
  | none => exact .refl _ h
  | some k =>
    refine List.foldlRecOn (motive := fun s : Checker × HostTable => c.hosts.Spares s.2 h)
      levels _ (.refl c.hosts h) ?_
    rintro ⟨k', t'⟩ before l hl
    exact before.trans (k'.spares_add now (apart l hl))

/-- A host that is kept keeps its sessions on the way. -/
theorem session?_reach (distinct : c.set.Distinct) (once : (desired.map (·.address)).Nodup)
    (hh : h ∈ c.set.hostsAt p) (unchanged : h.UnchangedIn p desired) (now i : Nat) :
    (c.reach now desired).session? ⟨h.address, i⟩ = c.session? ⟨h.address, i⟩ := by
  have hreach : (c.reach now desired).checker = ((c.withArrivals desired).informChecker now
      (MembershipChange.toReach c.hosts c.set desired).1.levels).checker :=
    checker_applyChange (c.withArrivals desired) now _
  rw [session?_eq hreach]
  refine session?_informChecker (c := c.withArrivals desired) (fun l hl o ho => ?_) now
  exact MembershipChange.address_ne_of_mem_levels distinct once hh unchanged hl ho

/-- Nobody loses verdicts on the way: those who come have numbers of their own. -/
theorem spares_reach (known : h.id < c.hosts.states.size) (now : Nat)
    (desired : List HostConfig) : c.hosts.Spares (c.reach now desired).hosts h := by
  have enrolled : c.hosts.Spares (c.withArrivals desired).hosts h :=
    HostTable.spares_enrollAll known _
  have informed : (c.withArrivals desired).hosts.Spares ((c.withArrivals desired).informChecker now
      (MembershipChange.toReach c.hosts c.set desired).1.levels).hosts h := by
    refine spares_informChecker _ (fun l hl o ho => ?_) now
    have hid := HostTable.id_of_mem_enrollAll (mem_added_toReach (List.mem_flatMap.2 ⟨l, hl, ho⟩))
    omega
  rw [reach]
  dsimp only
  rw [hosts_applyChange]
  exact enrolled.trans (informed.trans (HostTable.spares_setWeights _ h _))

/-! ## Hosts that a configuration does not change -/

section Kept

variable {config : ClusterConfig} {checker : Option (Option Checker)} {now : Nat}

/-- A checker that takes the place of another one writes the verdicts that it finds, after those
of the checks that it does not have are cleared. -/
theorem verdict_replaceChecker (coherent : c.Coherent c.config.checks.length)
    {next : Option Checker} (hbuilt : buildChecker config c.transports = .ok next)
    (hh : h ∈ c.set.hosts) {i : Nat} (hi : i < maxHealthChecks) :
    (c.replaceChecker now next).hosts.verdict h i =
      if config.checks.length ≤ i ∧ i < checkCount c.checker then .healthy
      else c.hosts.verdict h i := by
  obtain ⟨hcount, hfew⟩ := checkCount_of_buildChecker hbuilt
  have known := coherent.numbers.known h hh
  have hlast : checkCount c.checker ≤ maxHealthChecks := coherent.checks ▸ coherent.few
  have cleared := HostTable.verdict_clearVerdicts known c.set.hosts config.checks.length hlast hi
  have size := (HostTable.advances_clearVerdicts c.hosts c.set.hosts config.checks.length
    (checkCount c.checker)).size
  -- the new checker takes verdicts over as it finds them, which is after they were cleared
  have adopted : (c.replaceChecker now next).hosts.verdict h i =
      (clearVerdicts c.hosts c.set.hosts config.checks.length (checkCount c.checker)).verdict
        h i := by
    rw [← hcount]
    cases next with
    | none => rfl
    | some k =>
      have few : k.checks.length ≤ maxHealthChecks := Nat.le_trans (Nat.le_of_eq hcount) hfew
      rw [← hcount] at size
      exact (k.spares_adopt now (Nat.lt_of_lt_of_le known size) few _).verdict i hi
  have here : ∃ o ∈ c.set.hosts, o.id = h.id := ⟨h, hh, rfl⟩
  rw [adopted, cleared]
  simp only [here, true_and]

/-- A host keeps the verdicts of the checks that there are still, and loses any others. -/
theorem verdict_adoptChecker (coherent : c.Coherent c.config.checks.length)
    (prepared : c.prepare config = .ok checker) (hh : h ∈ c.set.hosts)
    (clear : ∀ i < maxHealthChecks, checkCount c.checker ≤ i → c.hosts.verdict h i = .healthy)
    {i : Nat} (hi : i < maxHealthChecks) :
    (c.adoptChecker now checker).hosts.verdict h i =
      if i < config.checks.length then c.hosts.verdict h i else .healthy := by
  have hcount := coherent.checks
  rcases checks_of_prepare prepared with ⟨rfl, hsame⟩ | ⟨next, rfl, -, hbuilt⟩
  · -- the checks that there were are those that there are
    by_cases hlt : i < config.checks.length
    · rw [if_pos hlt]
      rfl
    · rw [if_neg hlt]
      exact clear i hi (by rw [hcount, ← hsame]; omega)
  · rw [adoptChecker, verdict_replaceChecker coherent hbuilt hh hi]
    by_cases hlt : i < config.checks.length
    · rw [if_pos hlt, if_neg (by omega)]
    · rw [if_neg hlt]
      by_cases hlost : i < checkCount c.checker
      · rw [if_pos (by omega)]
      · rw [if_neg (by omega)]
        exact clear i hi (by omega)

theorem spares_adoptHosts (known : h.id < c.hosts.states.size) (config : ClusterConfig) :
    c.hosts.Spares (c.adoptHosts now config).hosts h :=
  spares_reach known now config.hosts

theorem hostsAt_adoptHosts (distinct : c.set.Distinct)
    (once : (config.hosts.map (·.address)).Nodup) (p : Nat) :
    (c.adoptHosts now config).set.hostsAt p =
      (c.set.hostsAt p).filter (fun h => decide (h.UnchangedIn p config.hosts)) ++
        LevelChange.atLevel p (arrivals c.hosts c.set config.hosts) := by
  rw [adoptHosts, PrioritySet.hostsAt_refreshHealth, hostsAt_reach distinct once]

/-- Weights and factors are a matter of the levels alone. -/
theorem session?_adoptWeights? (adopted : c.adoptWeights? config = some c') (key : SessionKey) :
    c'.session? key = c.session? key := by
  obtain ⟨set, -, rfl⟩ := (adoptWeights?_eq_some c).1 adopted
  rfl

theorem hosts_adoptWeights? (adopted : c.adoptWeights? config = some c') :
    c'.hosts = c.hosts ∧ c'.checkerNumber = c.checkerNumber := by
  obtain ⟨set, -, rfl⟩ := (adoptWeights?_eq_some c).1 adopted
  exact ⟨rfl, rfl⟩

/-- A checker that takes the place of another one has one new session of a host for each
check. -/
theorem session?_replaceChecker (distinct : c.set.Distinct) {next : Option Checker}
    (hbuilt : buildChecker config c.transports = .ok next) (hh : h ∈ c.set.hosts)
    (now i : Nat) :
    if i < config.checks.length then
      ∃ epoch, (c.replaceChecker now next).session? ⟨h.address, i⟩ = some ⟨.fresh h i, epoch⟩
    else (c.replaceChecker now next).session? ⟨h.address, i⟩ = none := by
  rw [← (checkCount_of_buildChecker hbuilt).1]
  cases next with
  | none =>
    rw [checkCount, if_neg (Nat.not_lt_zero i)]
    rfl
  | some k =>
    have hfresh : k.sessions = ∅ := by
      rw [(eq_fresh_of_buildChecker hbuilt).1]
      rfl
    -- a fresh checker has no sessions, so all are those of the hosts it is given
    refine k.get?_adopt now hfresh _ hh (fun o ho heq => ?_) i
    exact List.inj_on_of_nodup_map distinct ho hh heq

end Kept

/-- What becomes of the hosts of a cluster that a configuration does not change. -/
structure KeepsHosts (c : Cluster) (config : ClusterConfig) (c' : Cluster) : Prop where
  /-- They stay the same hosts, at their level and in their order; new hosts stand behind. -/
  hosts : ∀ p, ∃ come : List Host, (∀ h ∈ come, c.hosts.states.size ≤ h.id) ∧
    c'.set.hostsAt p =
      (c.set.hostsAt p).filter (fun h => decide (h.UnchangedIn p config.hosts)) ++ come
  factor : ∀ p l, c'.set.level? p = some l → l.overprovisioning = config.common.overprovisioning
  /-- Verdicts of checks that there are still are kept, any others are gone. -/
  verdict : ∀ p, ∀ h ∈ c.set.hostsAt p, h.UnchangedIn p config.hosts → ∀ i < maxHealthChecks,
    c'.hosts.verdict h i = if i < config.checks.length then c.hosts.verdict h i else .healthy
  health : ∀ p, ∀ h ∈ c.set.hostsAt p, h.UnchangedIn p config.hosts →
    c'.hosts.health h = .worst ((List.range config.checks.length).map (c.hosts.verdict h))
  /-- If the checks are the same, so are the sessions. -/
  sameChecks : config.checks = c.config.checks → c'.checkerNumber = c.checkerNumber ∧
    ∀ p, ∀ h ∈ c.set.hostsAt p, h.UnchangedIn p config.hosts → ∀ i,
      c'.session? ⟨h.address, i⟩ = c.session? ⟨h.address, i⟩
  /-- If they are others, there is one new session for each of them, and no other one. -/
  otherChecks : config.checks ≠ c.config.checks → c'.checkerNumber = c.checkerNumber + 1 ∧
    ∀ p, ∀ h ∈ c.set.hostsAt p, h.UnchangedIn p config.hosts → ∀ i,
      if i < config.checks.length then
        ∃ epoch, c'.session? ⟨h.address, i⟩ = some ⟨.fresh h i, epoch⟩
      else c'.session? ⟨h.address, i⟩ = none

/-- **A configuration that is taken keeps the hosts that it does not change**, after any run in
which every address came to be there once and no verdict is left of a check that is not there. -/
theorem Reached.applyConfig_keepsHosts (reached : Reached c) (distinct : c.set.Distinct)
    (clear : ∀ h ∈ c.set.hosts, ∀ i < maxHealthChecks, checkCount c.checker ≤ i →
      c.hosts.verdict h i = .healthy)
    {now : Nat} {config : ClusterConfig} (taken : c.applyConfig now config = .ok (.ok (), c')) :
    c.KeepsHosts config c' := by
  have coherent := reached.coherent
  generalize hresult : (Except.ok () : Except ConfigError Unit) = result at taken
  cases configured_of_applyConfig taken with
  | turnedDown => cases hresult
  | @taken checker weighed balancing prepared adopted built =>
    obtain ⟨_, hvalid, -⟩ := Except.bind_eq_ok.1 prepared
    have once := ClusterConfig.nodup_of_validate hvalid
    have hset := set_adoptChecker c now checker
    have replaced := coherent.adoptChecker now prepared
    -- weights come before the hosts, and do nothing to them
    have same (p : Nat) : weighed.set.hostsAt p = c.set.hostsAt p := by
      rw [hostsAt_adoptWeights? _ adopted, hset]
    obtain ⟨hhosts, hnumber⟩ := hosts_adoptWeights? adopted
    have distinct' : weighed.set.Distinct := (PrioritySet.distinct_congr same).2 distinct
    have number : (weighed.adoptHosts now config).checkerNumber =
        (c.adoptChecker now checker).checkerNumber :=
      (config_reach now weighed config.hosts).2.trans hnumber
    -- verdicts are settled by the checkers; nobody who is known loses any afterwards
    have verdict (p : Nat) (h : Host) (hh : h ∈ c.set.hostsAt p) (i : Nat)
        (hi : i < maxHealthChecks) :
        (weighed.adoptHosts now config).hosts.verdict h i =
          if i < config.checks.length then c.hosts.verdict h i else .healthy := by
      have hmem : h ∈ c.set.hosts := PrioritySet.mem_hosts.2 ⟨p, hh⟩
      have known := replaced.numbers.known h (hset ▸ hmem)
      rw [(spares_adoptHosts (hhosts ▸ known) config).verdict i hi, hhosts]
      exact verdict_adoptChecker coherent prepared hmem (clear h hmem) hi
    have session (p : Nat) (h : Host) (hh : h ∈ c.set.hostsAt p)
        (unchanged : h.UnchangedIn p config.hosts) (i : Nat) :
        (weighed.adoptHosts now config).session? ⟨h.address, i⟩ =
          (c.adoptChecker now checker).session? ⟨h.address, i⟩ := by
      rw [← session?_adoptWeights? adopted]
      exact session?_reach distinct' once (same p ▸ hh) unchanged now i
    exact
      { hosts := fun p => by
          refine ⟨_, fun o ho => ?_, (hostsAt_adoptHosts distinct' once p).trans (by rw [same])⟩
          have hcame := (List.of_mem_zip (LevelChange.mem_atLevel.1 ho)).2
          rw [hhosts] at hcame
          exact Nat.le_trans (size_adoptChecker c now checker)
            (HostTable.id_of_mem_enrollAll hcame).1
        factor := by
          obtain ⟨factor, hfactor⟩ := replaced.factor
          exact (hasFactor_adoptHosts now (hasFactor_adoptWeights? hfactor adopted) config).levels
        verdict := fun p h hh _ i hi => verdict p h hh i hi
        health := fun p h hh _ => by
          have worst := HostTable.health_eq_worst (weighed.adoptHosts now config).hosts h
          rw [Health.worst_range replaced.few (verdict p h hh)] at worst
          exact worst
        sameChecks := fun hsame => by
          rcases checks_of_prepare prepared with ⟨rfl, -⟩ | ⟨next, -, hother, -⟩
          · exact ⟨number, session⟩
          · exact absurd hsame hother
        otherChecks := fun hother => by
          rcases checks_of_prepare prepared with ⟨-, hsame⟩ | ⟨next, rfl, -, hbuilt⟩
          · exact absurd hsame hother
          · refine ⟨number.trans ?_, fun p h hh unchanged i => ?_⟩
            · cases next <;> rfl
            · have fresh := session?_replaceChecker distinct hbuilt
                (PrioritySet.mem_hosts.2 ⟨p, hh⟩) now i
              rw [← adoptChecker, ← session p h hh unchanged i] at fresh
              exact fresh }

/-! ### A check that is dropped -/

section Dropped

/-- Two hosts under two checks. -/
def doubleConfig : ClusterConfig :=
  { ClusterConfig.standard with
    checks := [{ CheckConfig.standard with healthyThreshold := 1 }, .standard]
    hosts := [
      { address := "a", weight := 1, priority := 0, locality := default, metadata := ∅ },
      { address := "b", weight := 1, priority := 0, locality := default, metadata := ∅ }] }

def doubleCluster : Cluster :=
  ((Cluster.new doubleConfig [.tcp] .float 0).toOption.bind Except.toOption).get (by decide +kernel)

/-- All four probes are out. -/
def doubleProbed : Cluster :=
  (doubleCluster.perform (.timers 0 fun _ => (0, 0))).toOption.get (by decide +kernel)

/-- One of the hosts passes the first check, and not the second one. -/
def halfPassed : Cluster :=
  (doubleProbed.perform
    (.result 5 (fun _ => (0, 0)) 0 ⟨"a", 0⟩ 5 (.ok .healthy))).toOption.get (by decide +kernel)

def halfPassedHost : Host :=
  { id := 0, address := "a", locality := default, metadata := ∅ }

/-- The second check is dropped, the factor is another one, and so is the level of the other
host. -/
def singleConfig : ClusterConfig :=
  { doubleConfig with
    common := { doubleConfig.common with overprovisioning := 200 }
    checks := [{ CheckConfig.standard with healthyThreshold := 1 }]
    hosts := [
      { address := "b", weight := 1, priority := 1, locality := default, metadata := ∅ },
      { address := "a", weight := 1, priority := 0, locality := default, metadata := ∅ }] }

/-- The host is healthy as soon as only the check that it passed is left, and is probed anew. -/
theorem applyConfig_keepsHosts_singleConfig :
    Reached halfPassed ∧ halfPassed.set.Distinct ∧
      (∀ h ∈ halfPassed.set.hosts, ∀ i < maxHealthChecks, checkCount halfPassed.checker ≤ i →
        halfPassed.hosts.verdict h i = .healthy) ∧
      halfPassed.hosts.health halfPassedHost = .unhealthy ∧
      ∃ c', halfPassed.applyConfig 9 singleConfig = .ok (.ok (), c') ∧
        c'.hosts.health halfPassedHost = .healthy ∧
        ∃ epoch, c'.session? ⟨"a", 0⟩ = some ⟨.fresh halfPassedHost 0, epoch⟩ := by
  have started : Reached doubleCluster := .start (Except.eq_ok_ok_get (by decide +kernel))
  have probed : Reached doubleProbed :=
    started.step (.timers 0 fun _ => (0, 0)) trivial (Except.eq_ok_get _)
  have reached : Reached halfPassed :=
    probed.step (.result 5 (fun _ => (0, 0)) 0 ⟨"a", 0⟩ 5 (.ok .healthy)) trivial
      (Except.eq_ok_get _)
  have distinct : halfPassed.set.Distinct := by decide +kernel
  have clear : ∀ h ∈ halfPassed.set.hosts, ∀ i < maxHealthChecks,
      checkCount halfPassed.checker ≤ i → halfPassed.hosts.verdict h i = .healthy := by
    decide +kernel
  -- the configuration is taken, and nothing overflows on the way
  obtain ⟨⟨result, c'⟩, answered, accepted⟩ := Except.exists_of_any
    (x := halfPassed.applyConfig 9 singleConfig) (p := fun after => after.1.toOption.isSome)
    (by decide +kernel)
  have taken : halfPassed.applyConfig 9 singleConfig = .ok (.ok (), c') := by
    cases result with
    | ok _ => exact answered
    | error e => cases accepted
  have keeps := reached.applyConfig_keepsHosts distinct clear taken
  -- one host, one check fewer, and the one that is left it has passed
  have there : halfPassedHost ∈ halfPassed.set.hostsAt 0 := by decide +kernel
  have unchanged : halfPassedHost.UnchangedIn 0 singleConfig.hosts := by decide +kernel
  have others : singleConfig.checks ≠ halfPassed.config.checks := by decide +kernel
  refine ⟨reached, distinct, clear, by decide +kernel, c', taken, ?_, ?_⟩
  · rw [keeps.health 0 halfPassedHost there unchanged]
    decide +kernel
  · have session := (keeps.otherChecks others).2 0 halfPassedHost there unchanged 0
    rw [if_pos (by decide)] at session
    exact session

end Dropped

end Cluster

end LoadBalancing
