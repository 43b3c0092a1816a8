/-
Hysteresis: when a check changes its mind about a host.

The calls of a session alone decide what it says. They tell which probe is out
(`Session.out?`), so they tell which outcomes were accepted (`Session.accepted`), and the
verdict changes at those alone: it falls when the missed probes in a row are as many as
their threshold, and rises when the passed ones are as many as theirs.

A session does not work like this. It keeps two counts that go on after a change and stop
at their limit, and it asks whether a threshold is reached, not whether it is met. What
makes the two agree is an invariant of every run (`Session.Poised`): the passed probes in
a row are too few as long as the host is unhealthy, and the missed ones are too few as
long as it is not. So the first count to reach a threshold meets it.

Others may write to the table at any time between two calls. Only the verdict of this
check about this host is the session's own.
-/
import LoadBalancing.Proofs.Check.Operations
import LoadBalancing.Proofs.Host.Verdicts

set_option autoImplicit false

namespace LoadBalancing

/-! ## Outcomes in a row -/

namespace ProbeOutcome

def isPassed : ProbeOutcome → Bool
  | .passed _ => true
  | .failed | .timedOut => false

/-- The passed probes since the last one that was missed, or since the beginning. The last
outcome stands first. -/
def passedInRow (outcomes : List ProbeOutcome) : Nat :=
  (outcomes.takeWhile isPassed).length

/-- The missed probes since the last one that passed, or since the beginning. -/
def missedInRow (outcomes : List ProbeOutcome) : Nat :=
  (outcomes.takeWhile fun outcome => !outcome.isPassed).length

variable (outcome : ProbeOutcome) (outcomes : List ProbeOutcome)

theorem passedInRow_cons :
    passedInRow (outcome :: outcomes) =
      if outcome.isPassed then passedInRow outcomes + 1 else 0 := by
  unfold passedInRow
  cases h : outcome.isPassed <;> simp [h]

theorem missedInRow_cons :
    missedInRow (outcome :: outcomes) =
      if outcome.isPassed then 0 else missedInRow outcomes + 1 := by
  unfold missedInRow
  cases h : outcome.isPassed <;> simp [h]

end ProbeOutcome

open ProbeOutcome (passedInRow missedInRow passedInRow_cons missedInRow_cons)

theorem ProbeAnswer.health_ne_unhealthy (answer : ProbeAnswer) : answer.health ≠ .unhealthy := by
  cases answer <;> decide

/-- No threshold of a check that can run is zero. -/
theorem CheckSettings.thresholds_pos {config : CheckConfig} {settings : CheckSettings}
    (settled : CheckSettings.ofConfig config = .ok settings) :
    0 < settings.healthyThreshold ∧ 0 < settings.unhealthyThreshold := by
  obtain ⟨nonzero, -, hhealthy, hunhealthy⟩ := CheckSettings.of_ofConfig settled
  rw [hhealthy, hunhealthy]
  unfold CheckSettings.zeroField? at nonzero
  grind

namespace Session

/-! ## What the calls of a session say -/

/-- What can be done with a session. -/
inductive Call where
  | send (probe : Nat)
  | complete (probe : Nat) (outcome : ProbeOutcome)
  | cancel
  | clearFlipped
  deriving DecidableEq

/-- The probe that is out after some calls, the last of which stands first. There is none
after a session was cancelled, and no second one as long as one is out. -/
def out? : List Call → Option Nat
  | [] => none
  | .send probe :: before => if .cancel ∈ before then none else some ((out? before).getD probe)
  | .complete probe _ :: before => if out? before = some probe then none else out? before
  | .cancel :: _ => none
  | .clearFlipped :: before => out? before

/-- The outcome that a call after `before` brings, if it is that of the probe that is out. -/
def accepts? (before : List Call) : Call → Option ProbeOutcome
  | .complete probe outcome => if out? before = some probe then some outcome else none
  | _ => none

/-- The outcomes that were accepted, the last one first. -/
def accepted : List Call → List ProbeOutcome
  | [] => []
  | next :: before =>
    match accepts? before next with
    | some outcome => outcome :: accepted before
    | none => accepted before

/-- A session that was cancelled has no probe out again. -/
theorem out?_of_cancel {calls : List Call} (cancelled : .cancel ∈ calls) : out? calls = none := by
  induction calls with
  | nil => cases cancelled
  | cons next before ih =>
    cases next with
    | cancel => rfl
    | send probe =>
      -- a session that was cancelled does not send again
      have earlier : .cancel ∈ before := by simpa using cancelled
      simp only [out?, earlier, if_true]
    | complete probe outcome =>
      have none_out := ih (by simpa using cancelled)
      simp only [out?, none_out, ite_self]
    | clearFlipped => exact ih (by simpa using cancelled)

/-- So it accepts nothing any more. -/
theorem accepts?_of_cancel {calls : List Call} (cancelled : .cancel ∈ calls) (next : Call) :
    accepts? calls next = none := by
  cases next with
  | complete probe outcome => simp [accepts?, out?_of_cancel cancelled]
  | _ => rfl

/-! ## Runs -/

/-- Does what the call says. -/
def take (s : Session) (settings : CheckSettings) (t : HostTable) :
    Call → Option Transition × Session × HostTable
  | .send probe => (none, (s.send probe).2, t)
  | .complete probe outcome => s.complete settings t probe outcome
  | .cancel => (none, s.cancel, t)
  | .clearFlipped => (none, s.clearFlipped, t)

/-- What a session and the table can be after some calls, the last of which stands first.
Between two calls others may write to the table, but not the verdict of this check. -/
inductive Run (settings : CheckSettings) (t₀ : HostTable) (host : Host) (check : Nat)
    (initial : Health) : List Call → Session → HostTable → Prop
  | begin : Run settings t₀ host check initial []
      (start t₀ host check initial).1 (start t₀ host check initial).2
  | call {calls : List Call} {s : Session} {t : HostTable} (next : Call)
      (run : Run settings t₀ host check initial calls s t) :
      Run settings t₀ host check initial (next :: calls)
        (s.take settings t next).2.1 (s.take settings t next).2.2
  | elsewhere {calls : List Call} {s : Session} {t t' : HostTable}
      (run : Run settings t₀ host check initial calls s t)
      (size : t.states.size ≤ t'.states.size)
      (verdict : t'.verdict host check = t.verdict host check) :
      Run settings t₀ host check initial calls s t'

/-! ## What an accepted outcome does -/

section Complete

variable {s : Session} {settings : CheckSettings} {t : HostTable} {probe : Nat}
  {outcome : ProbeOutcome} {current : Health}

theorem successes_count : (s.count outcome).successes =
    if outcome.isPassed then countUp s.successes else 0 := by
  cases outcome <;> rfl

theorem failures_count : (s.count outcome).failures =
    if outcome.isPassed then 0 else countUp s.failures := by
  cases outcome <;> rfl

theorem countUp_min (n : Nat) : countUp (min n countLimit) = min (n + 1) countLimit := by
  unfold countUp
  omega

theorem complete_late (late : s.state ≠ .sent probe) :
    s.complete settings t probe outcome = (none, s, t) := by
  have notPending : s.isPending probe = false := decide_eq_false late
  simp [complete, notPending]

/-- The outcome of the pending probe is counted, and either that is all, or the verdict is
written and told. -/
theorem complete_cases (settings : CheckSettings) (t : HostTable) (outcome : ProbeOutcome)
    (pending : s.state = .sent probe) :
    ((s.count outcome).newVerdict? settings (s.verdict t) outcome = none ∧
      s.complete settings t probe outcome = (none, { s.count outcome with state := .idle }, t)) ∨
    ∃ v, (s.count outcome).newVerdict? settings (s.verdict t) outcome = some v ∧
      s.complete settings t probe outcome =
        (some ⟨s.host, s.check, s.verdict t, v, (t.setVerdict s.host s.check v).1⟩,
          { s.count outcome with state := .idle, flipped := true },
          (t.setVerdict s.host s.check v).2) := by
  have hpending : s.isPending probe = true := (isPending_iff s probe).2 pending
  have hcount : { s with state := .idle }.count outcome =
      { s.count outcome with state := .idle } := by cases outcome <;> rfl
  have hnew : ({ s.count outcome with state := .idle } : Session).newVerdict? settings
      (s.verdict t) outcome = (s.count outcome).newVerdict? settings (s.verdict t) outcome := by
    cases outcome <;> rfl
  simp only [complete, hpending, Bool.not_true, Bool.false_eq_true, if_false, hcount, hnew]
  cases (s.count outcome).newVerdict? settings (s.verdict t) outcome with
  | none => exact .inl ⟨rfl, rfl⟩
  | some v => exact .inr ⟨v, rfl, by rw [host_count, check_count]⟩

/-- A new verdict is another one. -/
theorem ne_of_newVerdict? {v : Health} (h : s.newVerdict? settings current outcome = some v) :
    v ≠ current := by
  cases outcome with
  | passed answer =>
    have := answer.health_ne_unhealthy
    cases current <;> simp only [newVerdict?] at h <;> grind
  | failed | timedOut =>
    simp only [newVerdict?] at h
    grind

/-- What an accepted outcome leaves of the session, and what the verdict is after it. -/
theorem complete_pending (settings : CheckSettings) (outcome : ProbeOutcome)
    (pending : s.state = .sent probe) (known : s.host.id < t.states.size)
    (inRange : s.check < maxHealthChecks) :
    ∃ told s' t', s.complete settings t probe outcome = (told, s', t') ∧
      s'.host = s.host ∧ s'.check = s.check ∧
      s'.successes = (s.count outcome).successes ∧ s'.failures = (s.count outcome).failures ∧
      t'.states.size = t.states.size ∧
      s'.verdict t' =
        ((s.count outcome).newVerdict? settings (s.verdict t) outcome).getD (s.verdict t) ∧
      told = if s'.verdict t' = s.verdict t then none else
        some ⟨s.host, s.check, s.verdict t, s'.verdict t',
          decide (t.health s.host ≠ t'.health s.host)⟩ := by
  obtain ⟨hnew, heq⟩ | ⟨v, hnew, heq⟩ := complete_cases settings t outcome pending
  · have hsame : ({ s.count outcome with state := .idle } : Session).verdict t = s.verdict t := by
      rw [verdict, verdict, host_count, check_count]
    refine ⟨_, _, _, heq, host_count .., check_count .., rfl, rfl, rfl, ?_, ?_⟩
    · rw [hsame, hnew, Option.getD_none]
    · rw [hsame, if_pos rfl]
  · -- the verdict that was written is the one that is read
    have hread : ({ s.count outcome with state := .idle, flipped := true } : Session).verdict
        (t.setVerdict s.host s.check v).2 = v := by
      rw [verdict, host_count, check_count, HostTable.verdict_setVerdict known inRange inRange,
        if_pos ⟨rfl, rfl⟩]
    refine ⟨_, _, _, heq, host_count .., check_count .., rfl, rfl, HostTable.size_modify ..,
      ?_, ?_⟩
    · rw [hread, hnew, Option.getD_some]
    · rw [hread, if_neg (ne_of_newVerdict? hnew)]
      rfl

end Complete

/-! ## Counts and thresholds -/

/-- The verdict after an outcome that is accepted after `outcomes`: what the threshold of its
kind asks for once it is met, and what the probe says where no threshold is in the way. -/
def verdictAfter (settings : CheckSettings) (current : Health) (outcomes : List ProbeOutcome)
    (outcome : ProbeOutcome) : Health :=
  match outcome with
  | .passed answer =>
    if current = .unhealthy ∧ passedInRow (outcome :: outcomes) ≠ settings.healthyThreshold then
      .unhealthy
    else answer.health
  | .failed | .timedOut =>
    if missedInRow (outcome :: outcomes) = settings.unhealthyThreshold then .unhealthy
    else current

/-- What is said of a session after some calls. The last two facts carry all others: no run
of outcomes is longer than it may be before the verdict changes. -/
structure Poised (settings : CheckSettings) (host : Host) (check : Nat) (calls : List Call)
    (s : Session) (t : HostTable) : Prop where
  host_eq : s.host = host
  check_eq : s.check = check
  known : host.id < t.states.size
  state : s.state = if .cancel ∈ calls then .cancelled else (out? calls).elim .idle .sent
  successes : s.successes = min (passedInRow (accepted calls)) countLimit
  failures : s.failures = min (missedInRow (accepted calls)) countLimit
  recovering : s.verdict t = .unhealthy → passedInRow (accepted calls) < settings.healthyThreshold
  failing : s.verdict t ≠ .unhealthy → missedInRow (accepted calls) < settings.unhealthyThreshold

section Thresholds

variable {settings : CheckSettings} {host : Host} {check : Nat} {calls : List Call} {s : Session}
  {t : HostTable} {probe : Nat} {outcome : ProbeOutcome} {outcomes : List ProbeOutcome}
  {current : Health}

/-- The probe that is out is the one that the session waits for. -/
theorem Poised.sent_iff (h : Poised settings host check calls s t) (probe : Nat) :
    s.state = .sent probe ↔ out? calls = some probe := by
  rw [h.state]
  by_cases cancelled : .cancel ∈ calls
  · simp [cancelled, out?_of_cancel cancelled]
  · cases hout : out? calls <;> simp [cancelled]

theorem successes_count_min (outcome : ProbeOutcome)
    (h : s.successes = min (passedInRow outcomes) countLimit) :
    (s.count outcome).successes = min (passedInRow (outcome :: outcomes)) countLimit := by
  rw [successes_count, h, countUp_min, passedInRow_cons]
  split <;> rfl

theorem failures_count_min (outcome : ProbeOutcome)
    (h : s.failures = min (missedInRow outcomes) countLimit) :
    (s.count outcome).failures = min (missedInRow (outcome :: outcomes)) countLimit := by
  rw [failures_count, h, countUp_min, missedInRow_cons]
  split <;> rfl

/-- A count that was under its threshold until now reaches it only by meeting it, and the limit
of counts is not in the way. -/
theorem le_min_succ_iff {n threshold limit : Nat} (few : n < threshold)
    (within : threshold ≤ limit) : threshold ≤ min (n + 1) limit ↔ n + 1 = threshold := by
  omega

/-- So what a session changes its verdict to is what the outcomes in a row ask for. -/
theorem getD_newVerdict?_count
    (healthyLe : settings.healthyThreshold ≤ countLimit)
    (unhealthyLe : settings.unhealthyThreshold ≤ countLimit)
    (successes : s.successes = min (passedInRow outcomes) countLimit)
    (failures : s.failures = min (missedInRow outcomes) countLimit)
    (recovering : current = .unhealthy → passedInRow outcomes < settings.healthyThreshold)
    (failing : current ≠ .unhealthy → missedInRow outcomes < settings.unhealthyThreshold) :
    ((s.count outcome).newVerdict? settings current outcome).getD current =
      verdictAfter settings current outcomes outcome := by
  have hsuccesses := successes_count_min outcome successes
  have hfailures := failures_count_min outcome failures
  cases outcome with
  | passed answer =>
    simp only [newVerdict?, verdictAfter, hsuccesses, passedInRow_cons, ProbeOutcome.isPassed,
      if_true]
    by_cases hun : current = .unhealthy
    · have hreach := le_min_succ_iff (recovering hun) healthyLe
      simp only [hun, hreach]
      by_cases hmet : passedInRow outcomes + 1 = settings.healthyThreshold <;> simp [hmet]
    · -- between healthy and degraded no threshold is asked
      cases current <;> cases answer <;> simp_all [ProbeAnswer.health]
  | failed | timedOut =>
    simp only [newVerdict?, verdictAfter, hfailures, missedInRow_cons, ProbeOutcome.isPassed]
    by_cases hun : current = .unhealthy
    · simp [hun]
    · have hreach := le_min_succ_iff (failing hun) unhealthyLe
      simp only [Bool.false_eq_true, if_false, hreach]
      by_cases hmet : missedInRow outcomes + 1 = settings.unhealthyThreshold <;> simp [hun, hmet]

/-- A verdict falls by a missed probe that meets the threshold. -/
theorem verdictAfter_eq_unhealthy_iff (hne : current ≠ .unhealthy) :
    verdictAfter settings current outcomes outcome = .unhealthy ↔
      outcome.isPassed = false ∧
        missedInRow (outcome :: outcomes) = settings.unhealthyThreshold := by
  cases outcome with
  | passed answer => simp [verdictAfter, hne, answer.health_ne_unhealthy, ProbeOutcome.isPassed]
  | failed | timedOut => simp [verdictAfter, hne, ProbeOutcome.isPassed]

/-- It rises by a passed probe that meets the other one. -/
theorem verdictAfter_unhealthy_eq_iff {v : Health} (hne : v ≠ .unhealthy) :
    verdictAfter settings .unhealthy outcomes outcome = v ↔
      ∃ answer, outcome = .passed answer ∧ answer.health = v ∧
        passedInRow (.passed answer :: outcomes) = settings.healthyThreshold := by
  cases outcome with
  | passed answer =>
    by_cases hmet : passedInRow (.passed answer :: outcomes) = settings.healthyThreshold
    · simp [verdictAfter, hmet]
    · simp [verdictAfter, hmet, hne.symm]
  | failed | timedOut => simp [verdictAfter, hne.symm]

/-- After an accepted outcome no run of outcomes is too long either. -/
theorem verdictAfter_poised (outcome : ProbeOutcome)
    (healthyPos : 0 < settings.healthyThreshold) (unhealthyPos : 0 < settings.unhealthyThreshold)
    (recovering : current = .unhealthy → passedInRow outcomes < settings.healthyThreshold)
    (failing : current ≠ .unhealthy → missedInRow outcomes < settings.unhealthyThreshold) :
    (verdictAfter settings current outcomes outcome = .unhealthy →
      passedInRow (outcome :: outcomes) < settings.healthyThreshold) ∧
    (verdictAfter settings current outcomes outcome ≠ .unhealthy →
      missedInRow (outcome :: outcomes) < settings.unhealthyThreshold) := by
  cases outcome with
  | passed answer =>
    simp only [verdictAfter, passedInRow_cons, missedInRow_cons, ProbeOutcome.isPassed, if_true]
    constructor
    · intro hun
      by_cases held : current = .unhealthy ∧
          passedInRow outcomes + 1 ≠ settings.healthyThreshold
      · have few := recovering held.1
        have unmet := held.2
        omega
      · -- the verdict is what the probe says, and no probe that passed says this
        rw [if_neg held] at hun
        exact absurd hun answer.health_ne_unhealthy
    · intro _
      exact unhealthyPos
  | failed | timedOut =>
    simp only [verdictAfter, passedInRow_cons, missedInRow_cons, ProbeOutcome.isPassed,
      Bool.false_eq_true, if_false]
    constructor
    · intro _
      exact healthyPos
    · intro hup
      have unmet : missedInRow outcomes + 1 ≠ settings.unhealthyThreshold := by
        intro hmet
        apply hup
        rw [if_pos hmet]
      rw [if_neg unmet] at hup
      have few := failing hup
      omega

end Thresholds

/-! ## Every run -/

section Runs

variable {settings : CheckSettings} {t₀ : HostTable} {host : Host} {check : Nat}
  {initial : Health} {calls : List Call} {s : Session} {t : HostTable}

theorem poised_start (healthyPos : 0 < settings.healthyThreshold)
    (unhealthyPos : 0 < settings.unhealthyThreshold) (known : host.id < t₀.states.size) :
    Poised settings host check [] (start t₀ host check initial).1
      (start t₀ host check initial).2 where
  host_eq := rfl
  check_eq := rfl
  known := Nat.lt_of_lt_of_eq known (HostTable.size_modify ..).symm
  state := rfl
  successes := rfl
  failures := rfl
  recovering _ := healthyPos
  failing _ := unhealthyPos

/-- What a session waits for is what the calls say that is out, one call later too. -/
theorem Poised.state_take (h : Poised settings host check calls s t) (next : Call) :
    (s.take settings t next).2.1.state =
      if .cancel ∈ next :: calls then .cancelled
      else (out? (next :: calls)).elim .idle .sent := by
  have hstate := h.state
  cases next with
  | send probe =>
    -- only a session that waits sends, so a probe that is out is not sent over
    by_cases cancelled : .cancel ∈ calls
    · simp [take, send, hstate, cancelled]
    · cases hout : out? calls <;> simp [take, send, hstate, cancelled, out?, hout]
  | complete probe outcome =>
    by_cases hout : out? calls = some probe
    · -- a probe is out, so the session was not cancelled
      have running : .cancel ∉ calls := fun cancelled => by
        simp [out?_of_cancel cancelled] at hout
      have pending := (h.sent_iff probe).2 hout
      simp [take, state_complete settings t probe outcome pending, running, out?, hout]
    · have late := mt (h.sent_iff probe).1 hout
      simp [take, complete_late late, hstate, out?, hout]
  | cancel => simp [take, cancel]
  | clearFlipped => simp [take, clearFlipped, hstate, out?]

/-- A call that brings no accepted outcome changes neither the table nor the counts. -/
theorem Poised.take_ignored (h : Poised settings host check calls s t) {next : Call}
    (ignored : accepts? calls next = none) :
    ∃ s', s.take settings t next = (none, s', t) ∧ s'.host = s.host ∧ s'.check = s.check ∧
      s'.successes = s.successes ∧ s'.failures = s.failures := by
  cases next with
  | send probe =>
    refine ⟨_, rfl, ?_⟩
    unfold send
    split <;> exact ⟨rfl, rfl, rfl, rfl⟩
  | complete probe outcome =>
    have late : s.state ≠ .sent probe := by
      rw [ne_eq, h.sent_iff]
      simpa [accepts?] using ignored
    exact ⟨s, complete_late late, rfl, rfl, rfl, rfl⟩
  | cancel => exact ⟨_, rfl, rfl, rfl, rfl, rfl⟩
  | clearFlipped => exact ⟨_, rfl, rfl, rfl, rfl, rfl⟩

section Limits

variable (inRange : check < maxHealthChecks)
  (healthyLe : settings.healthyThreshold ≤ countLimit)
  (unhealthyLe : settings.unhealthyThreshold ≤ countLimit)

include inRange healthyLe unhealthyLe

/-- An accepted outcome is counted in its row, and the verdict becomes what the row asks for. -/
theorem Poised.take_accepted (h : Poised settings host check calls s t) {next : Call}
    {outcome : ProbeOutcome} (accepts : accepts? calls next = some outcome) :
    ∃ told s' t', s.take settings t next = (told, s', t') ∧ s'.host = host ∧ s'.check = check ∧
      t'.states.size = t.states.size ∧
      s'.successes = min (passedInRow (outcome :: accepted calls)) countLimit ∧
      s'.failures = min (missedInRow (outcome :: accepted calls)) countLimit ∧
      s'.verdict t' = verdictAfter settings (s.verdict t) (accepted calls) outcome ∧
      told = if s'.verdict t' = s.verdict t then none else
        some ⟨host, check, s.verdict t, s'.verdict t', decide (t.health host ≠ t'.health host)⟩ := by
  -- only the probe that is out brings an outcome that is accepted
  obtain ⟨probe, rfl, hout⟩ : ∃ probe, next = .complete probe outcome ∧
      out? calls = some probe := by
    cases next <;> simp_all [accepts?]
  obtain ⟨told, s', t', heq, hhost, hcheck, hsuccesses, hfailures, hsize, hverdict, htold⟩ :=
    complete_pending settings outcome ((h.sent_iff probe).2 hout)
      (by rw [h.host_eq]; exact h.known) (by rw [h.check_eq]; exact inRange)
  rw [getD_newVerdict?_count healthyLe unhealthyLe h.successes h.failures h.recovering
    h.failing] at hverdict
  rw [h.host_eq, h.check_eq] at htold
  exact ⟨told, s', t', heq, hhost.trans h.host_eq, hcheck.trans h.check_eq, hsize,
    hsuccesses.trans (successes_count_min outcome h.successes),
    hfailures.trans (failures_count_min outcome h.failures), hverdict, htold⟩

variable (healthyPos : 0 < settings.healthyThreshold)
  (unhealthyPos : 0 < settings.unhealthyThreshold)

include healthyPos unhealthyPos

/-- One call keeps all that is said of a session. -/
theorem Poised.call (h : Poised settings host check calls s t) (next : Call) :
    Poised settings host check (next :: calls) (s.take settings t next).2.1
      (s.take settings t next).2.2 := by
  have hstate := h.state_take next
  cases haccepts : accepts? calls next with
  | none =>
    -- nothing is written and nothing counted
    obtain ⟨s', heq, hhost, hcheck, hsuccesses, hfailures⟩ := h.take_ignored haccepts
    rw [heq] at hstate ⊢
    have hrow : accepted (next :: calls) = accepted calls := by rw [accepted, haccepts]
    have hverdict : s'.verdict t = s.verdict t := by rw [verdict, verdict, hhost, hcheck]
    exact {
      host_eq := hhost.trans h.host_eq
      check_eq := hcheck.trans h.check_eq
      known := h.known
      state := hstate
      successes := by rw [hrow, hsuccesses, h.successes]
      failures := by rw [hrow, hfailures, h.failures]
      recovering := by rw [hrow, hverdict]; exact h.recovering
      failing := by rw [hrow, hverdict]; exact h.failing }
  | some outcome =>
    obtain ⟨told, s', t', heq, hhost, hcheck, hsize, hsuccesses, hfailures, hverdict, -⟩ :=
      h.take_accepted inRange healthyLe unhealthyLe haccepts
    rw [heq] at hstate ⊢
    -- from now on the outcome is the last one of its row
    have hrow : accepted (next :: calls) = outcome :: accepted calls := by
      rw [accepted, haccepts]
    have hpoised := verdictAfter_poised outcome healthyPos unhealthyPos h.recovering
      h.failing
    exact {
      host_eq := hhost
      check_eq := hcheck
      known := Nat.lt_of_lt_of_eq h.known hsize.symm
      state := hstate
      successes := by rw [hrow, hsuccesses]
      failures := by rw [hrow, hfailures]
      recovering := by rw [hrow, hverdict]; exact hpoised.1
      failing := by rw [hrow, hverdict]; exact hpoised.2 }

/-- So all of it holds throughout every run. -/
theorem Run.poised (known : host.id < t₀.states.size)
    (run : Run settings t₀ host check initial calls s t) :
    Poised settings host check calls s t := by
  induction run with
  | begin => exact poised_start healthyPos unhealthyPos known
  | call next _ ih => exact ih.call inRange healthyLe unhealthyLe healthyPos unhealthyPos next
  | elsewhere _ size spared ih =>
    -- others neither take the host away nor touch the verdict of this check
    have hverdict := spared
    rw [← ih.host_eq, ← ih.check_eq] at hverdict
    exact { ih with
      known := Nat.lt_of_lt_of_le ih.known size
      recovering := fun hun => ih.recovering (hverdict.symm.trans hun)
      failing := fun hun => ih.failing fun h => hun (hverdict.trans h) }

end Limits

end Runs

/-! ## The law -/

/-- What a call after `calls` may do to a session `s`, if verdicts are as stable as they are
configured to be; `after` is what the call tells and leaves. -/
structure Inertia (config : CheckConfig) (calls : List Call) (next : Call) (s : Session)
    (t : HostTable) (after : Option Transition × Session × HostTable) : Prop where
  /-- The verdict falls when the missed probes in a row meet their threshold, -/
  falls : s.verdict t ≠ .unhealthy ∧ after.2.1.verdict after.2.2 = .unhealthy ↔
    s.verdict t ≠ .unhealthy ∧ ∃ outcome, accepts? calls next = some outcome ∧
      outcome.isPassed = false ∧
      missedInRow (outcome :: accepted calls) = config.unhealthyThreshold
  /-- and it rises when the passed probes do, to what the last of them says. -/
  rises (v : Health) : s.verdict t = .unhealthy ∧ v ≠ .unhealthy ∧
      after.2.1.verdict after.2.2 = v ↔
    s.verdict t = .unhealthy ∧ ∃ answer, accepts? calls next = some (.passed answer) ∧
      answer.health = v ∧
      passedInRow (.passed answer :: accepted calls) = config.healthyThreshold
  /-- In between every passed probe decides. -/
  follows : s.verdict t ≠ .unhealthy → ∀ answer, accepts? calls next = some (.passed answer) →
    after.2.1.verdict after.2.2 = answer.health
  /-- A change is told as what it is, and nothing else is told. -/
  told : after.1 =
    if after.2.1.verdict after.2.2 = s.verdict t then none
    else some ⟨s.host, s.check, s.verdict t, after.2.1.verdict after.2.2,
      decide (t.health s.host ≠ after.2.2.health s.host)⟩
  /-- What is not accepted changes neither the verdict nor the counts, -/
  ignored : accepts? calls next = none → after.2.1.verdict after.2.2 = s.verdict t ∧
    after.2.1.successes = s.successes ∧ after.2.1.failures = s.failures
  /-- and after a session was cancelled nothing does. -/
  cancelled : .cancel ∈ calls → after.2.1.verdict after.2.2 = s.verdict t ∧
    after.2.1.successes = s.successes ∧ after.2.1.failures = s.failures
  /-- The counts are those of the outcomes in a row, up to their limit. -/
  counted : after.2.1.successes = min (passedInRow (accepted (next :: calls))) countLimit ∧
    after.2.1.failures = min (missedInRow (accepted (next :: calls))) countLimit

/-- **Verdicts change exactly when the outcomes in a row meet a threshold**, whatever calls
came before and whatever others wrote in between. -/
theorem Run.inertia {config : CheckConfig} {settings : CheckSettings} {t₀ t : HostTable}
    {host : Host} {check : Nat} {initial : Health} {calls : List Call} {s : Session}
    (settled : CheckSettings.ofConfig config = .ok settings)
    (healthyLe : config.healthyThreshold ≤ countLimit)
    (unhealthyLe : config.unhealthyThreshold ≤ countLimit)
    (inRange : check < maxHealthChecks) (known : host.id < t₀.states.size)
    (run : Run settings t₀ host check initial calls s t) (next : Call) :
    Inertia config calls next s t (s.take settings t next) := by
  obtain ⟨-, -, hhealthy, hunhealthy⟩ := CheckSettings.of_ofConfig settled
  obtain ⟨healthyPos, unhealthyPos⟩ := CheckSettings.thresholds_pos settled
  rw [← hhealthy] at healthyLe
  rw [← hunhealthy] at unhealthyLe
  have h : Poised settings host check calls s t :=
    run.poised inRange healthyLe unhealthyLe healthyPos unhealthyPos known
  -- the invariant says what the counters are; what is left is whether the call is heard at all
  cases haccepts : accepts? calls next with
  | none =>
    obtain ⟨s', heq, hhost, hcheck, hsuccesses, hfailures⟩ := h.take_ignored haccepts
    have hverdict : s'.verdict t = s.verdict t := by rw [verdict, verdict, hhost, hcheck]
    have hrow : accepted (next :: calls) = accepted calls := by rw [accepted, haccepts]
    rw [heq]
    exact {
      falls := by simp [haccepts, hverdict]
      -- the verdict stays, so nobody rose, and no outcome was taken that could say so
      rises := by
        intro v
        constructor
        · rintro ⟨hun, hne, hv⟩
          exact absurd (hv.symm.trans (hverdict.trans hun)) hne
        · rintro ⟨-, answer, hpassed, -⟩
          rw [haccepts] at hpassed
          cases hpassed
      follows := by simp [haccepts]
      told := by simp [hverdict]
      ignored := fun _ => ⟨hverdict, hsuccesses, hfailures⟩
      cancelled := fun _ => ⟨hverdict, hsuccesses, hfailures⟩
      counted := by rw [hrow, hsuccesses, hfailures]; exact ⟨h.successes, h.failures⟩ }
  | some outcome =>
    obtain ⟨told, s', t', heq, -, -, -, hsuccesses, hfailures, hverdict, htold⟩ :=
      h.take_accepted inRange healthyLe unhealthyLe haccepts
    have hrow : accepted (next :: calls) = outcome :: accepted calls := by
      rw [accepted, haccepts]
    rw [heq]
    exact {
      falls := by
        refine and_congr_right fun hne => ?_
        rw [hverdict, verdictAfter_eq_unhealthy_iff hne, hunhealthy]
        simp [haccepts]
      -- one that fails is no answer, so a host rises by an answer that passed
      rises := by
        intro v
        refine and_congr_right fun hun => ?_
        constructor
        · rintro ⟨hne, hv⟩
          rw [hverdict, hun, verdictAfter_unhealthy_eq_iff hne] at hv
          obtain ⟨answer, rfl, hanswer, hmet⟩ := hv
          exact ⟨answer, haccepts, hanswer, hmet.trans hhealthy⟩
        · rintro ⟨answer, hpassed, rfl, hmet⟩
          have houtcome : outcome = .passed answer :=
            Option.some.inj (haccepts.symm.trans hpassed)
          have hne := answer.health_ne_unhealthy
          refine ⟨hne, ?_⟩
          rw [hverdict, hun, verdictAfter_unhealthy_eq_iff hne]
          exact ⟨answer, houtcome, rfl, hmet.trans hhealthy.symm⟩
      follows := by
        intro hne answer hpassed
        have houtcome : outcome = .passed answer :=
          Option.some.inj (haccepts.symm.trans hpassed)
        rw [hverdict, houtcome, verdictAfter, if_neg fun hboth => hne hboth.1]
      told := by rw [h.host_eq, h.check_eq]; exact htold
      ignored := fun hnone => absurd (haccepts.symm.trans hnone) (by simp)
      cancelled := fun hcancel =>
        absurd (haccepts.symm.trans (accepts?_of_cancel hcancel next)) (by simp)
      counted := by rw [hrow]; exact ⟨hsuccesses, hfailures⟩ }

/-! ### A host that comes back -/

section Returning

/-- The only host of its table. -/
def returning : Host where
  id := 0
  address := "10.0.0.1:80"
  locality := default
  metadata := default

/-- Two probes pass. The first of them is reported twice, and the outcome of another probe,
which was never sent, comes while the second one is out. -/
def returningCalls : List Call :=
  [.complete 7 .failed, .send 2, .complete 1 (.passed .healthy), .complete 1 (.passed .healthy),
    .send 1]

/-- The second of two probes that pass brings the host back, as what that probe says. -/
theorem Run.inertia_returning :
    ∃ settings s t, CheckSettings.ofConfig .standard = .ok settings ∧
      Run settings ⟨#[.new 1]⟩ returning 0 .unhealthy returningCalls s t ∧
      s.verdict t = .unhealthy ∧
      (s.take settings t (.complete 2 (.passed .degraded))).2.1.verdict
        (s.take settings t (.complete 2 (.passed .degraded))).2.2 = .degraded := by
  have settled := Except.eq_ok_get (x := CheckSettings.ofConfig .standard) rfl
  have run (settings : CheckSettings) :=
    (.call _ (.call _ (.call _ (.call _ (.call _ .begin)))) :
      Run settings ⟨#[.new 1]⟩ returning 0 .unhealthy returningCalls _ _)
  have law := Run.inertia settled (by decide) (by decide) (by decide) (by decide) (run _)
    (.complete 2 (.passed .degraded))
  exact ⟨_, _, _, settled, run _, rfl,
    ((law.rises .degraded).2 ⟨rfl, .degraded, rfl, rfl, rfl⟩).2.2⟩

end Returning

end Session

end LoadBalancing
