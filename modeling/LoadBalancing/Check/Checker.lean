/-
The checker of a cluster: one session for every host and check (`HealthChecker`).

A checker does not run by itself. Its owner tells it about hosts that come and go,
about time, and about the outcomes of probes, and the checker answers with the
probes to start and with the verdicts that changed. So it never waits, and what it
does depends on nothing but what it was told and on the random part of the delays. A
delay that overflows breaks off what the checker is doing.

Sessions are known by address and check. A host that comes under an address that
is already there takes over the sessions, and they begin anew. All probes and all
waits of a checker are numbered from one source, and the number of a probe or a wait
is all that the checker needs to recognise an answer or a timer that comes too late.
-/
import LoadBalancing.Check.Interval
import LoadBalancing.Check.TcpProbe
import LoadBalancing.Check.Timer
import LoadBalancing.Config.Error

set_option autoImplicit false

namespace LoadBalancing

/-! ## Parts -/

/-- What became of all probes of a checker (`HealthCheckStats`). -/
structure ProbeStats where
  attempts : Nat
  successes : Nat
  /-- Bad answers and broken connections. -/
  failures : Nat
  /-- Broken connections alone. -/
  networkFailures : Nat
  timeouts : Nat
  deriving DecidableEq, Repr

namespace ProbeStats

/-- No probe was sent yet. -/
def zero : ProbeStats := ⟨0, 0, 0, 0, 0⟩

instance : Inhabited ProbeStats := ⟨zero⟩

/-- One more probe is out. -/
def countAttempt (s : ProbeStats) : ProbeStats :=
  { s with attempts := s.attempts + 1 }

/-- One more probe was given up, which is a failure as well. -/
def countTimeout (s : ProbeStats) : ProbeStats :=
  { s with timeouts := s.timeouts + 1 }

/-- Counts how a probe ended that was answered in time. -/
def countResult (s : ProbeStats) : Except ProbeError ProbeAnswer → ProbeStats
  | .ok _ => { s with successes := s.successes + 1 }
  | .error e =>
    { s with
      failures := s.failures + 1
      networkFailures := s.networkFailures + (if e.isNetwork then 1 else 0) }

end ProbeStats

/-- The outcome that a result counts as. -/
def ProbeOutcome.ofResult : Except ProbeError ProbeAnswer → ProbeOutcome
  | .ok answer => .passed answer
  | .error _ => .failed

/-- A session, and the number of its present wait. -/
structure LiveSession where
  session : Session
  epoch : Nat
  deriving DecidableEq

/-- A probe to start. -/
structure ProbeRequest where
  key : SessionKey
  probe : Nat
  payload : ProbePayload
  deriving DecidableEq, Repr

/-- The random numbers for the delay that begins under a number. -/
abbrev Jitter := Nat → UInt64 × UInt64

/-! ## Checkers -/

/-- The sessions of a cluster's hosts, what they wait for, and what became of their probes
(`HealthChecker`). -/
structure Checker where
  checks : List CheckSettings
  sessions : SortedMap SessionKey LiveSession
  agenda : Agenda
  /-- The last number that was given to a probe or a wait. -/
  lastNumber : Nat
  stats : ProbeStats
  deriving DecidableEq

namespace Checker

/-- Reads the settings of configured checks; the first is number `index`
(`HealthChecker::from_config`). -/
def readChecks (index : Nat) : List CheckConfig → Except ConfigError (List CheckSettings)
  | [] => .ok []
  | c :: rest => do
    let settings ← (CheckSettings.ofConfig c).mapError (.check index)
    let others ← readChecks (index + 1) rest
    pure (settings :: others)

/-- A checker for some checks (`HealthChecker::new`). All of them must be able to run, there must
not be more of them than a host has verdicts, and each needs a transport for its kind of probe. -/
def new (configs : List CheckConfig) (transports : List ProbeKind) :
    Except ConfigError Checker := do
  let checks ← readChecks 0 configs
  if maxHealthChecks < checks.length then throw (.check maxHealthChecks .tooMany)
  match checks.find? fun s => !transports.contains s.kind with
  | some s => throw (.missingTransport s.kind)
  | none => pure { checks, sessions := ∅, agenda := [], lastNumber := 0, stats := .zero }

/-- Whether probe `probe` of a session is out. -/
def isPending (c : Checker) (key : SessionKey) (probe : Nat) : Bool :=
  match c.sessions.get? key with
  | some live => live.session.isPending probe
  | none => false

/-! ### Hosts that come and go -/

/-- Begins the session of check `index` of a host, in place of one that is there (`start_sessions`).
Its first probe is due at once. -/
def startSession (c : Checker) (t : HostTable) (now : Nat) (host : Host) (index : Nat)
    (initial : Health) : Checker × HostTable :=
  let key : SessionKey := ⟨host.address, index⟩
  let epoch := c.lastNumber + 1
  let (session, t) := Session.start t host index initial
  ({ c with
      sessions := c.sessions.insert key ⟨session, epoch⟩
      agenda := Agenda.schedule ⟨now, key, .nextProbe epoch⟩ c.agenda
      lastNumber := epoch }, t)

/-- Begins all sessions of a host; `initial` gives the verdict that each begins with. -/
def startHost (initial : HostTable → Host → Nat → CheckSettings → Health) (now : Nat)
    (c : Checker) (t : HostTable) (host : Host) : Checker × HostTable :=
  c.checks.zipIdx.foldl
    (fun (c, t) (settings, index) =>
      c.startSession t now host index (initial t host index settings))
    (c, t)

/-- Takes in new hosts, with the verdicts that the checks start with
(`HealthChecker::add_hosts`). -/
def add (c : Checker) (t : HostTable) (now : Nat) (hosts : List Host) : Checker × HostTable :=
  hosts.foldl
    (fun (c, t) host => startHost (fun _ _ _ settings => settings.initialVerdict) now c t host)
    (c, t)

/-- Takes in hosts that keep the verdicts they have (`HealthChecker::adopt_hosts`). -/
def adopt (c : Checker) (t : HostTable) (now : Nat) (hosts : List Host) : Checker × HostTable :=
  hosts.foldl
    (fun (c, t) host => startHost (fun t host index _ => t.verdict host index) now c t host)
    (c, t)

/-- Ends all sessions under the addresses of some hosts (`HealthChecker::remove_hosts`). -/
def remove (c : Checker) (hosts : List Host) : Checker :=
  let keys := hosts.flatMap fun h =>
    (List.range c.checks.length).map fun index => (⟨h.address, index⟩ : SessionKey)
  { c with sessions := keys.foldl SortedMap.erase c.sessions }

/-- Ends all sessions and forgets all timers; nothing is probed until hosts come again
(`HealthChecker::shutdown`). -/
def shutdown (c : Checker) : Checker :=
  { c with sessions := ∅, agenda := [] }

/-! ### Probes -/

/-- Sends the next probe of a session that still waits in `epoch`, and arms the timer that gives it
up (`send_probe`). -/
def sendProbe (c : Checker) (now : Nat) (key : SessionKey) (epoch : Nat) :
    Checker × Option ProbeRequest :=
  match c.sessions.get? key, c.checks[key.check]? with
  | some live, some settings =>
    -- the timer was armed by a session, or for a turn of it, that is over
    if live.epoch ≠ epoch then (c, none)
    else
      let probe := c.lastNumber + 1
      let c := { c with lastNumber := probe }
      match live.session.send probe with
      | (false, _) => (c, none)
      | (true, session) =>
        ({ c with
            sessions := c.sessions.insert key { live with session }
            agenda := Agenda.schedule ⟨now + settings.timeout, key, .giveUp probe⟩ c.agenda
            stats := c.stats.countAttempt },
          some { key, probe, payload := settings.payload })
  | _, _ => (c, none)

/-- Takes the outcome of the probe that is out, and arms the timer of the next one
(`HealthChecker::finish`). The outcome is counted before the delay is known, so a delay that
overflows comes too late to undo that. -/
def finish (c : Checker) (t : HostTable) (now : Nat) (jitter : Jitter) (key : SessionKey)
    (probe : Nat) (outcome : ProbeOutcome) :
    Except Overflow (Checker × HostTable × Option Transition) :=
  match c.sessions.get? key, c.checks[key.check]? with
  | some live, some settings =>
    let (transition, session, t) := live.session.complete settings t probe outcome
    -- whatever the session armed under an earlier epoch comes too late from here on
    let epoch := c.lastNumber + 1
    let (first, second) := jitter epoch
    match settings.nextDelay? (session.verdict t) session.flipped (t.hasTraffic session.host)
      first second with
    | none => .error ⟨t⟩
    | some delay =>
      .ok ({ c with
          sessions := c.sessions.insert key ⟨session.clearFlipped, epoch⟩
          agenda := Agenda.schedule ⟨now + delay, key, .nextProbe epoch⟩ c.agenda
          lastNumber := epoch },
        t, transition)
  | _, _ => .ok (c, t, none)

/-- The result of a probe came in (`on_completion`). It counts only if the probe is still out. -/
def deliver (c : Checker) (t : HostTable) (now : Nat) (jitter : Jitter) (key : SessionKey)
    (probe : Nat) (result : Except ProbeError ProbeAnswer) :
    Except Overflow (Checker × HostTable × Option Transition) :=
  if c.isPending key probe then
    { c with stats := c.stats.countResult result }.finish t now jitter key probe (.ofResult result)
  else .ok (c, t, none)

/-- Gives up on a probe, if it is still out (`on_timeout`). -/
def giveUp (c : Checker) (t : HostTable) (now : Nat) (jitter : Jitter) (key : SessionKey)
    (probe : Nat) : Except Overflow (Checker × HostTable × Option Transition) :=
  if c.isPending key probe then
    { c with stats := c.stats.countTimeout }.finish t now jitter key probe .timedOut
  else .ok (c, t, none)

/-! ### Timers -/

/-- What came of the timers that were due. -/
structure Fired where
  checker : Checker
  hosts : HostTable
  /-- The verdicts that changed, in order. -/
  transitions : List Transition
  /-- The probes to start, in order. -/
  probes : List ProbeRequest

/-- What comes of the first of the due timers and then of all others. -/
def Fired.followedBy (first others : Fired) : Fired :=
  { others with
    transitions := first.transitions ++ others.transitions
    probes := first.probes ++ others.probes }

/-- Does what a timer asks for. -/
def fire (c : Checker) (t : HostTable) (now : Nat) (jitter : Jitter) (timer : Timer) :
    Except Overflow Fired :=
  match timer.kind with
  | .nextProbe epoch =>
    let (c, request) := c.sendProbe now timer.key epoch
    .ok ⟨c, t, [], request.toList⟩
  | .giveUp probe => do
    let (c, t, transition) ← c.giveUp t now jitter timer.key probe
    pure ⟨c, t, transition.toList, []⟩

/-- What sending a probe arms is not due yet, because no check gives up at once. -/
theorem armed_sendProbe (c : Checker) (now : Nat) (key : SessionKey) (epoch : Nat) :
    Agenda.Armed now c.agenda (c.sendProbe now key epoch).1.agenda := by
  unfold sendProbe
  split
  · split
    · exact .none
    · dsimp only
      split
      · exact .none
      · exact .later (Nat.lt_add_of_pos_right (CheckSettings.timeout_pos _))
  · exact .none

/-- What the outcome of a probe arms is not due yet, because no check probes without a pause. -/
theorem armed_finish {c : Checker} {t : HostTable} {now : Nat} {jitter : Jitter}
    {key : SessionKey} {probe : Nat} {outcome : ProbeOutcome}
    {after : Checker × HostTable × Option Transition}
    (h : c.finish t now jitter key probe outcome = .ok after) :
    Agenda.Armed now c.agenda after.1.agenda := by
  unfold finish at h
  split at h
  · dsimp only at h
    split at h
    · cases h
    next delay hdelay =>
      cases h
      exact .later (Nat.lt_add_of_pos_right (CheckSettings.pos_of_nextDelay? hdelay))
  · cases h
    exact .none

/-- Whatever a timer asks for, what it arms is not due yet. -/
theorem armed_fire {c : Checker} {t : HostTable} {now : Nat} {jitter : Jitter} {timer : Timer}
    {fired : Fired} (h : c.fire t now jitter timer = .ok fired) :
    Agenda.Armed now c.agenda fired.checker.agenda := by
  unfold fire at h
  split at h
  next epoch _ =>
    cases h
    exact armed_sendProbe c now timer.key epoch
  next probe _ =>
    cases hgiven : c.giveUp t now jitter timer.key probe with
    | error e =>
      rw [hgiven] at h
      cases h
    | ok given =>
      rw [hgiven] at h
      cases h
      unfold giveUp at hgiven
      split at hgiven
      · exact armed_finish (c := { c with stats := c.stats.countTimeout }) hgiven
      · cases hgiven
        exact .none

/-- Does what the due timers ask for, the first one first, until none is due (`fire_due_timers`).
Each one leaves one fewer to do, because nothing that a timer arms is due at once. -/
def fireDue (c : Checker) (t : HostTable) (now : Nat) (jitter : Jitter) : Except Overflow Fired :=
  match agenda : c.agenda with
  | [] => .ok ⟨c, t, [], []⟩
  | timer :: rest =>
    if later : now < timer.due then .ok ⟨c, t, [], []⟩
    else
      match fired : { c with agenda := rest }.fire t now jitter timer with
      | .error overflow => .error overflow
      | .ok first =>
        -- so the loop ends, however late it is called
        have fewer : first.checker.agenda.dueCount now < c.agenda.dueCount now := by
          rw [(armed_fire fired).dueCount_eq, agenda]
          simp [Agenda.dueCount, Nat.not_lt.1 later]
        (first.checker.fireDue first.hosts now jitter).map first.followedBy
termination_by c.agenda.dueCount now

end Checker

end LoadBalancing
