/-
Sessions: one health check of one host (`HealthCheckSession`).

A session waits, sends a probe, and takes its outcome; then it waits again. It has
one place for a pending probe, and only the outcome of that probe counts: an answer
that comes after its timeout, or after the session is cancelled, is ignored.

Verdicts change with inertia. An unhealthy host becomes healthy or degraded after
enough passed probes in a row, and any other host becomes unhealthy after enough
failed ones. Between healthy and degraded every passed probe decides at once.
The counts go on after a change, so each threshold is crossed once.
-/
import LoadBalancing.Check.Settings

set_option autoImplicit false

namespace LoadBalancing

/-- The answer of a host that passes its probe (`ProbeResponse`). -/
inductive ProbeAnswer where
  | healthy
  | degraded
  deriving DecidableEq, Repr

namespace ProbeAnswer

/-- The verdict that the answer stands for. -/
def health : ProbeAnswer → Health
  | .healthy => .healthy
  | .degraded => .degraded

end ProbeAnswer

/-- How a probe ended (`ProbeOutcome`). -/
inductive ProbeOutcome where
  | passed (answer : ProbeAnswer)
  | failed
  | timedOut
  deriving DecidableEq, Repr

/-- What a session is doing (`SessionState`). -/
inductive SessionState where
  | idle
  | sent (probe : Nat)
  | cancelled
  deriving DecidableEq, Repr

/-- A check changed its verdict about a host (`HealthTransition`). -/
structure Transition where
  host : Host
  check : Nat
  before : Health
  after : Health
  /-- The health of the host, over all its checks, changed with the verdict. -/
  aggregateChanged : Bool
  deriving DecidableEq

/-- A health check of a host: what it is doing, what it says, and how many probes in a row passed
and failed (`HealthCheckSession`). -/
structure Session where
  host : Host
  check : Nat
  state : SessionState
  /-- Passed probes since the last one that did not pass. -/
  successes : Nat
  /-- Failed probes since the last one that passed. -/
  failures : Nat
  /-- Whether the verdict changed and no delay was set since. -/
  flipped : Bool
  deriving DecidableEq

namespace Session

/-- Counts stop at the last number of 32 bits. -/
def countLimit : Nat := 0xffffffff

/-- One more, up to the limit. -/
def countUp (n : Nat) : Nat :=
  min (n + 1) countLimit

/-- Begins to check `host`, whose verdict becomes `initial` (`HealthCheckSession::new`). -/
def start (t : HostTable) (host : Host) (check : Nat) (initial : Health) : Session × HostTable :=
  ({ host, check, state := .idle, successes := 0, failures := 0, flipped := false },
    (t.setVerdict host check initial).2)

/-- What the check says about its host now. -/
def verdict (s : Session) (t : HostTable) : Health :=
  t.verdict s.host s.check

/-- Sends probe `probe`, which only an idle session can (`probe_sent`). -/
def send (s : Session) (probe : Nat) : Bool × Session :=
  match s.state with
  | .idle => (true, { s with state := .sent probe })
  | _ => (false, s)

/-- Whether `probe` is the one that is out (`is_pending`). -/
def isPending (s : Session) (probe : Nat) : Bool :=
  s.state = .sent probe

/-- Ends the session; no outcome counts any more (`cancel`). -/
def cancel (s : Session) : Session :=
  { s with state := .cancelled }

/-- Forgets that the verdict has just changed (`clear_flipped`). -/
def clearFlipped (s : Session) : Session :=
  { s with flipped := false }

/-- The session with the outcome counted. -/
def count (s : Session) : ProbeOutcome → Session
  | .passed _ => { s with successes := countUp s.successes, failures := 0 }
  | .failed | .timedOut => { s with failures := countUp s.failures, successes := 0 }

/-- The verdict to change to, if an outcome that was just counted changes it. -/
def newVerdict? (s : Session) (settings : CheckSettings) (current : Health) :
    ProbeOutcome → Option Health
  | .passed answer =>
    match current with
    | .unhealthy => if settings.healthyThreshold ≤ s.successes then some answer.health else none
    | _ => if current ≠ answer.health then some answer.health else none
  | .failed | .timedOut =>
    if current ≠ .unhealthy && settings.unhealthyThreshold ≤ s.failures then some .unhealthy
    else none

/-- Takes the outcome of a probe (`HealthCheckSession::complete`). Nothing happens unless it is the
pending one; otherwise the session is idle again and the verdict may change. -/
def complete (s : Session) (settings : CheckSettings) (t : HostTable) (probe : Nat)
    (outcome : ProbeOutcome) : Option Transition × Session × HostTable :=
  if !s.isPending probe then (none, s, t)
  else
    let current := s.verdict t
    let s := { s with state := .idle }.count outcome
    match s.newVerdict? settings current outcome with
    | none => (none, s, t)
    | some next =>
      -- other checks may judge the host worse, so its health need not change
      let (aggregateChanged, t) := t.setVerdict s.host s.check next
      let transition : Transition :=
        { host := s.host, check := s.check, before := current, after := next, aggregateChanged }
      (some transition, { s with flipped := true }, t)

end Session

end LoadBalancing
