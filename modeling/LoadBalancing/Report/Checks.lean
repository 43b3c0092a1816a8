/-
Reports on health checks: settings, sessions, verdicts that changed, and counts.
-/
import LoadBalancing.Check.Checker
import LoadBalancing.Report.Hosts

set_option autoImplicit false

namespace LoadBalancing.Report

open Document

/-! ## Settings -/

/-- What a probe sends and expects. -/
def payload : ProbePayload → Node
  | .tcp send receive =>
    .table [
      ("send", .optional (fun bytes => .text (Text.encodeHex bytes)) send),
      ("receive", .texts (receive.map Text.encodeHex))]
  | .http path host statuses =>
    .table [
      ("path", .text path),
      ("host", .optional .text host),
      ("expected_statuses", .list (statuses.map .nat))]
  | .grpc service => .table [("service_name", .optional .text service)]

/-- The settings of a check. -/
def checkSettings (s : CheckSettings) : Node :=
  .table [
    ("timeout", .nat s.timeout),
    ("interval", .nat s.interval),
    ("jitter", .nat s.jitter),
    ("jitter_percent", .nat s.jitterPercent),
    ("unhealthy_interval", .nat s.unhealthyInterval),
    ("burst_interval", .optional .nat s.burstInterval),
    ("no_traffic_interval", .optional .nat s.noTrafficInterval),
    ("healthy_threshold", .nat s.healthyThreshold),
    ("unhealthy_threshold", .nat s.unhealthyThreshold),
    ("always_start_healthy", .bool s.alwaysStartHealthy),
    ("kind", .text s.kind.name),
    ("payload", payload s.payload),
    ("initial", health s.initialVerdict)]

/-! ## Sessions -/

/-- A verdict that changed. -/
def transition (t : Transition) : Node :=
  .table [
    ("host", .text t.host.address),
    ("check", .nat t.check),
    ("from", health t.before),
    ("to", health t.after),
    ("aggregate", .bool t.aggregateChanged)]

/-- What a session is doing, with the number of the probe that is out. -/
def sessionState : SessionState → Node
  | .idle => .text "idle"
  | .sent probe => .text ("sent " ++ toString probe)
  | .cancelled => .text "cancelled"

/-- A session, its host, and the delay that would begin now without a random part, unless that
overflows. -/
def session? (settings : CheckSettings) (t : HostTable) (s : Session) :
    Option (List (String × Node)) := do
  let verdict := s.verdict t
  let delay ← settings.nextDelay? verdict s.flipped (t.hasTraffic s.host) 0 0
  pure [("state", sessionState s.state),
    ("successes", .nat s.successes),
    ("failures", .nat s.failures),
    ("flipped", .bool s.flipped),
    ("verdict", health verdict),
    ("host", health (t.health s.host)),
    ("next_ms", .nat delay)]

/-! ## Checkers -/

/-- What became of all probes. -/
def probeStats (s : ProbeStats) : Node :=
  .list ([s.attempts, s.successes, s.failures, s.networkFailures, s.timeouts].map .nat)

end LoadBalancing.Report
