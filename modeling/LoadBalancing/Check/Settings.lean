/-
Health checks after validation (`HealthCheckSettings`).

A check can run only if its times and thresholds are positive, its jitter is no
more than the whole interval, and its payload can be sent: bytes must be written
in hexadecimal, an HTTP path must begin with a slash, and an expected status must
be one that HTTP has. The first thing that is wrong names the problem. What may be
left out gets its value here: the interval of unhealthy hosts is the regular one,
and an HTTP probe expects 200.
-/
import LoadBalancing.Config.Schema
import LoadBalancing.Text.Hex

set_option autoImplicit false

namespace LoadBalancing

/-- What a probe sends and expects. -/
inductive ProbePayload where
  | tcp (send : Option (List UInt8)) (receive : List (List UInt8))
  | http (path : String) (host : Option String) (expectedStatuses : List Nat)
  | grpc (serviceName : Option String)
  deriving DecidableEq, Repr

namespace ProbePayload

/-- The kind of transport that can send the payload. -/
def kind : ProbePayload → ProbeKind
  | .tcp _ _ => .tcp
  | .http _ _ _ => .http
  | .grpc _ => .grpc

end ProbePayload

/-! ## Problems -/

/-- The numbers of a check that must not be zero. -/
inductive PositiveField where
  | interval
  | timeout
  | healthyThreshold
  | unhealthyThreshold
  | unhealthyInterval
  | burstInterval
  | noTrafficInterval
  deriving DecidableEq, Repr

namespace PositiveField

/-- The name of the field in a configuration. -/
def name : PositiveField → String
  | .interval => "interval_ms"
  | .timeout => "timeout_ms"
  | .healthyThreshold => "healthy_threshold"
  | .unhealthyThreshold => "unhealthy_threshold"
  | .unhealthyInterval => "unhealthy_interval_ms"
  | .burstInterval => "burst_interval_ms"
  | .noTrafficInterval => "no_traffic_interval_ms"

end PositiveField

/-- Why a health check cannot run. -/
inductive CheckProblem where
  | notPositive (field : PositiveField)
  | jitterTooLarge
  | badSend (problem : Text.HexProblem)
  | badReceive (index : Nat) (problem : Text.HexProblem)
  | badPath (path : String)
  | badStatus (status : Nat)
  /-- There are more checks than a host can have verdicts. -/
  | tooMany
  deriving DecidableEq, Repr

namespace CheckProblem

/-- The problem in words. -/
def message : CheckProblem → String
  | .notPositive field => field.name ++ " must be positive"
  | .jitterTooLarge => "interval_jitter_percent must be at most 100"
  | .badSend problem => "probe.send: " ++ problem.message
  | .badReceive index problem => "probe.receive[" ++ toString index ++ "]: " ++ problem.message
  | .badPath path => "probe.path must start with '/', got " ++ Text.quote path
  | .badStatus status =>
    "probe.expected_statuses: " ++ toString status ++ " is not an HTTP status"
  | .tooMany => "at most " ++ toString maxHealthChecks ++ " health checks are supported"

end CheckProblem

/-! ## Payloads -/

/-- The statuses of HTTP: 100 up to 599. -/
def isHttpStatus (status : Nat) : Bool :=
  100 ≤ status && status < 600

namespace ProbePayload

/-- Decodes expected segments; the first is number `index`. -/
def decodeSegments (index : Nat) : List String → Except CheckProblem (List (List UInt8))
  | [] => .ok []
  | s :: rest => do
    let bytes ← (Text.decodeHex s).mapError (.badReceive index)
    let others ← decodeSegments (index + 1) rest
    pure (bytes :: others)

/-- The payload that a configuration asks for (`decode_payload`). -/
def ofConfig : ProbeConfig → Except CheckProblem ProbePayload
  | .tcp send receive => do
    let send ← match send with
      | none => pure none
      | some s => ((Text.decodeHex s).mapError .badSend).map some
    let receive ← decodeSegments 0 receive
    pure (.tcp send receive)
  | .http path host statuses =>
    if path.toList.head? ≠ some '/' then .error (.badPath path)
    else
      match statuses.find? fun s => !isHttpStatus s with
      | some status => .error (.badStatus status)
      | none => .ok (.http path host (if statuses.isEmpty then [200] else statuses))
  | .grpc serviceName => .ok (.grpc serviceName)

end ProbePayload

/-! ## Settings -/

/-- A health check that can run (`HealthCheckSettings`). Times are in milliseconds, and none of
those that a probe waits for is zero. -/
structure CheckSettings where
  timeout : Nat
  interval : Nat
  jitter : Nat
  jitterPercent : Nat
  unhealthyInterval : Nat
  burstInterval : Option Nat
  noTrafficInterval : Option Nat
  healthyThreshold : Nat
  unhealthyThreshold : Nat
  alwaysStartHealthy : Bool
  payload : ProbePayload
  timeout_pos : 0 < timeout
  interval_pos : 0 < interval
  unhealthyInterval_pos : 0 < unhealthyInterval
  burstInterval_pos : ∀ n ∈ burstInterval, 0 < n
  noTrafficInterval_pos : ∀ n ∈ noTrafficInterval, 0 < n
  deriving DecidableEq, Repr

namespace CheckSettings

/-- The kind of transport that the check needs. -/
def kind (s : CheckSettings) : ProbeKind :=
  s.payload.kind

/-- The verdict that a check starts a new host with (`HealthCheckSession::initial_state`). -/
def initialVerdict (s : CheckSettings) : Health :=
  if s.alwaysStartHealthy then .healthy else .unhealthy

/-- The first number that is zero and must not be. -/
def zeroField? (c : CheckConfig) : Option PositiveField :=
  if c.interval = 0 then some .interval
  else if c.timeout = 0 then some .timeout
  else if c.healthyThreshold = 0 then some .healthyThreshold
  else if c.unhealthyThreshold = 0 then some .unhealthyThreshold
  else if c.unhealthyInterval = some 0 then some .unhealthyInterval
  else if c.burstInterval = some 0 then some .burstInterval
  else if c.noTrafficInterval = some 0 then some .noTrafficInterval
  else none

/-- Without such a field every time that was given is positive. -/
theorem pos_of_zeroField?_eq_none {c : CheckConfig} (h : zeroField? c = none) :
    0 < c.timeout ∧ 0 < c.interval ∧ (∀ n ∈ c.unhealthyInterval, 0 < n) ∧
      (∀ n ∈ c.burstInterval, 0 < n) ∧ (∀ n ∈ c.noTrafficInterval, 0 < n) := by
  have pos (o : Option Nat) (ho : o ≠ some 0) (n : Nat) (hn : n ∈ o) : 0 < n :=
    Nat.pos_of_ne_zero fun h0 => ho (h0 ▸ hn)
  unfold zeroField? at h
  refine ⟨?_, ?_, pos _ ?_, pos _ ?_, pos _ ?_⟩ <;> grind

/-- The settings of a configured check, or the first thing wrong with it
(`HealthCheckSettings::from_config`). -/
def ofConfig (c : CheckConfig) : Except CheckProblem CheckSettings :=
  match h : zeroField? c with
  | some field => .error (.notPositive field)
  | none =>
    have positive := pos_of_zeroField?_eq_none h
    if 100 < c.jitterPercent then .error .jitterTooLarge
    else do
      let payload ← ProbePayload.ofConfig c.probe
      pure {
        timeout := c.timeout
        interval := c.interval
        jitter := c.jitter
        jitterPercent := c.jitterPercent
        unhealthyInterval := c.unhealthyInterval.getD c.interval
        burstInterval := c.burstInterval
        noTrafficInterval := c.noTrafficInterval
        healthyThreshold := c.healthyThreshold
        unhealthyThreshold := c.unhealthyThreshold
        alwaysStartHealthy := c.alwaysStartHealthy
        payload
        timeout_pos := positive.1
        interval_pos := positive.2.1
        unhealthyInterval_pos := by
          cases h : c.unhealthyInterval with
          | none => exact positive.2.1
          | some n => exact positive.2.2.1 n h
        burstInterval_pos := positive.2.2.2.1
        noTrafficInterval_pos := positive.2.2.2.2 }

end CheckSettings

end LoadBalancing
