/-
The time to the next probe (`next_interval`).

The base of the delay is the idle interval for a host that never served a request,
where one is set; else the burst interval right after a verdict changed, where one
is set; else the unhealthy interval for unhealthy hosts and the regular one for
all others. A random time is added: below the given percentage of the base, and
below the fixed jitter. The bounds are computed in 64 bits, and so is the sum of the
two random numbers. Where either does not fit, there is no delay.
-/
import LoadBalancing.Check.Settings
import LoadBalancing.Overflow

set_option autoImplicit false

namespace LoadBalancing

namespace CheckSettings

/-- The delay without its random part. -/
def baseDelay (s : CheckSettings) (verdict : Health) (flipped hasTraffic : Bool) : Nat :=
  match hasTraffic, s.noTrafficInterval with
  | false, some idle => idle
  | _, _ =>
    let steady := if verdict = .unhealthy then s.unhealthyInterval else s.interval
    if flipped then s.burstInterval.getD steady else steady

/-- No check probes without a pause: each interval it can choose is positive. -/
theorem baseDelay_pos (s : CheckSettings) (verdict : Health) (flipped hasTraffic : Bool) :
    0 < s.baseDelay verdict flipped hasTraffic := by
  have steady : 0 < if verdict = .unhealthy then s.unhealthyInterval else s.interval := by
    split
    · exact s.unhealthyInterval_pos
    · exact s.interval_pos
  have paced : 0 < if flipped then
      s.burstInterval.getD (if verdict = .unhealthy then s.unhealthyInterval else s.interval)
      else if verdict = .unhealthy then s.unhealthyInterval else s.interval := by
    split
    · cases h : s.burstInterval with
      | none => exact steady
      | some n => exact s.burstInterval_pos n h
    · exact steady
  unfold baseDelay
  split
  next idle h => exact s.noTrafficInterval_pos idle h
  next => exact paced

/-- The bound of the random part that goes with the base, unless the product overflows
(`jitter`). -/
def percentBound? (s : CheckSettings) (base : Nat) : Option Nat :=
  (fitting? UInt64.size (base * s.jitterPercent)).map (· / 100)

/-- A number below `bound` from a random one; zero if nothing is below it. -/
def below (random : UInt64) (bound : Nat) : Nat :=
  if bound = 0 then 0 else random.toNat % bound

/-- The random part of a delay, for two random numbers, unless the product that bounds it or the sum
of its two parts overflows (`jitter`). -/
def randomPart? (s : CheckSettings) (base : Nat) (first second : UInt64) : Option Nat := do
  let percent ← s.percentBound? base
  fitting? UInt64.size (below first percent + below second s.jitter)

/-- The delay before the next probe, in milliseconds, for two random numbers (`next_interval`). The
base is no longer a word when the random part is added, so only that part can overflow. -/
def nextDelay? (s : CheckSettings) (verdict : Health) (flipped hasTraffic : Bool)
    (first second : UInt64) : Option Nat :=
  let base := s.baseDelay verdict flipped hasTraffic
  (s.randomPart? base first second).map (base + ·)

theorem pos_of_nextDelay? {s : CheckSettings} {verdict : Health} {flipped hasTraffic : Bool}
    {first second : UInt64} {delay : Nat}
    (h : s.nextDelay? verdict flipped hasTraffic first second = some delay) : 0 < delay := by
  obtain ⟨part, -, rfl⟩ := Option.map_eq_some_iff.1 h
  have := s.baseDelay_pos verdict flipped hasTraffic
  omega

/-- Every delay that some random numbers give, in increasing order, unless some give none. -/
def possibleDelays? (s : CheckSettings) (verdict : Health) (flipped hasTraffic : Bool) :
    Option (List Nat) := do
  let base := s.baseDelay verdict flipped hasTraffic
  let percent := max 1 (← s.percentBound? base)
  let fixed := max 1 s.jitter
  let largest ← fitting? UInt64.size (percent - 1 + (fixed - 1))
  pure ((List.range (largest + 1)).map (base + ·))

end CheckSettings

end LoadBalancing
