/-
How long a check waits between two probes, against what its configuration says.

A configuration promises a base that depends on the host, and on top of it a random time below a
percentage of the base and another one below a fixed bound (`CheckConfig.Promised`). What the bound
and the sum of the random times are computed from must fit 64 bits, and nothing that is configured
is too large for the product of a base and a percentage to leave them. So a check may wait for
exactly the times that are promised if and only if the product and all sums of two random times fit
(`CheckSettings.delays_ofConfig`). It never waits for any other time. If the product does not fit,
it waits for none: each attempt to draw a delay breaks off.
-/
import LoadBalancing.Check.Interval
import LoadBalancing.Proofs.Check.Operations
import Mathlib.Algebra.GroupWithZero.Nat

set_option autoImplicit false

namespace LoadBalancing

/-! ## What is promised -/

namespace CheckConfig

/-- The times of a configuration are what their fields can hold, 64 bits. -/
structure InRange (c : CheckConfig) : Prop where
  interval : c.interval < 2 ^ 64
  jitter : c.jitter < 2 ^ 64
  unhealthyInterval : ∀ n ∈ c.unhealthyInterval, n < 2 ^ 64
  burstInterval : ∀ n ∈ c.burstInterval, n < 2 ^ 64
  noTrafficInterval : ∀ n ∈ c.noTrafficInterval, n < 2 ^ 64

variable (c : CheckConfig) (verdict : Health) (flipped hasTraffic : Bool)

/-- The base of a delay: the first interval that is given for the host as it is. -/
def base : Nat :=
  (if hasTraffic then none else c.noTrafficInterval).getD
    ((if flipped then c.burstInterval else none).getD
      ((if verdict = .unhealthy then c.unhealthyInterval else none).getD c.interval))

/-- The percentage of the base that random times stay below, rounded down. -/
def percentBound : Nat :=
  c.base verdict flipped hasTraffic * c.jitterPercent / 100

/-- A delay that the configuration promises: the base and two random times, each of which stays
below its bound, and is zero if the bound is. -/
def Promised (delay : Nat) : Prop :=
  ∃ a < max 1 (c.percentBound verdict flipped hasTraffic), ∃ b < max 1 c.jitter,
    delay = c.base verdict flipped hasTraffic + a + b

/-- All that a delay is computed from fits 64 bits: the product that the percentage is taken of,
and the sum of the two random times, whichever these are. -/
structure Fits : Prop where
  product : c.base verdict flipped hasTraffic * c.jitterPercent < 2 ^ 64
  sum : ∀ a < max 1 (c.percentBound verdict flipped hasTraffic), ∀ b < max 1 c.jitter,
    a + b < 2 ^ 64

variable {c verdict flipped hasTraffic}

/-- The delays that are promised are all those from the base on, up to a last one. -/
theorem promised_iff {delay : Nat} : c.Promised verdict flipped hasTraffic delay ↔
    c.base verdict flipped hasTraffic ≤ delay ∧
      delay + 1 < c.base verdict flipped hasTraffic +
        (max 1 (c.percentBound verdict flipped hasTraffic) + max 1 c.jitter) := by
  constructor
  · rintro ⟨a, ha, b, hb, rfl⟩
    omega
  · rintro ⟨hle, hlt⟩
    -- the first random time takes as much as it can, the second one the rest
    obtain ⟨k, rfl⟩ := Nat.exists_eq_add_of_le hle
    refine ⟨min k (max 1 (c.percentBound verdict flipped hasTraffic) - 1), by omega,
      k - min k (max 1 (c.percentBound verdict flipped hasTraffic) - 1), by omega, by omega⟩

/-- Sums fit if the largest does. -/
theorem fits_iff : c.Fits verdict flipped hasTraffic ↔
    c.base verdict flipped hasTraffic * c.jitterPercent < 2 ^ 64 ∧
      max 1 (c.percentBound verdict flipped hasTraffic) + max 1 c.jitter < 2 ^ 64 + 2 := by
  constructor
  · rintro ⟨product, sum⟩
    have largest := sum (max 1 (c.percentBound verdict flipped hasTraffic) - 1) (by omega)
      (max 1 c.jitter - 1) (by omega)
    exact ⟨product, by omega⟩
  · rintro ⟨product, largest⟩
    exact ⟨product, fun a ha b hb => by omega⟩

variable (c verdict flipped hasTraffic)

/-- All delays that are promised, the least one first. -/
def promises : List Nat :=
  (List.range (max 1 (c.percentBound verdict flipped hasTraffic) - 1 +
    (max 1 c.jitter - 1) + 1)).map (c.base verdict flipped hasTraffic + ·)

variable {c verdict flipped hasTraffic}

/-- The list has them all, and no others. -/
theorem mem_promises {delay : Nat} : delay ∈ c.promises verdict flipped hasTraffic ↔
    c.Promised verdict flipped hasTraffic delay := by
  rw [promised_iff, promises, List.mem_map]
  simp only [List.mem_range]
  constructor
  · rintro ⟨k, hk, rfl⟩
    omega
  · rintro ⟨hle, hlt⟩
    obtain ⟨k, rfl⟩ := Nat.exists_eq_add_of_le hle
    exact ⟨k, by omega, rfl⟩

end CheckConfig

/-! ## What is waited for -/

namespace CheckSettings

/-- A delay that some random numbers lead to. -/
def Possible (s : CheckSettings) (verdict : Health) (flipped hasTraffic : Bool) (delay : Nat) :
    Prop :=
  ∃ first second, s.nextDelay? verdict flipped hasTraffic first second = some delay

variable {c : CheckConfig} {s : CheckSettings} {verdict : Health} {flipped hasTraffic : Bool}

/-! ### Random times -/

/-- What fits a word of 64 bits, as the bounds here are written. -/
theorem size_word : UInt64.size = 2 ^ 64 := rfl

/-- A random time stays below its bound, and is zero if the bound is. -/
theorem below_lt (random : UInt64) (bound : Nat) : below random bound < max 1 bound := by
  rw [below]
  split
  · omega
  · have := Nat.mod_lt random.toNat (Nat.pos_of_ne_zero ‹_›)
    omega

/-- Every time below its bound is that of some random number. -/
theorem exists_below_eq {bound a : Nat} (hbound : bound ≤ 2 ^ 64) (ha : a < max 1 bound) :
    ∃ random, below random bound = a := by
  have hword : a.toUInt64.toNat = a := Nat.mod_eq_of_lt (by omega)
  refine ⟨a.toUInt64, ?_⟩
  rw [below, hword]
  split
  · omega
  · exact Nat.mod_eq_of_lt (by omega)

/-- What two random numbers lead to, unless the product or the sum of the two random times is too
large. -/
theorem nextDelay?_eq_some_iff {first second : UInt64} {delay : Nat} :
    s.nextDelay? verdict flipped hasTraffic first second = some delay ↔
      let base := s.baseDelay verdict flipped hasTraffic
      let a := below first (base * s.jitterPercent / 100)
      let b := below second s.jitter
      base * s.jitterPercent < 2 ^ 64 ∧ a + b < 2 ^ 64 ∧ delay = base + a + b := by
  dsimp only
  simp only [nextDelay?, randomPart?, percentBound?, Option.map_eq_some_iff,
    Option.bind_eq_bind, Option.bind_eq_some_iff, fitting?_eq_some_iff, size_word]
  constructor
  · rintro ⟨_, ⟨_, ⟨_, ⟨product, rfl⟩, rfl⟩, sum, rfl⟩, rfl⟩
    exact ⟨product, sum, (Nat.add_assoc ..).symm⟩
  · rintro ⟨product, sum, rfl⟩
    exact ⟨_, ⟨_, ⟨_, ⟨product, rfl⟩, rfl⟩, sum, rfl⟩, (Nat.add_assoc ..).symm⟩

/-- Whatever the two random numbers are, each gives a time below its bound, and any such times are
given by some. -/
theorem possible_iff (hjitter : s.jitter < 2 ^ 64) {delay : Nat} :
    s.Possible verdict flipped hasTraffic delay ↔
      s.baseDelay verdict flipped hasTraffic * s.jitterPercent < 2 ^ 64 ∧
        ∃ a < max 1 (s.baseDelay verdict flipped hasTraffic * s.jitterPercent / 100),
          ∃ b < max 1 s.jitter, a + b < 2 ^ 64 ∧
            delay = s.baseDelay verdict flipped hasTraffic + a + b := by
  simp only [Possible, nextDelay?_eq_some_iff]
  constructor
  · rintro ⟨first, second, product, sum, rfl⟩
    exact ⟨product, _, below_lt first _, _, below_lt second _, sum, rfl⟩
  · rintro ⟨product, a, ha, b, hb, sum, rfl⟩
    -- each time below its bound is its own random number
    obtain ⟨first, rfl⟩ := exists_below_eq (by omega) ha
    obtain ⟨second, rfl⟩ := exists_below_eq (Nat.le_of_lt hjitter) hb
    exact ⟨first, second, product, sum, rfl⟩

/-- Delays are listed if all of them fit, and then the list has those that are possible. -/
theorem possibleDelays?_eq_some_iff {delays : List Nat} :
    s.possibleDelays? verdict flipped hasTraffic = some delays ↔
      let base := s.baseDelay verdict flipped hasTraffic
      let largest := max 1 (base * s.jitterPercent / 100) - 1 + (max 1 s.jitter - 1)
      base * s.jitterPercent < 2 ^ 64 ∧ largest < 2 ^ 64 ∧
        delays = (List.range (largest + 1)).map (base + ·) := by
  dsimp only
  simp only [possibleDelays?, percentBound?, Option.bind_eq_bind, Option.bind_eq_some_iff,
    Option.map_eq_some_iff, fitting?_eq_some_iff, size_word, Option.pure_def, Option.some.injEq]
  constructor
  · rintro ⟨_, ⟨_, ⟨product, rfl⟩, rfl⟩, _, ⟨largest, rfl⟩, rfl⟩
    exact ⟨product, largest, rfl⟩
  · rintro ⟨product, largest, rfl⟩
    exact ⟨_, ⟨_, ⟨product, rfl⟩, rfl⟩, _, ⟨largest, rfl⟩, rfl⟩

/-! ### Settings of a configuration -/

/-- The times that a configuration is read into. -/
theorem times_ofConfig (settled : ofConfig c = .ok s) :
    s.interval = c.interval ∧ s.jitter = c.jitter ∧ s.jitterPercent = c.jitterPercent ∧
      s.unhealthyInterval = c.unhealthyInterval.getD c.interval ∧
      s.burstInterval = c.burstInterval ∧ s.noTrafficInterval = c.noTrafficInterval := by
  rw [ofConfig] at settled
  split at settled
  · cases settled
  · dsimp only at settled
    split at settled
    · cases settled
    · obtain ⟨payload, -, hsettings⟩ := Except.bind_eq_ok.1 settled
      cases hsettings
      exact ⟨rfl, rfl, rfl, rfl, rfl, rfl⟩

/-- The base is the first interval that is given. -/
theorem baseDelay_ofConfig (settled : ofConfig c = .ok s) :
    s.baseDelay verdict flipped hasTraffic = c.base verdict flipped hasTraffic := by
  obtain ⟨hinterval, -, -, hunhealthy, hburst, hidle⟩ := times_ofConfig settled
  -- the interval of a host that is down is the usual one, unless another is given
  have steady : (if verdict = .unhealthy then s.unhealthyInterval else s.interval) =
      (if verdict = .unhealthy then c.unhealthyInterval else none).getD c.interval := by
    rw [hinterval, hunhealthy]
    split <;> rfl
  have regular : (if flipped then s.burstInterval.getD
        (if verdict = .unhealthy then s.unhealthyInterval else s.interval)
      else if verdict = .unhealthy then s.unhealthyInterval else s.interval) =
      (if flipped then c.burstInterval else none).getD
        ((if verdict = .unhealthy then c.unhealthyInterval else none).getD c.interval) := by
    rw [steady, hburst]
    cases flipped <;> rfl
  unfold baseDelay CheckConfig.base
  rw [← regular, hidle]
  cases hasTraffic with
  | true => rfl
  | false => cases c.noTrafficInterval <;> rfl

/-- What a check waits for, against what is promised. -/
structure KeepsTo (s : CheckSettings) (c : CheckConfig) (verdict : Health)
    (flipped hasTraffic : Bool) : Prop where
  /-- The delays that are possible: none if the product behind the bound of the first random time
  does not fit, and else all that are promised of which the sum of the random times fits. -/
  possible : ∀ delay, s.Possible verdict flipped hasTraffic delay ↔
    c.base verdict flipped hasTraffic * c.jitterPercent < 2 ^ 64 ∧
      ∃ a < max 1 (c.percentBound verdict flipped hasTraffic), ∃ b < max 1 c.jitter,
        a + b < 2 ^ 64 ∧ delay = c.base verdict flipped hasTraffic + a + b
  /-- No delay is possible that is not promised. -/
  promised : ∀ delay, s.Possible verdict flipped hasTraffic delay →
    c.Promised verdict flipped hasTraffic delay
  /-- All that is promised is possible exactly when everything fits. -/
  exact_iff : (∀ delay, s.Possible verdict flipped hasTraffic delay ↔
    c.Promised verdict flipped hasTraffic delay) ↔ c.Fits verdict flipped hasTraffic
  /-- No random numbers overflow exactly when everything fits. -/
  returns_iff : (∀ first second,
    (s.nextDelay? verdict flipped hasTraffic first second).isSome = true) ↔
      c.Fits verdict flipped hasTraffic
  /-- The possible delays are listed exactly when everything fits. -/
  listed_iff : (s.possibleDelays? verdict flipped hasTraffic).isSome = true ↔
    c.Fits verdict flipped hasTraffic
  /-- The list is complete, and has no other delays. -/
  listed : ∀ delays, s.possibleDelays? verdict flipped hasTraffic = some delays →
    ∀ delay, delay ∈ delays ↔ s.Possible verdict flipped hasTraffic delay

section Settled

variable (settled : ofConfig c = .ok s) (inRange : c.InRange)

include settled

/-- The equation of a delay, in the times that are configured. -/
theorem nextDelay?_ofConfig {first second : UInt64} {delay : Nat} :
    s.nextDelay? verdict flipped hasTraffic first second = some delay ↔
      let a := below first (c.percentBound verdict flipped hasTraffic)
      let b := below second c.jitter
      c.base verdict flipped hasTraffic * c.jitterPercent < 2 ^ 64 ∧ a + b < 2 ^ 64 ∧
        delay = c.base verdict flipped hasTraffic + a + b := by
  obtain ⟨-, hjitter, hpercent, -⟩ := times_ofConfig settled
  rw [nextDelay?_eq_some_iff, baseDelay_ofConfig settled, hjitter, hpercent,
    CheckConfig.percentBound]

/-- Delays are listed if everything fits, and then they are those that are promised. -/
theorem possibleDelays?_ofConfig {delays : List Nat} :
    s.possibleDelays? verdict flipped hasTraffic = some delays ↔
      c.Fits verdict flipped hasTraffic ∧ delays = c.promises verdict flipped hasTraffic := by
  obtain ⟨-, hjitter, hpercent, -⟩ := times_ofConfig settled
  rw [possibleDelays?_eq_some_iff, baseDelay_ofConfig settled, hjitter, hpercent,
    CheckConfig.fits_iff, and_assoc, CheckConfig.promises, CheckConfig.percentBound]
  refine and_congr_right fun _ => and_congr_left fun _ => ?_
  omega

include inRange

/-- The possible delays, in the times that are configured. -/
theorem possible_ofConfig (verdict : Health) (flipped hasTraffic : Bool) (delay : Nat) :
    s.Possible verdict flipped hasTraffic delay ↔
    c.base verdict flipped hasTraffic * c.jitterPercent < 2 ^ 64 ∧
      ∃ a < max 1 (c.percentBound verdict flipped hasTraffic), ∃ b < max 1 c.jitter,
        a + b < 2 ^ 64 ∧ delay = c.base verdict flipped hasTraffic + a + b := by
  obtain ⟨-, hjitter, hpercent, -⟩ := times_ofConfig settled
  rw [possible_iff (hjitter ▸ inRange.jitter), baseDelay_ofConfig settled, hjitter, hpercent,
    CheckConfig.percentBound]

/-- Where everything fits, nothing of what is promised is left out. -/
theorem possible_iff_promised (fits : c.Fits verdict flipped hasTraffic) (delay : Nat) :
    s.Possible verdict flipped hasTraffic delay ↔
      c.Promised verdict flipped hasTraffic delay := by
  rw [possible_ofConfig settled inRange, CheckConfig.Promised]
  constructor
  · rintro ⟨-, a, ha, b, hb, -, rfl⟩
    exact ⟨a, ha, b, hb, rfl⟩
  · rintro ⟨a, ha, b, hb, rfl⟩
    exact ⟨fits.product, a, ha, b, hb, fits.sum a ha b hb, rfl⟩

/-- Where all that is promised is possible, everything fits. -/
theorem fits_of_possible (same : ∀ delay, s.Possible verdict flipped hasTraffic delay ↔
    c.Promised verdict flipped hasTraffic delay) : c.Fits verdict flipped hasTraffic := by
  -- the last delay needs both random times to be as large as promised
  have last := (same (c.base verdict flipped hasTraffic +
    (max 1 (c.percentBound verdict flipped hasTraffic) + max 1 c.jitter - 2))).2
    (CheckConfig.promised_iff.2 ⟨Nat.le_add_right .., by omega⟩)
  obtain ⟨product, a, ha, b, hb, sum, heq⟩ := (possible_ofConfig settled inRange ..).1 last
  exact CheckConfig.fits_iff.2 ⟨product, by omega⟩

/-- No random numbers overflow exactly when everything fits. The largest random times are those of
some random numbers, so it is they that tell. -/
theorem returns_iff_fits : (∀ first second,
    (s.nextDelay? verdict flipped hasTraffic first second).isSome = true) ↔
      c.Fits verdict flipped hasTraffic := by
  simp only [Option.isSome_iff_exists]
  constructor
  · intro returns
    obtain ⟨_, hfirst⟩ := returns 0 0
    have product := ((nextDelay?_ofConfig settled).1 hfirst).1
    have hpercent : c.percentBound verdict flipped hasTraffic ≤ 2 ^ 64 := by
      rw [CheckConfig.percentBound]
      omega
    refine ⟨product, fun a ha b hb => ?_⟩
    -- any two times are those of some random numbers, which did not overflow either
    obtain ⟨first, rfl⟩ := exists_below_eq hpercent ha
    obtain ⟨second, rfl⟩ := exists_below_eq (Nat.le_of_lt inRange.jitter) hb
    obtain ⟨_, hdelay⟩ := returns first second
    exact ((nextDelay?_ofConfig settled).1 hdelay).2.1
  · intro fits first second
    have sum := fits.sum _ (below_lt first _) _ (below_lt second _)
    exact ⟨_, (nextDelay?_ofConfig settled).2 ⟨fits.product, sum, rfl⟩⟩

end Settled

/-- **A check waits for exactly the delays that are promised if and only if all that they are
computed from fits 64 bits**, and never for a delay that is not promised. The last of the promised
delays tells: it is possible only if nothing overflows. -/
theorem delays_ofConfig (settled : ofConfig c = .ok s) (inRange : c.InRange)
    (verdict : Health) (flipped hasTraffic : Bool) :
    s.KeepsTo c verdict flipped hasTraffic where
  possible := possible_ofConfig settled inRange verdict flipped hasTraffic
  promised delay hdelay := by
    obtain ⟨-, a, ha, b, hb, -, rfl⟩ := (possible_ofConfig settled inRange ..).1 hdelay
    exact ⟨a, ha, b, hb, rfl⟩
  exact_iff := ⟨fits_of_possible settled inRange, possible_iff_promised settled inRange⟩
  returns_iff := returns_iff_fits settled inRange
  listed_iff := by
    rw [Option.isSome_iff_exists]
    constructor
    · rintro ⟨delays, hdelays⟩
      exact ((possibleDelays?_ofConfig settled).1 hdelays).1
    · intro fits
      exact ⟨_, (possibleDelays?_ofConfig settled).2 ⟨fits, rfl⟩⟩
  listed delays hdelays delay := by
    obtain ⟨fits, rfl⟩ := (possibleDelays?_ofConfig settled).1 hdelays
    rw [CheckConfig.mem_promises, possible_iff_promised settled inRange fits]

/-! ### A check of idle hosts, and one that is hardly ever made -/

section Instances

/-- Hosts are checked every second, and once a minute as long as nobody uses them. -/
def idlingCheck : CheckConfig :=
  { CheckConfig.standard with
    interval := 1000
    burstInterval := some 100
    noTrafficInterval := some 60000
    jitter := 50
    jitterPercent := 10 }

/-- Hosts are checked after an interval and up to as much again, where the interval is so long that
its hundredfold does not fit 64 bits. -/
def distantCheck : CheckConfig :=
  { CheckConfig.standard with interval := 2 ^ 62, jitterPercent := 100 }

theorem delays_idlingCheck :
    ∃ s, ofConfig idlingCheck = .ok s ∧ idlingCheck.InRange ∧
      (∀ delay, s.Possible .unhealthy true false delay ↔ 60000 ≤ delay ∧ delay ≤ 66048) ∧
      ∀ delay, s.Possible .unhealthy true true delay ↔ 100 ≤ delay ∧ delay ≤ 158 := by
  have settled := Except.eq_ok_get (x := ofConfig idlingCheck) rfl
  have inRange : idlingCheck.InRange := by constructor <;> decide
  have idle := (delays_ofConfig settled inRange .unhealthy true false).exact_iff.2
    (CheckConfig.fits_iff.2 (by decide))
  have used := (delays_ofConfig settled inRange .unhealthy true true).exact_iff.2
    (CheckConfig.fits_iff.2 (by decide))
  have idleBounds : idlingCheck.base .unhealthy true false = 60000 ∧
      idlingCheck.percentBound .unhealthy true false = 6000 := by decide
  have usedBounds : idlingCheck.base .unhealthy true true = 100 ∧
      idlingCheck.percentBound .unhealthy true true = 10 := by decide
  have jitter : idlingCheck.jitter = 50 := rfl
  refine ⟨_, settled, inRange, fun delay => ?_, fun delay => ?_⟩
  · rw [idle, CheckConfig.promised_iff, idleBounds.1, idleBounds.2, jitter]
    omega
  · rw [used, CheckConfig.promised_iff, usedBounds.1, usedBounds.2, jitter]
    omega

/-- The product does not fit, so no random numbers give any of the delays that are promised. -/
theorem not_promised_distantCheck :
    ∃ s, ofConfig distantCheck = .ok s ∧ distantCheck.InRange ∧
      ¬ distantCheck.Fits .healthy false true ∧
      (∀ first second, s.nextDelay? .healthy false true first second = none) ∧
      distantCheck.Promised .healthy false true (2 ^ 62) ∧
      distantCheck.Promised .healthy false true (2 ^ 63 - 1) ∧
      ∀ delay, ¬ s.Possible .healthy false true delay := by
  have settled := Except.eq_ok_get (x := ofConfig distantCheck) rfl
  have inRange : distantCheck.InRange := by constructor <;> decide
  -- 2 ^ 62 milliseconds times 100 percent
  have tooLarge : ¬ distantCheck.base .healthy false true * distantCheck.jitterPercent < 2 ^ 64 :=
    by decide
  have never (first second : UInt64) : ((ofConfig distantCheck).toOption.get rfl).nextDelay?
      .healthy false true first second = none := by
    rw [Option.eq_none_iff_forall_ne_some]
    intro delay hdelay
    exact tooLarge ((nextDelay?_ofConfig settled).1 hdelay).1
  refine ⟨_, settled, inRange, fun fits => tooLarge fits.product, never,
    CheckConfig.promised_iff.2 (by decide), CheckConfig.promised_iff.2 (by decide), ?_⟩
  rintro delay ⟨first, second, heq⟩
  cases (never first second).symm.trans heq

end Instances

end CheckSettings

end LoadBalancing
