/-
A reproducible stream of random numbers.

The numbers come from a counter that is stepped by an odd constant and then mixed
by two rounds of shifts and multiplications, so that any two of them differ in about
half of their bits.
-/
import LoadBalancing.Check.Checker

set_option autoImplicit false

namespace LoadBalancing.Simulation

/-- Number `i` of the stream. -/
def chance (i : Nat) : UInt64 :=
  let z := (i.toUInt64 + 1) * 0x9e3779b97f4a7c15
  let z := (z ^^^ (z >>> 30)) * 0xbf58476d1ce4e5b9
  let z := (z ^^^ (z >>> 27)) * 0x94d049bb133111eb
  z ^^^ (z >>> 31)

/-- Random parts of delays, two numbers of the stream for each. -/
def chanceJitter : Jitter :=
  fun i => (chance (2 * i), chance (2 * i + 1))

end LoadBalancing.Simulation
