/-
Strategies: how a cluster builds its balancers (`StrategyFactory`).

A strategy is a policy with the settings common to all policies. Building is
deterministic, but two things run on from one build to the next: rotations get
fresh numbers, so that a rebuilt list starts its turns anew while holders of the
old one go on with theirs, and the figures of the rings are noted. Both are kept
in a `Workshop` that goes along with the builds.
-/
import LoadBalancing.Balancer.Basic

set_option autoImplicit false

namespace LoadBalancing

/-- How the program computes with real numbers: rings from shares, the panic test,
and weights scaled to a part of the hosts. -/
structure Numerics where
  ringOf : RingSettings → HostTable → HostSet → Partition → Ring
  /-- Whether a host set has too few available hosts for a threshold in percent. -/
  inPanic : Float → HostSet → Bool
  /-- A weight times `kept` over `total`, to the nearest weight. -/
  scaleWeight : (weight kept total : Nat) → Nat

/-- Weights are numbers of 32 bits, and this is the largest of them. -/
def largestWeight : Nat := 0xffffffff

/-- `weight * kept / total` to the nearest integer, a half going up, and the largest
weight where that is too much; zero if there is no total. -/
def scaledWeight (α : Type) [Quantity α] (weight kept total : Nat) : Nat :=
  if total = 0 then 0
  else min largestWeight (Quantity.round
    ((Quantity.ofNat weight * Quantity.ofNat kept / Quantity.ofNat total : α)))

namespace Numerics

/-- The ring of one partition, with shares computed in `α`. -/
def ring (α : Type) [Quantity α] (settings : RingSettings) (t : HostTable) (s : HostSet)
    (p : Partition) : Ring :=
  Ring.ofShares (Shares.ofHostSet t s p : Shares α) settings

/-- Double precision throughout; this is how the program runs. -/
def float : Numerics where
  ringOf := ring Float
  inPanic threshold s := s.inPanic threshold
  scaleWeight := scaledWeight Float

/-- Shares and scaled weights without rounding errors, the panic test as given. -/
def exact (inPanic : Float → HostSet → Bool) : Numerics where
  ringOf := ring Rat
  inPanic
  scaleWeight := scaledWeight Rat

end Numerics

/-- What runs on from one build to the next. -/
structure Workshop where
  /-- The number of the next rotation. -/
  nextList : Nat
  rings : RingStats
  deriving DecidableEq, Repr

namespace Workshop

/-- A workshop where nothing was built yet. -/
def new : Workshop := ⟨0, .zero⟩

instance : Inhabited Workshop := ⟨new⟩

/-- A workshop with figures of its own whose rotations do not clash with those of `w`. -/
def fresh (w : Workshop) : Workshop :=
  ⟨w.nextList, .zero⟩

end Workshop

/-- A policy that can be used, with the settings common to all policies (`StrategyFactory`). -/
structure Strategy where
  policy : Policy
  /-- Below this percentage of available hosts a level panics. -/
  panicThreshold : Float

namespace Strategy

/-- Checks the settings of the policy, so that building cannot fail later
(`StrategyFactory::new`). -/
def new (policy : Policy) (panicThreshold : Float) : Except PolicyProblem Strategy :=
  match policy.problem? with
  | some problem => .error problem
  | none => .ok ⟨policy, panicThreshold⟩

/-- Builds the balancer of a priority set as it stands (`StrategyFactory::create`). -/
def build (strategy : Strategy) (n : Numerics) (t : HostTable) (s : PrioritySet) (w : Workshop) :
    Balancer × Workshop :=
  let balancer :=
    Balancer.build strategy.policy (n.inPanic strategy.panicThreshold) n.ringOf t s w.nextList
  (balancer,
    { nextList := w.nextList + PriorityTable.places s
      rings := balancer.rings.foldl RingStats.record w.rings })

end Strategy

end LoadBalancing
