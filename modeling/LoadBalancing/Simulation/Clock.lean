/-
Virtual time.

A simulated state says when something happens next, and how it settles at a given
time. Time then jumps from event to event, so a minute without events takes no
longer than a millisecond. Where settling may be broken off, so may the run.
-/

set_option autoImplicit false

namespace LoadBalancing.Simulation

/-- Lets a state settle now and at every event up to and including `target`. An event is
in the future of the one before it; a state that names no such event stays as it is. -/
def runTo {m : Type → Type} [Monad m] {σ : Type} (next : σ → Option Nat)
    (settle : Nat → σ → m σ) (target now : Nat) (s : σ) : m σ := do
  let s ← settle now s
  match next s with
  | none => pure s
  | some event =>
    if now < event ∧ event ≤ target then runTo next settle target event s else pure s
termination_by target - now
decreasing_by omega

/-- The earlier of two times, where either may be missing. -/
def earlier (a b : Option Nat) : Option Nat :=
  match a, b with
  | some x, some y => some (min x y)
  | some x, none => some x
  | none, y => y

end LoadBalancing.Simulation
