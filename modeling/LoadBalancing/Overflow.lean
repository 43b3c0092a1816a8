/-
Overflow.

Times and counts are kept in machine words. A result that does not fit its word is
not cut down to it. It breaks off whatever was going on, and nothing comes of that
except what was done to the hosts before: they are shared with everybody who holds
a snapshot, so it stays done.
-/
import LoadBalancing.Host.Basic

set_option autoImplicit false

namespace LoadBalancing

/-- A number, if it is one of the first `size`, which are those that a word holds. -/
def fitting? (size n : Nat) : Option Nat :=
  if n < size then some n else none

theorem fitting?_eq_some_iff {size n m : Nat} : fitting? size n = some m ↔ n < size ∧ n = m := by
  rw [fitting?]
  split <;> grind

theorem fitting?_eq_none_iff {size n : Nat} : fitting? size n = none ↔ size ≤ n := by
  rw [fitting?]
  split <;> simp_all

/-- Something was broken off by an overflow. -/
structure Overflow where
  /-- The hosts as they were left. -/
  hosts : HostTable

end LoadBalancing
