/-
The real arithmetic behind shares, rings and thresholds, over any number type.

Only a few definitions of this library leave the integers: the normalised shares
of hosts, the number of ring entries a share is worth, the weight of a locality
scaled to a part of its hosts, and the comparison with the panic threshold. They
are written once, over the operations of `Quantity`. The program runs them on
double-precision numbers; their laws are those of the rational numbers, where the
same definitions compute without rounding. Sums of weights and of percentages are
taken over the integers.
-/

set_option autoImplicit false

namespace LoadBalancing

/-- Non-negative real quantities, as far as shares and rings need them. -/
class Quantity (α : Type) extends Add α, Mul α, Div α where
  ofNat : Nat → α
  /-- Whether the first is strictly less than the second. -/
  less : α → α → Bool
  /-- The least integer that is not less. -/
  ceil : α → Nat
  /-- The nearest integer, a half going up. -/
  round : α → Nat

namespace Quantity

/-- The lesser of two quantities, the first where neither is less. -/
def least {α : Type} [Quantity α] (a b : α) : α :=
  if less b a then b else a

end Quantity

instance : Quantity Float where
  ofNat n := Float.ofNat n
  less a b := decide (a < b)
  ceil a := a.ceil.toUInt64.toNat
  round a := a.round.toUInt64.toNat

instance : Quantity Rat where
  ofNat n := (n : Rat)
  less a b := decide (a < b)
  ceil a := a.ceil.toNat
  round a := (a + 1 / 2).floor.toNat

end LoadBalancing
