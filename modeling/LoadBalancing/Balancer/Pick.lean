/-
What a single pick can change or use up: turns, counts and chance.

Balancers are values; they do not change when a host is picked. Three things do.
Rotating lists move on by one turn, and the turn is shared by everyone who holds
the same list, so turns are kept in one table by the number of the list. Picks
from subsets count which way they went, under the number of the engine that the
subsets belong to. And some picks draw random numbers: they take them from a
stream that is given from outside, so that a law about picks holds for whatever is
drawn.
-/
import Std.Data.HashMap

set_option autoImplicit false

namespace LoadBalancing

/-- How picks from subsets went (`SubsetStats`). -/
structure RouteCounts where
  /-- From the subset that a selector asked for. -/
  selected : Nat
  /-- By a fallback, of a selector or of the cluster. -/
  fallback : Nat
  /-- From all hosts, because nothing else gave one. -/
  panicFallback : Nat
  deriving DecidableEq, Repr

namespace RouteCounts

/-- No pick went any way yet. -/
def zero : RouteCounts := ⟨0, 0, 0⟩

instance : Inhabited RouteCounts := ⟨zero⟩

end RouteCounts

/-- The way a pick from subsets went, if it gave a host. -/
inductive Route where
  | selected
  | fallback
  | panicFallback
  deriving DecidableEq, Repr

namespace RouteCounts

/-- The counts with one more pick that went a way. -/
def add (c : RouteCounts) : Route → RouteCounts
  | .selected => { c with selected := c.selected + 1 }
  | .fallback => { c with fallback := c.fallback + 1 }
  | .panicFallback => { c with panicFallback := c.panicFallback + 1 }

end RouteCounts

/-- Turns of all rotating lists, counts of all subset engines, and the random numbers
still to come. -/
structure PickState where
  /-- How often each list was asked; a list that is not in the table was never asked. -/
  turns : Std.HashMap Nat UInt64
  /-- How picks went, by the number of the engine. -/
  routes : Std.HashMap Nat RouteCounts
  /-- The stream of random numbers. -/
  draw : Nat → UInt64
  /-- How many of them are used up. -/
  drawn : Nat

namespace PickState

/-- Nothing was picked yet. -/
def start (draw : Nat → UInt64) : PickState :=
  ⟨∅, ∅, draw, 0⟩

/-- How the picks of an engine went so far. -/
def routesOf (s : PickState) (engine : Nat) : RouteCounts :=
  s.routes.getD engine .zero

end PickState

/-- A pick of a host, or anything else that takes turns and draws. -/
abbrev Pick := StateM PickState

namespace Pick

/-- The next random number. -/
def random : Pick UInt64 :=
  modifyGet fun s => (s.draw s.drawn, { s with drawn := s.drawn + 1 })

/-- The turn of list `list`, which moves on by one; after the last 64-bit number
comes zero. -/
def takeTurn (list : Nat) : Pick UInt64 :=
  modifyGet fun s =>
    let turn := s.turns.getD list 0
    (turn, { s with turns := s.turns.insert list (turn + 1) })

/-- Counts a pick of an engine that gave a host. -/
def count (engine : Nat) (route : Route) : Pick Unit :=
  modify fun s => { s with routes := s.routes.insert engine ((s.routesOf engine).add route) }

/-- The hash that routes a request (`priority_hash`): its own if it has one, else a random one. -/
def routingHash (hash : Option UInt64) : Pick UInt64 :=
  match hash with
  | some h => pure h
  | none => random

/-- An item of a list, each with the same chance; none from an empty list. -/
def uniform {β : Type} (items : List β) : Pick (Option β) :=
  if items.isEmpty then pure none
  else do
    let r ← random
    pure items[r.toNat % items.length]?

end Pick

end LoadBalancing
