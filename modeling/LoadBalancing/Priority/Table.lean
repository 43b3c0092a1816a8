/-
What balancers select from: one prebuilt piece per level and partition (`PriorityTable`).

A level that panics has one piece, built from all its hosts. Any other level has
one for its healthy hosts and one for its degraded hosts. The table is built once
per state of a priority set, so a request only walks the load table.
-/
import LoadBalancing.Priority.Load

set_option autoImplicit false

namespace LoadBalancing

/-- The pieces of one level (`PriorityLevel`). -/
structure TableLevel (β : Type) where
  /-- From the healthy hosts, or from all hosts in panic. -/
  primary : β
  /-- From the degraded hosts; none in panic. -/
  degraded : Option β

/-- The state of all levels, and the pieces to select from. -/
structure PriorityTable (β : Type) where
  state : PriorityState
  levels : List (TableLevel β)

namespace PriorityTable

variable {β : Type}

/-- Builds the table of `s` (`PriorityTable::build`). Each piece is told its place in the table, two
places per level, so that pieces can be given different names. -/
def build (s : PrioritySet) (inPanic : HostSet → Bool)
    (piece : Nat → HostSet → Partition → β) : PriorityTable β :=
  let state := PriorityState.compute s inPanic
  { state
    levels := s.levels.zipIdx.map fun (l, i) =>
      if state.isPanic i then ⟨piece (2 * i) l .all, none⟩
      else ⟨piece (2 * i) l .healthy, some (piece (2 * i + 1) l .degraded)⟩ }

/-- How many places the pieces of `s` take. -/
def places (s : PrioritySet) : Nat :=
  2 * s.levels.length

/-- All pieces, level by level. -/
def pieces (t : PriorityTable β) : List β :=
  t.levels.flatMap fun l => l.primary :: l.degraded.toList

/-- The piece for a request hash (`PriorityTable::pick`). A degraded pick on a level in panic is
served from all hosts of that level. -/
def pick? (t : PriorityTable β) (hash : UInt64) : Option β :=
  let (priority, availability) := t.state.choose hash
  t.levels[priority]?.map fun l =>
    match availability with
    | .healthy => l.primary
    | .degraded => l.degraded.getD l.primary

end PriorityTable

end LoadBalancing
