/-
A network whose answers are written down.

For each kind of probe and each address there is a script of replies. Every probe
takes the next reply when it starts, and the last reply of a script is given again
and again; without a script the answer is healthy and comes at once. A reply may
also never come. Answers that nobody waits for any more still arrive; they say which
checker asked, and it is left to that one, or to its loop if there is another checker
by then, to see that they are too late.
-/
import LoadBalancing.Check.Checker

set_option autoImplicit false

namespace LoadBalancing.Simulation

/-- What a probe gets, and how long it takes. -/
structure Reply where
  /-- No result means that there is no answer at all. -/
  result : Option (Except ProbeError ProbeAnswer)
  delay : Nat

/-- The reply where nothing is written. -/
def Reply.standard : Reply :=
  ⟨some (.ok .healthy), 0⟩

/-- Who asks: one of the checkers that a loop has one after the other. -/
structure Asker where
  loop : Nat
  checker : Nat

/-- An answer on its way. -/
structure Flight where
  arrives : Nat
  asker : Asker
  key : SessionKey
  probe : Nat
  result : Except ProbeError ProbeAnswer

/-- Scripts and the answers that are on their way. -/
structure Network where
  /-- The replies to come, by the kind of the probe and the address. -/
  scripts : SortedMap String (List Reply)
  /-- How many probes of a kind started at an address. -/
  calls : SortedMap String Nat
  /-- The answers on their way, in the order in which their probes started. -/
  flights : List Flight

namespace Network

/-- A network with some scripts, that was not used yet. -/
def new (scripts : SortedMap String (List Reply)) : Network :=
  ⟨scripts, ∅, []⟩

/-- The name of a script: the kind of the probe and the address, with a space between. -/
def scriptName (request : ProbeRequest) : String :=
  request.payload.kind.name ++ " " ++ request.key.address

/-- Puts scripts in place of those of the same names. -/
def load (n : Network) (scripts : SortedMap String (List Reply)) : Network :=
  { n with scripts := scripts.entries.foldl (fun m e => m.insert e.1 e.2) n.scripts }

/-- The next reply of a script, and what is left of it. -/
def nextReply : List Reply → Reply × List Reply
  | [] => (.standard, [])
  | [last] => (last, [last])
  | reply :: rest => (reply, rest)

/-- Starts a probe. -/
def start (n : Network) (now : Nat) (asker : Asker) (request : ProbeRequest) : Network :=
  let name := scriptName request
  let (reply, rest) := nextReply ((n.scripts.get? name).getD [])
  let flights := reply.result.toList.map fun result =>
    { arrives := now + reply.delay, asker, key := request.key, probe := request.probe, result }
  { scripts := n.scripts.insert name rest
    calls := n.calls.insert name ((n.calls.get? name).getD 0 + 1)
    flights := n.flights ++ flights }

/-- The answers that have arrived, and the network without them. -/
def arrived (n : Network) (now : Nat) : List Flight × Network :=
  let (due, later) := n.flights.partition fun f => f.arrives ≤ now
  (due, { n with flights := later })

/-- When the next answer arrives. -/
def nextArrival? (n : Network) : Option Nat :=
  (n.flights.map (·.arrives)).min?

end Network

end LoadBalancing.Simulation
