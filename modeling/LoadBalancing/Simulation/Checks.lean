/-
A checker on a simulated network.

The checker is told about time by a virtual clock and about answers by a network
whose answers are written down. Verdicts that change are logged with the time at
which they did. Hosts go by their addresses here; an address stands for the host
that came under it last.
-/
import LoadBalancing.Simulation.Clock
import LoadBalancing.Simulation.Network

set_option autoImplicit false

namespace LoadBalancing.Simulation

/-- A checker with the network it probes, and what it reported so far. -/
structure CheckRun where
  now : Nat
  checker : Checker
  hosts : HostTable
  /-- The latest host of every address. -/
  known : SortedMap String Host
  network : Network
  jitter : Jitter
  /-- The verdicts that changed since time last began to pass, and when. -/
  log : List (Nat × Transition)

namespace CheckRun

/-- The run of a new checker, at time zero. -/
def start (checker : Checker) (network : Network) (jitter : Jitter) : CheckRun :=
  { now := 0, checker, hosts := .empty, known := ∅, network, jitter, log := [] }

/-! ## Time -/

/-- Hands an answer to the checker. -/
def deliver (r : CheckRun) (now : Nat) (f : Flight) : Except Overflow CheckRun := do
  let (checker, hosts, transition) ←
    r.checker.deliver r.hosts now r.jitter f.key f.probe f.result
  pure { r with checker, hosts, log := r.log ++ transition.toList.map fun t => (now, t) }

/-- Does all that is due at `now`: timers first, then answers, those to the probes that
were just started included. -/
def settle (now : Nat) (r : CheckRun) : Except Overflow CheckRun := do
  let fired ← r.checker.fireDue r.hosts now r.jitter
  let network := fired.probes.foldl (fun n request => n.start now ⟨0, 0⟩ request) r.network
  let (answers, network) := network.arrived now
  let r :=
    { r with
      now
      checker := fired.checker
      hosts := fired.hosts
      network
      log := r.log ++ fired.transitions.map fun t => (now, t) }
  answers.foldlM (fun r f => r.deliver now f) r

/-- When something happens next. -/
def nextEvent? (r : CheckRun) : Option Nat :=
  earlier r.checker.agenda.nextDue? r.network.nextArrival?

/-- Lets time pass. -/
def advance (r : CheckRun) (duration : Nat) : Except Overflow CheckRun := do
  let target := r.now + duration
  let r ← runTo nextEvent? settle target r.now { r with log := [] }
  pure { r with now := target }

/-! ## Hosts -/

/-- A new host at an address. -/
def enroll (r : CheckRun) (address : String) : Host × CheckRun :=
  let (h, hosts) := r.hosts.enroll address 1 ⟨"", "", ""⟩ ∅
  (h, { r with hosts, known := r.known.insert address h })

/-- The host at an address, a new one if there is none. -/
def hostAt (r : CheckRun) (address : String) : Host × CheckRun :=
  match r.known.get? address with
  | some h => (h, r)
  | none => r.enroll address

/-- Finds or makes a host for each address. -/
def each (find : CheckRun → String → Host × CheckRun) (r : CheckRun) :
    List String → List Host × CheckRun
  | [] => ([], r)
  | a :: rest =>
    let (h, r) := find r a
    let (hosts, r) := each find r rest
    (h :: hosts, r)

/-- Tells the checker about hosts. -/
def tell (r : CheckRun) (f : Checker → HostTable → Checker × HostTable) : CheckRun :=
  let (checker, hosts) := f r.checker r.hosts
  { r with checker, hosts }

/-- Changes the live part of hosts. -/
def change (r : CheckRun) (hosts : List Host) (f : HostTable → Host → HostTable) : CheckRun :=
  { r with hosts := hosts.foldl f r.hosts }

/-! ## The log -/

/-- The log by time, then address, then check. -/
def sortedLog (r : CheckRun) : List (Nat × Transition) :=
  r.log.mergeSort fun a b =>
    (compareLex (compareOn fun e : Nat × Transition => e.1)
      (compareLex (compareOn fun e => e.2.host.address) (compareOn fun e => e.2.check)) a b).isLE

end CheckRun

end LoadBalancing.Simulation
