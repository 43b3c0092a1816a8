/-
A fleet on a simulated network.

All loops of a fleet share a virtual clock and a network whose answers are written
down. What is sent to a loop is handled when time next passes. Beside the loops
there may be tasks that never end; both kinds are held until a drain, which waits
for them and aborts those that have not ended in time.
-/
import LoadBalancing.Fleet.Basic
import LoadBalancing.Simulation.Clock
import LoadBalancing.Simulation.Network

set_option autoImplicit false

namespace LoadBalancing.Simulation

/-- Something to wait for. -/
inductive Task where
  | loop (number : Nat)
  /-- A task that never ends. -/
  | endless
  deriving DecidableEq, Repr

/-- A fleet with the network it probes and the tasks that somebody waits for. -/
structure FleetRun where
  now : Nat
  fleet : Fleet
  network : Network
  jitter : Jitter
  /-- The tasks that no drain has waited for yet. -/
  tasks : List Task

namespace FleetRun

/-- A run without clusters, at time zero. -/
def start (fleet : Fleet) (network : Network) (jitter : Jitter) : FleetRun :=
  { now := 0, fleet, network, jitter, tasks := [] }

/-- Lets one loop do what it has to do at `now`. -/
def workLoop (r : FleetRun) (now loop : Nat) : FleetRun :=
  match r.fleet.loops[loop]? with
  | none => r
  | some l =>
    let (l, probes) := l.work now r.jitter
    { r with
      fleet := { r.fleet with loops := r.fleet.loops.setIfInBounds loop l }
      network :=
        let asker : Asker := ⟨loop, l.cluster.checkerNumber⟩
        probes.foldl (fun n request => n.start now asker request) r.network }

/-- Hands an answer to the loop that asked. -/
def deliver (r : FleetRun) (now : Nat) (f : Flight) : FleetRun :=
  let loops := r.fleet.loops.modify f.asker.loop fun l =>
    l.deliver now r.jitter f.asker.checker f.key f.probe f.result
  { r with fleet := { r.fleet with loops } }

/-- Does all that is due at `now`: every loop works, and then answers arrive, those to the
probes that were just started included. -/
def settle (now : Nat) (r : FleetRun) : FleetRun :=
  let r := (List.range r.fleet.loops.size).foldl (fun r loop => r.workLoop now loop) r
  let (answers, network) := r.network.arrived now
  answers.foldl (fun r f => r.deliver now f) { r with now, network }

/-- When something happens next. -/
def nextEvent? (r : FleetRun) : Option Nat :=
  r.fleet.loops.foldl (fun e l => earlier e l.nextDue?) r.network.nextArrival?

/-- Lets time pass up to `target`. -/
def advanceTo (r : FleetRun) (target : Nat) : FleetRun :=
  let r : FleetRun := Id.run (runTo nextEvent? (fun now r => pure (settle now r)) target r.now r)
  { r with now := target }

/-- Lets some time pass. -/
def advance (r : FleetRun) (duration : Nat) : FleetRun :=
  r.advanceTo (r.now + duration)

/-! ## Fleet operations -/

/-- Brings the fleet in line with a configuration; returns how many loops began. -/
def applyConfig (r : FleetRun) (config : Config) : Except Overflow (Nat × FleetRun) := do
  let (spawned, fleet) ← r.fleet.applyConfig r.now config
  pure (spawned.length, { r with fleet, tasks := r.tasks ++ spawned.map .loop })

/-- Begins the loop of a cluster. -/
def spawn (r : FleetRun) (config : ClusterConfig) :
    Except Overflow (Except ConfigError FleetRun) := do
  match ← r.fleet.spawn r.now config with
  | .ok (loop, fleet) => pure (.ok { r with fleet, tasks := r.tasks ++ [.loop loop] })
  | .error e => pure (.error e)

/-! ## Draining -/

/-- Whether a task is still there. -/
def isUnfinished (r : FleetRun) : Task → Bool
  | .endless => true
  | .loop number =>
    match r.fleet.loops[number]? with
    | some l => !l.hasEnded
    | none => false

/-- Aborts a task. -/
def abort (r : FleetRun) : Task → FleetRun
  | .endless => r
  | .loop number =>
    { r with fleet := { r.fleet with loops := r.fleet.loops.modify number (·.abort) } }

/-- Waits for all tasks, at most for `duration`, and aborts those that are left. Time
passes only as long as there is something to wait for, and if there is nothing, or no
time to wait, nobody gets to do what was asked of him. Returns how many tasks were
aborted. -/
def drain (r : FleetRun) (duration : Nat) : Nat × FleetRun :=
  let waited :=
    if duration = 0 || !r.tasks.any r.isUnfinished then r
    else
      let r := settle r.now r
      if r.tasks.any r.isUnfinished then r.advance duration else r
  let left := waited.tasks.filter waited.isUnfinished
  (left.length, { left.foldl abort waited with tasks := [] })

end FleetRun

end LoadBalancing.Simulation
