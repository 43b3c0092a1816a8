/-
Control loops: a cluster with its owner (`Cluster::run`).

The loop of a cluster takes messages in the order in which they were sent, until it
is told to stop or until the shutdown of the whole program is announced to it. Then
it ends its health checks and closes. As long as it waits for their probes to be gone
it can be sent messages, but it takes none of them any more. When it has ended, nothing
can be sent to it. An overflow ends it at once. The last snapshot stays with those who
hold it.
-/
import LoadBalancing.Cluster.Basic

set_option autoImplicit false

namespace LoadBalancing

/-- How far a loop has come. -/
inductive LoopStatus where
  | running
  /-- Done with its messages and its health checks, but not gone yet. -/
  | closing
  /-- Told to go without any more work, but not gone yet. -/
  | aborted
  | ended
  /-- Ended by an overflow. -/
  | crashed
  deriving DecidableEq, Repr

/-- A cluster with what it was told and has not heard yet. -/
structure ControlLoop where
  cluster : Cluster
  /-- The messages not handled yet, the oldest first. A message to stop is handled when the loop
  has ended, so one that is closing still has it. -/
  queue : List ClusterUpdate
  /-- Whether a shutdown was announced since the loop began. -/
  shutdown : Bool
  status : LoopStatus
  /-- What the picks from this cluster used up. -/
  picks : PickState

namespace ControlLoop

/-- The loop of a new cluster, whose picks draw from `draw`. -/
def start (cluster : Cluster) (draw : Nat → UInt64) : ControlLoop :=
  { cluster, queue := [], shutdown := false, status := .running, picks := .start draw }

/-- Whether there is no one left to take a message. -/
def hasEnded (l : ControlLoop) : Bool :=
  l.status = .ended || l.status = .crashed

/-- Whether the loop still takes its messages. One that is told to go at once may come to take
some before it notices. -/
def isWorking (l : ControlLoop) : Bool :=
  l.status = .running || l.status = .aborted

/-- Ends the health checks. The loop is about to end. -/
def close (l : ControlLoop) : ControlLoop :=
  { l with cluster := l.cluster.stopChecks, status := .closing }

/-- Ends the loop and its health checks. -/
def finish (l : ControlLoop) : ControlLoop :=
  { l with cluster := l.cluster.stopChecks, queue := [], status := .ended }

/-- An overflow ends the loop. Of its cluster only the hosts are left, as they were then, and the
last snapshot. -/
def crash (l : ControlLoop) (overflow : Overflow) : ControlLoop :=
  { l with
    cluster := { l.cluster with hosts := overflow.hosts }.stopChecks
    queue := []
    status := .crashed }

/-- Puts a message behind the others; says whether the loop is still there to take it
(`ClusterHandle::send`). -/
def send (l : ControlLoop) (update : ClusterUpdate) : Bool × ControlLoop :=
  if l.hasEnded then (false, l) else (true, { l with queue := l.queue ++ [update] })

/-- Takes the oldest message (`handle_update`). -/
def takeUpdate (l : ControlLoop) (now : Nat) : ControlLoop :=
  match l.queue with
  | [] => l
  | .stop :: _ => l.close
  | update :: rest =>
    match l.cluster.handle now update with
    | .error overflow => l.crash overflow
    | .ok cluster => { l with cluster, queue := rest }

/-- How many messages the loop may come to take. -/
def backlog (l : ControlLoop) : Nat :=
  if l.isWorking then l.queue.length else 0

theorem backlog_eq_zero {l : ControlLoop} (h : l.isWorking = false) : l.backlog = 0 :=
  if_neg (by rw [h]; decide)

/-- A message fewer is left, or none is taken any more. -/
theorem backlog_takeUpdate (l : ControlLoop) (now : Nat) (working : l.isWorking = true)
    (h : l.queue ≠ []) : (l.takeUpdate now).backlog < l.backlog := by
  have here : l.backlog = l.queue.length := if_pos working
  have some_left : 0 < l.backlog := here ▸ List.length_pos_iff.2 h
  unfold takeUpdate
  split
  · contradiction
  · rw [backlog_eq_zero rfl]
    exact some_left
  next update rest _ hqueue =>
    split
    · rw [backlog_eq_zero rfl]
      exact some_left
    next cluster _ =>
      have fewer : ({ l with cluster, queue := rest } : ControlLoop).backlog = rest.length :=
        if_pos working
      rw [fewer, here, hqueue]
      exact Nat.lt_succ_self _

/-- Takes all messages, up to one that ends the loop. -/
def takeUpdates (l : ControlLoop) (now : Nat) : ControlLoop :=
  if h : l.isWorking = true ∧ l.queue ≠ [] then
    have := l.backlog_takeUpdate now h.1 h.2
    (l.takeUpdate now).takeUpdates now
  else l
termination_by l.backlog

/-- Fires what is due of the health checks. Returns the probes to start. -/
def fireDue (l : ControlLoop) (now : Nat) (jitter : Jitter) : ControlLoop × List ProbeRequest :=
  match l.cluster.fireDue now jitter with
  | .error overflow => (l.crash overflow, [])
  | .ok (cluster, probes) => ({ l with cluster }, probes)

/-- Does what there is to do at `now` (`Cluster::run`): goes if it was told to, else takes its
messages and does what its health checks ask for. Returns the probes to start. -/
def work (l : ControlLoop) (now : Nat) (jitter : Jitter) : ControlLoop × List ProbeRequest :=
  match l.status with
  | .ended | .crashed => (l, [])
  | .closing | .aborted => (l.finish, [])
  | .running =>
    if l.shutdown then (l.close.finish, [])
    else
      -- a message may have been the one to stop, or have ended it by an overflow
      let l := l.takeUpdates now
      match l.status with
      | .running => l.fireDue now jitter
      | .closing => (l.finish, [])
      | _ => (l, [])

/-- The result of a probe came in that checker number `asker` started; nobody waits for it
once the loop has ended. -/
def deliver (l : ControlLoop) (now : Nat) (jitter : Jitter) (asker : Nat) (key : SessionKey)
    (probe : Nat) (result : Except ProbeError ProbeAnswer) : ControlLoop :=
  if l.hasEnded then l
  else
    match l.cluster.deliver now jitter asker key probe result with
    | .error overflow => l.crash overflow
    | .ok cluster => { l with cluster }

/-- Tells the loop to go at once; one that is about to end is not told anything. -/
def abort (l : ControlLoop) : ControlLoop :=
  if l.status = .running then { l with status := .aborted } else l

/-- When the health checks of the loop have something to do next. -/
def nextDue? (l : ControlLoop) : Option Nat :=
  if l.hasEnded then none else l.cluster.checker.bind fun c => c.agenda.nextDue?

end ControlLoop

end LoadBalancing
