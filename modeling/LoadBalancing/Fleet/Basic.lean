/-
Fleets: running clusters by name (`ClusterManager`).

A name leads to at most one loop. A cluster that takes over a name tells the loop
that had it to stop; so does a configuration in which the name is missing. Loops
are numbered in the order in which they began, and one that is no longer
registered is kept until it has ended by itself.

A cluster is built by whoever asks for it, so an overflow in the course of that does not
end a loop but breaks off the call.
-/
import LoadBalancing.Fleet.ControlLoop

set_option autoImplicit false

namespace LoadBalancing

/-- All loops that ever began, and which of them has which name (`ClusterManager`). -/
structure Fleet where
  /-- The kinds of probes that can be sent. -/
  transports : List ProbeKind
  numerics : Numerics
  /-- The random numbers that the picks of each cluster draw. -/
  draw : Nat → UInt64
  /-- All loops that ever began. -/
  loops : Array ControlLoop
  /-- The number of the loop in charge, by name. -/
  registry : SortedMap String Nat

namespace Fleet

/-- A fleet without loops. -/
def empty (transports : List ProbeKind) (numerics : Numerics) (draw : Nat → UInt64) : Fleet :=
  { transports, numerics, draw, loops := #[], registry := ∅ }

/-- The loop that is registered under a name. -/
def find? (f : Fleet) (name : String) : Option ControlLoop :=
  (f.registry.get? name).bind fun i => f.loops[i]?

/-- How many clusters are registered. -/
def size (f : Fleet) : Nat :=
  f.registry.size

/-- Whether no cluster is registered. -/
def isEmpty (f : Fleet) : Bool :=
  f.registry.isEmpty

/-- How many loops have not ended, registered or not. -/
def running (f : Fleet) : Nat :=
  f.loops.countP fun l => !l.hasEnded

/-- Sends a message to a loop; says whether the loop was there to take it. -/
def send (f : Fleet) (loop : Nat) (update : ClusterUpdate) : Bool × Fleet :=
  match f.loops[loop]? with
  | none => (false, f)
  | some l =>
    let (taken, l) := l.send update
    (taken, { f with loops := f.loops.setIfInBounds loop l })

/-- The fleet with the loop of a new cluster, which takes over the name. -/
def install (f : Fleet) (cluster : Cluster) : Fleet :=
  let f' :=
    { f with
      loops := f.loops.push (.start cluster f.draw)
      registry := f.registry.insert cluster.name f.loops.size }
  match f.registry.get? cluster.name with
  | some previous => (f'.send previous .stop).2
  | none => f'

/-- Begins the loop of a cluster, if it can be built (`spawn_cluster`). Returns the number of the
loop. -/
def spawn (f : Fleet) (now : Nat) (config : ClusterConfig) :
    Except Overflow (Except ConfigError (Nat × Fleet)) := do
  match ← Cluster.new config f.transports f.numerics now with
  | .error e => pure (.error e)
  | .ok cluster => pure (.ok (f.loops.size, f.install cluster))

/-- Takes clusters out of the registry and tells their loops to stop. -/
def dismiss (f : Fleet) (names : List String) : Fleet :=
  names.foldl
    (fun f name =>
      match f.registry.get? name with
      | some loop => (send { f with registry := f.registry.erase name } loop .stop).2
      | none => f)
    f

/-- Brings one cluster in line with its configuration. A loop that still takes messages is
sent the configuration; otherwise a new one begins, if the cluster can be built. -/
def follow (f : Fleet) (now : Nat) (config : ClusterConfig) :
    Except Overflow (Option Nat × Fleet) := do
  let (taken, f) := match f.registry.get? config.name with
    | some loop => f.send loop (.config config)
    | none => (false, f)
  if taken then pure (none, f)
  else
    match ← f.spawn now config with
    | .ok (loop, f) => pure (some loop, f)
    | .error _ => pure (none, f)

/-- Brings clusters in line with their configurations, one after the other. Returns the loops that
began, behind those that did before. -/
def followAll (f : Fleet) (now : Nat) (spawned : List Nat) :
    List ClusterConfig → Except Overflow (List Nat × Fleet)
  | [] => .ok (spawned, f)
  | config :: rest => do
    let (loop, f) ← f.follow now config
    followAll f now (spawned ++ loop.toList) rest

/-- Brings the fleet in line with a configuration (`ClusterManager::apply_config`): clusters that
it does not have are dismissed, and every cluster that it has follows its part. Returns the new
loops. -/
def applyConfig (f : Fleet) (now : Nat) (config : Config) :
    Except Overflow (List Nat × Fleet) :=
  let stale := f.registry.keys.filter fun name => !config.clusters.any fun c => c.name == name
  (f.dismiss stale).followAll now [] config.clusters

/-- Announces the shutdown of the program to all loops that there are (`Shutdown::trigger`). -/
def announceShutdown (f : Fleet) : Fleet :=
  { f with loops := f.loops.map fun l => { l with shutdown := true } }

end Fleet

end LoadBalancing
