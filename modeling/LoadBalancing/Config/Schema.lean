/-
What a configuration says, before anything is checked (`UpstreamConfig`).

The types follow the sections of a configuration text. Each section has the
values that apply where the text leaves something out. Numbers are within the
ranges of their fields, but nothing else is promised: weights can be zero, names
can repeat, and texts that should be hexadecimal can be anything.
-/
import LoadBalancing.Host.Basic
import LoadBalancing.Ring.Settings

set_option autoImplicit false

namespace LoadBalancing

/-! ## Balancing -/

/-- How a cluster picks hosts, by name (`LbPolicy`). -/
inductive PolicyName where
  | roundRobin
  | leastRequest
  | random
  | ringHash
  deriving DecidableEq, Repr

/-- Settings that all policies share (`CommonLbConfig`). -/
structure CommonConfig where
  /-- Below this percentage of available hosts a level panics. -/
  panicThreshold : Float
  /-- How far healthy hosts may be loaded beyond their share, in percent. -/
  overprovisioning : Nat

namespace CommonConfig

/-- The common settings of a cluster that gives none. -/
def standard : CommonConfig where
  panicThreshold := 50
  overprovisioning := 140

instance : Inhabited CommonConfig := ⟨standard⟩

end CommonConfig

/-! ## Subsets -/

/-- Where a request goes that no selector has a host for (`SubsetFallbackPolicy`). -/
inductive FallbackName where
  | none
  | anyEndpoint
  | defaultSubset
  deriving DecidableEq, Repr

/-- Where a request goes whose selector has no host for it (`SelectorFallbackPolicy`). -/
inductive SelectorFallbackName where
  | none
  | anyEndpoint
  | defaultSubset
  | keysSubset
  deriving DecidableEq, Repr

/-- The keys that hosts are grouped by, and where a request goes that its group has no host for
(`SubsetSelectorConfig`). -/
structure SelectorConfig where
  keys : List String
  fallback : SelectorFallbackName
  /-- The keys to try again with, for the fallback of that name. -/
  fallbackKeys : List String
  /-- The metadata of the selector's own default; empty means that of the cluster. -/
  defaultSubset : Metadata
  deriving DecidableEq

namespace SelectorConfig

/-- A selector that gives nothing but its keys. -/
def standard : SelectorConfig where
  keys := []
  fallback := .none
  fallbackKeys := []
  defaultSubset := ∅

instance : Inhabited SelectorConfig := ⟨standard⟩

end SelectorConfig

/-- How requests are served by hosts with the metadata they ask for (`SubsetConfig`). -/
structure SubsetConfig where
  fallback : FallbackName
  defaultSubset : Metadata
  selectors : List SelectorConfig
  localityWeightAware : Bool
  scaleLocalityWeight : Bool
  panicModeAny : Bool
  listAsAny : Bool
  deriving DecidableEq

namespace SubsetConfig

/-- Subsets without any settings of their own. -/
def standard : SubsetConfig where
  fallback := .none
  defaultSubset := ∅
  selectors := []
  localityWeightAware := false
  scaleLocalityWeight := false
  panicModeAny := false
  listAsAny := false

instance : Inhabited SubsetConfig := ⟨standard⟩

end SubsetConfig

/-! ## Health checks -/

/-- The protocol of a probe. -/
inductive ProbeKind where
  | tcp
  | http
  | grpc
  deriving DecidableEq, Repr

namespace ProbeKind

/-- The name of the protocol, as configurations and messages write it. -/
def name : ProbeKind → String
  | .tcp => "tcp"
  | .http => "http"
  | .grpc => "grpc"

end ProbeKind

/-- What a probe sends and expects, as written. -/
inductive ProbeConfig where
  /-- Bytes to send and segments to expect, in hexadecimal. -/
  | tcp (send : Option String) (receive : List String)
  /-- No expected status means 200. -/
  | http (path : String) (host : Option String) (expectedStatuses : List Nat)
  | grpc (serviceName : Option String)
  deriving DecidableEq, Repr

namespace ProbeConfig

/-- A connection alone, with nothing to send and nothing to expect. -/
def standard : ProbeConfig := .tcp none []

instance : Inhabited ProbeConfig := ⟨standard⟩

/-- The path that HTTP probes ask for where none is given. -/
def standardPath : String := "/health"

/-- The kind of transport that the probe needs. -/
def kind : ProbeConfig → ProbeKind
  | .tcp _ _ => .tcp
  | .http _ _ _ => .http
  | .grpc _ => .grpc

end ProbeConfig

/-- One health check; times are in milliseconds (`HealthCheckConfig`). -/
structure CheckConfig where
  timeout : Nat
  interval : Nat
  /-- The bound of the random time added to every interval. -/
  jitter : Nat
  /-- A further bound, in percent of the interval. -/
  jitterPercent : Nat
  unhealthyInterval : Option Nat
  burstInterval : Option Nat
  noTrafficInterval : Option Nat
  healthyThreshold : Nat
  unhealthyThreshold : Nat
  /-- Whether new hosts count as healthy before their first check. -/
  alwaysStartHealthy : Bool
  probe : ProbeConfig
  deriving DecidableEq, Repr

namespace CheckConfig

/-- A check that gives none of its numbers. -/
def standard : CheckConfig where
  timeout := 1000
  interval := 5000
  jitter := 0
  jitterPercent := 0
  unhealthyInterval := none
  burstInterval := none
  noTrafficInterval := none
  healthyThreshold := 2
  unhealthyThreshold := 3
  alwaysStartHealthy := false
  probe := .standard

instance : Inhabited CheckConfig := ⟨standard⟩

end CheckConfig

/-! ## Hosts -/

/-- A configured host (`HostConfig`). -/
structure HostConfig where
  address : String
  weight : Nat
  priority : Nat
  locality : Locality
  metadata : Metadata
  deriving DecidableEq

/-- The weight of one locality of one level (`LocalityWeightConfig`). -/
structure LocalityWeightConfig where
  priority : Nat
  locality : Locality
  weight : Nat
  deriving DecidableEq

/-! ## Clusters -/

/-- A named pool of hosts and how to pick among them (`ClusterConfig`). -/
structure ClusterConfig where
  name : String
  policy : PolicyName
  ring : RingSettings
  /-- How many random hosts a least-request pick compares. -/
  choices : Nat
  common : CommonConfig
  /-- Without subsets, the cluster is balanced as a whole. -/
  subset : Option SubsetConfig
  checks : List CheckConfig
  hosts : List HostConfig
  localityWeights : List LocalityWeightConfig

namespace ClusterConfig

/-- A cluster without hosts. -/
def standard : ClusterConfig where
  name := "default"
  policy := .roundRobin
  ring := .standard
  choices := 2
  common := .standard
  subset := none
  checks := []
  hosts := []
  localityWeights := []

instance : Inhabited ClusterConfig := ⟨standard⟩

end ClusterConfig

/-- Logging and metrics; nothing here affects balancing. -/
structure ObservabilityConfig where
  logLevel : String
  metricsEnabled : Bool
  metricsAddress : String
  deriving DecidableEq, Repr

namespace ObservabilityConfig

/-- Logging and metrics where nothing is said of them. -/
def standard : ObservabilityConfig where
  logLevel := "info"
  metricsEnabled := true
  metricsAddress := "0.0.0.0:9090"

instance : Inhabited ObservabilityConfig := ⟨standard⟩

end ObservabilityConfig

/-- A whole configuration (`UpstreamConfig`). -/
structure Config where
  observability : ObservabilityConfig
  clusters : List ClusterConfig

namespace Config

/-- A configuration without clusters. -/
def standard : Config := ⟨.standard, []⟩

instance : Inhabited Config := ⟨standard⟩

end Config

end LoadBalancing
