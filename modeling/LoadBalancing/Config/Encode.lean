/-
Configurations written as documents.

Every field is written, also one that has its standard value; what is left out is
written as `null`. The names of fields and choices are those that the reader knows,
so what is written here can be read again.
-/
import LoadBalancing.Config.Schema
import LoadBalancing.Document.Node

set_option autoImplicit false

namespace LoadBalancing

open Document

/-! ## Metadata -/

mutual

/-- A metadata value as a part of a document. -/
def Value.toNode : Value → Node
  | .bool b => .bool b
  | .integer n => .integer n
  | .text s => .text s
  | .list items => .list (Value.toNodes items)

/-- The nodes of the items of a list value. -/
def Value.toNodes : List Value → List Node
  | [] => []
  | v :: rest => v.toNode :: Value.toNodes rest

end

/-- Metadata as a table. -/
def Metadata.toNode (m : Metadata) : Node :=
  .table (m.entries.map fun (key, v) => (key, v.toNode))

/-! ## Choices -/

/-- A policy by its name. -/
def PolicyName.toNode : PolicyName → Node
  | .roundRobin => .text "ROUND_ROBIN"
  | .leastRequest => .text "LEAST_REQUEST"
  | .random => .text "RANDOM"
  | .ringHash => .text "RING_HASH"

/-- A fallback of the cluster by its name. -/
def FallbackName.toNode : FallbackName → Node
  | .none => .text "NO_FALLBACK"
  | .anyEndpoint => .text "ANY_ENDPOINT"
  | .defaultSubset => .text "DEFAULT_SUBSET"

/-- A fallback of a selector by its name. -/
def SelectorFallbackName.toNode : SelectorFallbackName → Node
  | .none => .text "NO_FALLBACK"
  | .anyEndpoint => .text "ANY_ENDPOINT"
  | .defaultSubset => .text "DEFAULT_SUBSET"
  | .keysSubset => .text "KEYS_SUBSET"

/-- A hash function by its name. -/
def RingHash.toNode : RingHash → Node
  | .xxHash => .text "XX_HASH"
  | .murmur => .text "MURMUR_HASH_2"

/-! ## Sections -/

/-- The fields of a locality, which also stand flat among other fields. -/
def Locality.nodes (l : Locality) : List (String × Node) :=
  [("region", .text l.region), ("zone", .text l.zone), ("sub_zone", .text l.subZone)]

/-- The settings of a hash ring. -/
def RingSettings.toNode (r : RingSettings) : Node :=
  .table [
    ("minimum_ring_size", .nat r.minimumSize),
    ("maximum_ring_size", .nat r.maximumSize),
    ("hash_function", r.hash.toNode),
    ("use_std_hash", .bool r.useStdHash)]

/-- The settings that all policies share. -/
def CommonConfig.toNode (c : CommonConfig) : Node :=
  .table [
    ("healthy_panic_threshold", .float c.panicThreshold),
    ("overprovisioning_factor", .nat c.overprovisioning)]

/-- A selector of subsets. -/
def SelectorConfig.toNode (s : SelectorConfig) : Node :=
  .table [
    ("keys", .texts s.keys),
    ("fallback_policy", s.fallback.toNode),
    ("fallback_keys_subset", .texts s.fallbackKeys),
    ("default_subset", s.defaultSubset.toNode)]

/-- Subset settings. -/
def SubsetConfig.toNode (s : SubsetConfig) : Node :=
  .table [
    ("fallback_policy", s.fallback.toNode),
    ("default_subset", s.defaultSubset.toNode),
    ("subset_selectors", .list (s.selectors.map (·.toNode))),
    ("locality_weight_aware", .bool s.localityWeightAware),
    ("scale_locality_weight", .bool s.scaleLocalityWeight),
    ("panic_mode_any", .bool s.panicModeAny),
    ("list_as_any", .bool s.listAsAny)]

/-- A probe is written with its kind. -/
def ProbeConfig.toNode : ProbeConfig → Node
  | .tcp send receive =>
    .table [("type", .text "tcp"), ("send", .optional .text send), ("receive", .texts receive)]
  | .http path host statuses =>
    .table [("type", .text "http"), ("path", .text path), ("host", .optional .text host),
      ("expected_statuses", .list (statuses.map .nat))]
  | .grpc service => .table [("type", .text "grpc"), ("service_name", .optional .text service)]

/-- A health check with the fields of its probe among its own. -/
def CheckConfig.toNode (c : CheckConfig) : Node :=
  .table [
    ("timeout_ms", .nat c.timeout),
    ("interval_ms", .nat c.interval),
    ("interval_jitter_ms", .nat c.jitter),
    ("interval_jitter_percent", .nat c.jitterPercent),
    ("unhealthy_interval_ms", .optional .nat c.unhealthyInterval),
    ("burst_interval_ms", .optional .nat c.burstInterval),
    ("no_traffic_interval_ms", .optional .nat c.noTrafficInterval),
    ("healthy_threshold", .nat c.healthyThreshold),
    ("unhealthy_threshold", .nat c.unhealthyThreshold),
    ("always_start_healthy", .bool c.alwaysStartHealthy),
    ("probe", c.probe.toNode)]

/-- A configured host. -/
def HostConfig.toNode (h : HostConfig) : Node :=
  .table [
    ("address", .text h.address),
    ("weight", .nat h.weight),
    ("priority", .nat h.priority),
    ("locality", .table h.locality.nodes),
    ("metadata", h.metadata.toNode)]

/-- The locality stands flat in its weight. -/
def LocalityWeightConfig.toNode (w : LocalityWeightConfig) : Node :=
  .table (("priority", .nat w.priority) :: ("weight", .nat w.weight) :: w.locality.nodes)

/-! ## Whole configurations -/

/-- A cluster. -/
def ClusterConfig.toNode (c : ClusterConfig) : Node :=
  .table [
    ("name", .text c.name),
    ("lb_policy", c.policy.toNode),
    ("ring_hash", c.ring.toNode),
    ("least_request", .table [("choice_count", .nat c.choices)]),
    ("common", c.common.toNode),
    ("subset", .optional SubsetConfig.toNode c.subset),
    ("health_checks", .list (c.checks.map (·.toNode))),
    ("hosts", .list (c.hosts.map (·.toNode))),
    ("locality_weights", .list (c.localityWeights.map (·.toNode)))]

/-- The settings of logging and metrics. -/
def ObservabilityConfig.toNode (o : ObservabilityConfig) : Node :=
  .table [
    ("log_level", .text o.logLevel),
    ("metrics_enabled", .bool o.metricsEnabled),
    ("metrics_address", .text o.metricsAddress)]

/-- A whole configuration. -/
def Config.toNode (c : Config) : Node :=
  .table [
    ("observability", c.observability.toNode),
    ("clusters", .list (c.clusters.map (·.toNode)))]

end LoadBalancing
