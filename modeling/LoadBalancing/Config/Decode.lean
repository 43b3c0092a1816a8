/-
Configurations read from documents.

A section is a table whose known keys are its fields: a key that is missing leaves
its field at the standard value, a key that is not known is ignored, and a known
key that repeats is an error. A section can also be given as a list of its fields
in order, the last ones left out if they have a standard value. Integers and
texts are never taken for each other, and an integer must fit its field.

The formats differ in two details, which a `Dialect` holds: whether a section given
as a list may have more items than fields, and what may stand for a choice that is
written as a table with one key.
-/
import LoadBalancing.Config.Schema
import LoadBalancing.Document.Node

set_option autoImplicit false

namespace LoadBalancing.Config

open Document

/-- What depends on the format of a text. -/
structure Dialect where
  /-- Whether a section given as a list may have items after its last field. -/
  longLists : Bool
  /-- Whether a value says nothing, as the content of a choice must. -/
  saysNothing : Node → Bool

namespace Dialect

/-- The dialect of JSON: a list with more items than fields is refused. -/
def json : Dialect where
  longLists := false
  saysNothing
    | .null => true
    | _ => false

/-- The dialect of TOML. -/
def toml : Dialect where
  longLists := true
  saysNothing
    | .list [] => true
    | .table [] => true
    | _ => false

end Dialect

/-! ## Plain values -/

/-- A truth value. -/
def bool? : Node → Option Bool
  | .bool b => some b
  | _ => none

/-- A text. -/
def text? : Node → Option String
  | .text s => some s
  | _ => none

/-- An integer below `limit`. -/
def nat? (limit : Nat) : Node → Option Nat
  | .integer (.ofNat n) => if n < limit then some n else none
  | _ => none

/-- An integer of 16, 32 or 64 unsigned bits. -/
def bits16? : Node → Option Nat := nat? 0x10000
/-- An integer of 32 unsigned bits. -/
def bits32? : Node → Option Nat := nat? 0x100000000
/-- An integer of 64 unsigned bits. -/
def bits64? : Node → Option Nat := nat? 0x10000000000000000

/-- A double; integers may stand for one. -/
def float? : Node → Option Float
  | .float x => some x
  | .integer n => some (Float.ofInt n)
  | _ => none

/-- A list whose items are all read alike. -/
def list? {α : Type} (item : Node → Option α) : Node → Option (List α)
  | .list items => items.mapM item
  | _ => none

/-- A value that may be left out by saying `null`. -/
def optional? {α : Type} (value : Node → Option α) : Node → Option (Option α)
  | .null => some none
  | n => (value n).map some

mutual

/-- A metadata value: no other kinds, and no integer outside 64 signed bits. -/
def metadataValue? : Node → Option Value
  | .bool b => some (.bool b)
  | .integer n => if -0x8000000000000000 ≤ n && n < 0x8000000000000000 then some (.integer n) else none
  | .text s => some (.text s)
  | .list items => (metadataValues? items).map .list
  | _ => none

/-- The items of a list value. -/
def metadataValues? : List Node → Option (List Value)
  | [] => some []
  | n :: rest => do pure ((← metadataValue? n) :: (← metadataValues? rest))

end

/-- Metadata; the last of several values for one key counts. -/
def metadata? : Node → Option Metadata
  | .table entries => do
    let pairs ← entries.mapM fun (k, n) => (metadataValue? n).map fun v => (k, v)
    pure (SortedMap.ofList pairs)
  | _ => none

/-- One of several names, as a text or as a table with that one key and nothing else. -/
def choice? {α : Type} (d : Dialect) (names : List (String × α)) : Node → Option α
  | .text s => names.lookup s
  | .table [(s, content)] => if d.saysNothing content then names.lookup s else none
  | _ => none

/-! ## Sections -/

/-- The value of a key that may occur once. -/
def single? (entries : List (String × Node)) (key : String) : Option (Option Node) :=
  match entries.filter fun e => e.1 == key with
  | [] => some none
  | [(_, n)] => some (some n)
  | _ => none

/-- The fields of a section, in the order of `names`. With `longLists` a list may have
items after the last field. -/
def fields? (longLists : Bool) (names : List String) : Node → Option (List (Option Node))
  | .table entries => names.mapM (single? entries)
  | .list items =>
    if names.length < items.length && !longLists then none
    else some ((List.range names.length).map fun i => items[i]?)
  | _ => none

/-- The value of a field, or the standard one. -/
def orElse {α : Type} (field : Option Node) (value : Node → Option α) (standard : α) : Option α :=
  match field with
  | some n => value n
  | none => some standard

/-- The hash function of a ring, by name. -/
def ringHash? (d : Dialect) : Node → Option RingHash :=
  choice? d [("XX_HASH", .xxHash), ("MURMUR_HASH_2", .murmur)]

/-- The settings of a hash ring. -/
def ring? (d : Dialect) (n : Node) : Option RingSettings := do
  let [minimum, maximum, hash, useStdHash] ← fields? d.longLists
    ["minimum_ring_size", "maximum_ring_size", "hash_function", "use_std_hash"] n | none
  let s := RingSettings.standard
  pure {
    minimumSize := ← orElse minimum bits64? s.minimumSize
    maximumSize := ← orElse maximum bits64? s.maximumSize
    hash := ← orElse hash (ringHash? d) s.hash
    useStdHash := ← orElse useStdHash bool? s.useStdHash }

/-- The settings of least-request picks: how many hosts to compare. -/
def leastRequest? (d : Dialect) (n : Node) : Option Nat := do
  let [choices] ← fields? d.longLists ["choice_count"] n | none
  orElse choices bits32? ClusterConfig.standard.choices

/-- The settings that all policies share. -/
def common? (d : Dialect) (n : Node) : Option CommonConfig := do
  let [threshold, factor] ← fields? d.longLists ["healthy_panic_threshold", "overprovisioning_factor"] n
    | none
  let s := CommonConfig.standard
  pure {
    panicThreshold := ← orElse threshold float? s.panicThreshold
    overprovisioning := ← orElse factor bits32? s.overprovisioning }

/-- The name of a policy. -/
def policyName? (d : Dialect) : Node → Option PolicyName :=
  choice? d [("ROUND_ROBIN", .roundRobin), ("LEAST_REQUEST", .leastRequest),
    ("RANDOM", .random), ("RING_HASH", .ringHash)]

/-- The name of a fallback of the cluster. -/
def fallbackName? (d : Dialect) : Node → Option FallbackName :=
  choice? d [("NO_FALLBACK", .none), ("ANY_ENDPOINT", .anyEndpoint),
    ("DEFAULT_SUBSET", .defaultSubset)]

/-- The name of a fallback of a selector. -/
def selectorFallbackName? (d : Dialect) : Node → Option SelectorFallbackName :=
  choice? d [("NO_FALLBACK", .none), ("ANY_ENDPOINT", .anyEndpoint),
    ("DEFAULT_SUBSET", .defaultSubset), ("KEYS_SUBSET", .keysSubset)]

/-- A selector of subsets. -/
def selector? (d : Dialect) (n : Node) : Option SelectorConfig := do
  let [keys, fallback, fallbackKeys, defaultSubset] ← fields? d.longLists
    ["keys", "fallback_policy", "fallback_keys_subset", "default_subset"] n | none
  let s := SelectorConfig.standard
  pure {
    keys := ← orElse keys (list? text?) s.keys
    fallback := ← orElse fallback (selectorFallbackName? d) s.fallback
    fallbackKeys := ← orElse fallbackKeys (list? text?) s.fallbackKeys
    defaultSubset := ← orElse defaultSubset metadata? s.defaultSubset }

/-- The subset settings of a cluster. -/
def subset? (d : Dialect) (n : Node) : Option SubsetConfig := do
  let [fallback, defaultSubset, selectors, aware, scale, panicAny, listAsAny] ← fields? d.longLists
    ["fallback_policy", "default_subset", "subset_selectors", "locality_weight_aware",
      "scale_locality_weight", "panic_mode_any", "list_as_any"] n | none
  let s := SubsetConfig.standard
  pure {
    fallback := ← orElse fallback (fallbackName? d) s.fallback
    defaultSubset := ← orElse defaultSubset metadata? s.defaultSubset
    selectors := ← orElse selectors (list? (selector? d)) s.selectors
    localityWeightAware := ← orElse aware bool? s.localityWeightAware
    scaleLocalityWeight := ← orElse scale bool? s.scaleLocalityWeight
    panicModeAny := ← orElse panicAny bool? s.panicModeAny
    listAsAny := ← orElse listAsAny bool? s.listAsAny }

/-- The type of a probe, and the part of the document that holds its fields: the table
with the type, or the list after the type. -/
def probeParts? : Node → Option (String × Node)
  | .table entries => do pure (← text? (← (← single? entries "type")), .table entries)
  | .list (kind :: rest) => do pure (← text? kind, .list rest)
  | _ => none

/-- A probe, every part of it readable. In all formats a list ends with the last field. -/
def probe? (n : Node) : Option ProbeConfig := do
  guard n.isReadable
  let (kind, parts) ← probeParts? n
  if kind = "tcp" then
    let [send, receive] ← fields? false ["send", "receive"] parts | none
    pure (.tcp (← orElse send (optional? text?) none) (← orElse receive (list? text?) []))
  else if kind = "http" then
    let [path, host, statuses] ← fields? false ["path", "host", "expected_statuses"] parts | none
    pure (.http (← orElse path text? ProbeConfig.standardPath)
      (← orElse host (optional? text?) none)
      (← orElse statuses (list? bits16?) []))
  else if kind = "grpc" then
    let [service] ← fields? false ["service_name"] parts | none
    pure (.grpc (← orElse service (optional? text?) none))
  else none

/-- A health check; the fields of its probe stand among its own. -/
def check? (d : Dialect) (n : Node) : Option CheckConfig := do
  let [timeout, interval, jitter, jitterPercent, unhealthy, burst, noTraffic, healthyThreshold,
      unhealthyThreshold, startHealthy, probe] ← fields? d.longLists
    ["timeout_ms", "interval_ms", "interval_jitter_ms", "interval_jitter_percent",
      "unhealthy_interval_ms", "burst_interval_ms", "no_traffic_interval_ms",
      "healthy_threshold", "unhealthy_threshold", "always_start_healthy", "probe"] n | none
  let s := CheckConfig.standard
  pure {
    timeout := ← orElse timeout bits64? s.timeout
    interval := ← orElse interval bits64? s.interval
    jitter := ← orElse jitter bits64? s.jitter
    jitterPercent := ← orElse jitterPercent bits32? s.jitterPercent
    unhealthyInterval := ← orElse unhealthy (optional? bits64?) s.unhealthyInterval
    burstInterval := ← orElse burst (optional? bits64?) s.burstInterval
    noTrafficInterval := ← orElse noTraffic (optional? bits64?) s.noTrafficInterval
    healthyThreshold := ← orElse healthyThreshold bits32? s.healthyThreshold
    unhealthyThreshold := ← orElse unhealthyThreshold bits32? s.unhealthyThreshold
    alwaysStartHealthy := ← orElse startHealthy bool? s.alwaysStartHealthy
    probe := ← orElse probe probe? s.probe }

/-- A locality, all of whose parts can be left out. -/
def locality? (d : Dialect) (n : Node) : Option Locality := do
  let [region, zone, subZone] ← fields? d.longLists ["region", "zone", "sub_zone"] n | none
  pure {
    region := ← orElse region text? ""
    zone := ← orElse zone text? ""
    subZone := ← orElse subZone text? "" }

/-- A host; the address is the one field that cannot be left out. -/
def host? (d : Dialect) (n : Node) : Option HostConfig := do
  let [address, weight, priority, locality, metadata] ← fields? d.longLists
    ["address", "weight", "priority", "locality", "metadata"] n | none
  pure {
    address := ← text? (← address)
    weight := ← orElse weight bits32? 1
    priority := ← orElse priority bits32? 0
    locality := ← orElse locality (locality? d) ⟨"", "", ""⟩
    metadata := ← orElse metadata metadata? ∅ }

/-- The weight of a locality, whose parts stand beside it in one table. -/
def localityWeight? (n : Node) : Option LocalityWeightConfig :=
  match n with
  | .table entries => do
    guard n.isReadable
    let field := single? entries
    pure {
      priority := ← orElse (← field "priority") bits32? 0
      locality := {
        region := ← orElse (← field "region") text? ""
        zone := ← orElse (← field "zone") text? ""
        subZone := ← orElse (← field "sub_zone") text? "" }
      weight := ← bits32? (← (← field "weight")) }
  | _ => none

/-- A cluster. -/
def cluster? (d : Dialect) (n : Node) : Option ClusterConfig := do
  let [name, policy, ring, leastRequest, common, subset, checks, hosts, weights] ← fields? d.longLists
    ["name", "lb_policy", "ring_hash", "least_request", "common", "subset", "health_checks",
      "hosts", "locality_weights"] n | none
  let s := ClusterConfig.standard
  pure {
    name := ← orElse name text? s.name
    policy := ← orElse policy (policyName? d) s.policy
    ring := ← orElse ring (ring? d) s.ring
    choices := ← orElse leastRequest (leastRequest? d) s.choices
    common := ← orElse common (common? d) s.common
    subset := ← orElse subset (optional? (subset? d)) s.subset
    checks := ← orElse checks (list? (check? d)) s.checks
    hosts := ← orElse hosts (list? (host? d)) s.hosts
    localityWeights := ← orElse weights (list? localityWeight?) s.localityWeights }

/-- The settings of logging and metrics. -/
def observability? (d : Dialect) (n : Node) : Option ObservabilityConfig := do
  let [level, enabled, address] ← fields? d.longLists ["log_level", "metrics_enabled", "metrics_address"] n
    | none
  let s := ObservabilityConfig.standard
  pure {
    logLevel := ← orElse level text? s.logLevel
    metricsEnabled := ← orElse enabled bool? s.metricsEnabled
    metricsAddress := ← orElse address text? s.metricsAddress }

/-- A whole configuration. -/
def config? (d : Dialect) (n : Node) : Option Config := do
  let [observability, clusters] ← fields? d.longLists ["observability", "clusters"] n | none
  pure {
    observability := ← orElse observability (observability? d) .standard
    clusters := ← orElse clusters (list? (cluster? d)) [] }

end LoadBalancing.Config
