import LoadBalancing.Balancer.Basic
import LoadBalancing.Balancer.Pick
import LoadBalancing.Balancer.Rotation
import LoadBalancing.Balancer.Strategy
import LoadBalancing.Check.Checker
import LoadBalancing.Check.Interval
import LoadBalancing.Check.Session
import LoadBalancing.Check.Settings
import LoadBalancing.Check.TcpProbe
import LoadBalancing.Check.Timer
import LoadBalancing.Cluster.Balancing
import LoadBalancing.Cluster.Basic
import LoadBalancing.Cluster.Membership
import LoadBalancing.Config.Decode
import LoadBalancing.Config.Encode
import LoadBalancing.Config.Error
import LoadBalancing.Config.Load
import LoadBalancing.Config.Schema
import LoadBalancing.Config.Validation
import LoadBalancing.Document.Json
import LoadBalancing.Document.JsonNumber
import LoadBalancing.Document.Node
import LoadBalancing.Document.Path
import LoadBalancing.Document.Toml
import LoadBalancing.Document.Toml.Lexeme
import LoadBalancing.Document.Toml.Moment
import LoadBalancing.Document.Toml.Number
import LoadBalancing.Document.Toml.Section
import LoadBalancing.Fleet.Basic
import LoadBalancing.Fleet.ControlLoop
import LoadBalancing.Hash.Murmur64A
import LoadBalancing.Hash.Words
import LoadBalancing.Hash.XxHash64
import LoadBalancing.Host.Basic
import LoadBalancing.Host.Health
import LoadBalancing.HostSet.Basic
import LoadBalancing.HostSet.ByLocality
import LoadBalancing.HostSet.PrioritySet
import LoadBalancing.Metadata.Criteria
import LoadBalancing.Metadata.Value
import LoadBalancing.Numerics
import LoadBalancing.Overflow
import LoadBalancing.Priority.Load
import LoadBalancing.Priority.Table
import LoadBalancing.Report.Balancing
import LoadBalancing.Report.Checks
import LoadBalancing.Report.Clusters
import LoadBalancing.Report.Hosts
import LoadBalancing.Ring.Basic
import LoadBalancing.Ring.Settings
import LoadBalancing.Ring.Shares
import LoadBalancing.Simulation.Chance
import LoadBalancing.Simulation.Checks
import LoadBalancing.Simulation.Clock
import LoadBalancing.Simulation.Clusters
import LoadBalancing.Simulation.Network
import LoadBalancing.SortedMap
import LoadBalancing.Subset.Engine
import LoadBalancing.Subset.HostSubset
import LoadBalancing.Subset.Membership
import LoadBalancing.Subset.Settings
import LoadBalancing.Subset.Trie
import LoadBalancing.Text.Blank
import LoadBalancing.Text.Hex
import LoadBalancing.Text.Printable
import LoadBalancing.Text.Quoted
import LoadBalancing.Proofs.Balancer.Fairness
import LoadBalancing.Proofs.Balancer.Panic
import LoadBalancing.Proofs.Balancer.Routed
import LoadBalancing.Proofs.Balancer.Serves
import LoadBalancing.Proofs.Check.Adopted
import LoadBalancing.Proofs.Check.Awaited
import LoadBalancing.Proofs.Check.Delays
import LoadBalancing.Proofs.Check.Due
import LoadBalancing.Proofs.Check.Hysteresis
import LoadBalancing.Proofs.Check.Ledger
import LoadBalancing.Proofs.Check.Matching
import LoadBalancing.Proofs.Check.Operations
import LoadBalancing.Proofs.Check.Probe
import LoadBalancing.Proofs.Check.Reports
import LoadBalancing.Proofs.Check.Watch
import LoadBalancing.Proofs.Check.Watched
import LoadBalancing.Proofs.Cluster.Addresses
import LoadBalancing.Proofs.Cluster.Build
import LoadBalancing.Proofs.Cluster.Coherent
import LoadBalancing.Proofs.Cluster.Convergence
import LoadBalancing.Proofs.Cluster.LocalityWeights
import LoadBalancing.Proofs.Cluster.Membership
import LoadBalancing.Proofs.Cluster.Partitions
import LoadBalancing.Proofs.Cluster.Rejection
import LoadBalancing.Proofs.Cluster.Reload
import LoadBalancing.Proofs.Cluster.Run
import LoadBalancing.Proofs.Cluster.Scaling
import LoadBalancing.Proofs.Cluster.Sessions
import LoadBalancing.Proofs.Cluster.Subsets
import LoadBalancing.Proofs.Cluster.Widths
import LoadBalancing.Proofs.Config.Findings
import LoadBalancing.Proofs.Config.Places
import LoadBalancing.Proofs.Config.Validation
import LoadBalancing.Proofs.Fleet.Calls
import LoadBalancing.Proofs.Fleet.Followed
import LoadBalancing.Proofs.Fleet.Loops
import LoadBalancing.Proofs.Fleet.Manned
import LoadBalancing.Proofs.Hash.Murmur64A
import LoadBalancing.Proofs.Host.Table
import LoadBalancing.Proofs.Host.Told
import LoadBalancing.Proofs.Host.Verdicts
import LoadBalancing.Proofs.HostSet.Consistency
import LoadBalancing.Proofs.HostSet.Levels
import LoadBalancing.Proofs.HostSet.Localities
import LoadBalancing.Proofs.HostSet.Partitions
import LoadBalancing.Proofs.HostSet.Weights
import LoadBalancing.Proofs.HostSet.Widths
import LoadBalancing.Proofs.Metadata.Criteria
import LoadBalancing.Proofs.Numerics
import LoadBalancing.Proofs.Outcome
import LoadBalancing.Proofs.Priority.Routing
import LoadBalancing.Proofs.Priority.Shares
import LoadBalancing.Proofs.Ring.Keys
import LoadBalancing.Proofs.Ring.Lookup
import LoadBalancing.Proofs.Ring.Owner
import LoadBalancing.Proofs.Ring.Proportions
import LoadBalancing.Proofs.Ring.Shares
import LoadBalancing.Proofs.Ring.Size
import LoadBalancing.Proofs.SortedMap.Lookup
import LoadBalancing.Proofs.Subset.Activity
import LoadBalancing.Proofs.Subset.Agreement
import LoadBalancing.Proofs.Subset.Engine
import LoadBalancing.Proofs.Subset.Entries
import LoadBalancing.Proofs.Subset.Fallback
import LoadBalancing.Proofs.Subset.History
import LoadBalancing.Proofs.Subset.HostSubset
import LoadBalancing.Proofs.Subset.Membership
import LoadBalancing.Proofs.Subset.Partitions
import LoadBalancing.Proofs.Subset.Service
import LoadBalancing.Proofs.Subset.Trie
import LoadBalancing.Proofs.Subset.Weights
import LoadBalancing.Proofs.Subset.Widths
import LoadBalancing.Proofs.Text.Bytes
import LoadBalancing.Proofs.Text.Numbers
