/-
Validation of configurations.

Every part is checked by the same rules by which it is built later, so that a
configuration without findings can be built. All parts are checked, whatever is
wrong with others.
-/
import LoadBalancing.Config.Error
import LoadBalancing.Text.Blank

set_option autoImplicit false

namespace LoadBalancing

namespace ClusterConfig

/-- What is wrong with a part, as a list of at most one finding. -/
def findingIf (part : ClusterPart) (cause : Option Cause) : List Finding :=
  (cause.map fun c => ⟨none, part, c⟩).toList

/-- The problem of a result, if it has one. -/
def problem? {ε α : Type} : Except ε α → Option ε
  | .error e => some e
  | .ok _ => none

/-- The cause `c` if `wrong` holds. -/
def causeIf (wrong : Bool) (c : Cause) : Option Cause :=
  if wrong then some c else none

/-- What is wrong with the settings of the cluster itself (`validate_common`). -/
def ownFindings (c : ClusterConfig) : List Finding :=
  findingIf .name (causeIf (Text.isBlank c.name) .blank)
    ++ findingIf .ring (c.ring.problem?.map .ring)
    ++ findingIf .choices (causeIf (c.choices < Policy.leastChoices) .tooFewChoices)
    ++ findingIf .panicThreshold
        (causeIf (!(0 ≤ c.common.panicThreshold && c.common.panicThreshold ≤ 100)) .notPercentage)
    ++ findingIf .overprovisioning (causeIf (c.common.overprovisioning = 0) .zeroFactor)
    ++ findingIf .subset
        (c.subset.bind fun s => (problem? (SubsetSettings.ofConfig s)).map .subset)

/-- What is wrong with the health checks: too many of them, and each by itself. -/
def checkFindings (c : ClusterConfig) : List Finding :=
  findingIf .checks (causeIf (maxHealthChecks < c.checks.length) .tooManyChecks)
    ++ c.checks.zipIdx.flatMap fun (check, i) =>
        findingIf (.check i) ((problem? (CheckSettings.ofConfig check)).map (.check i))

/-- What is wrong with the address of a host that comes after `before`. -/
def addressCause? (before : List HostConfig) (h : HostConfig) : Option Cause :=
  if Text.isBlank h.address then some .blank
  else causeIf (before.any fun o => o.address == h.address) (.repeatedHost h.address)

/-- What is wrong with the hosts. -/
def hostFindings (c : ClusterConfig) : List Finding :=
  c.hosts.zipIdx.flatMap fun (h, i) =>
    findingIf (.hostAddress i) (addressCause? (c.hosts.take i) h)
      ++ findingIf (.hostWeight i) (causeIf (h.weight = 0) .zeroWeight)

/-- What is wrong with the locality weights: a locality of one level has one weight. -/
def localityFindings (c : ClusterConfig) : List Finding :=
  c.localityWeights.zipIdx.flatMap fun (w, i) =>
    findingIf (.localityWeight i)
      (causeIf ((c.localityWeights.take i).any fun o =>
          o.priority = w.priority && decide (o.locality = w.locality))
        (.repeatedLocality w.locality))

/-- All that is wrong with a cluster. -/
def findings (c : ClusterConfig) : List Finding :=
  c.ownFindings ++ c.checkFindings ++ c.hostFindings ++ c.localityFindings

/-- Checks a cluster (`validate_cluster`). -/
def validate (c : ClusterConfig) : Except ConfigError Unit :=
  if c.findings.isEmpty then .ok () else .error (.invalid c.findings)

end ClusterConfig

namespace Config

/-- All that is wrong with a configuration: names that repeat, and each cluster by
itself. -/
def findings (c : Config) : List Finding :=
  c.clusters.zipIdx.flatMap fun (cluster, i) =>
    (if (c.clusters.take i).any fun o => o.name == cluster.name then
      [⟨some i, .name, .repeatedName cluster.name⟩] else [])
      ++ cluster.findings.map fun f => { f with cluster := some i }

/-- Checks a configuration (`validate_config`). -/
def validate (c : Config) : Except ConfigError Unit :=
  if c.findings.isEmpty then .ok () else .error (.invalid c.findings)

end Config

end LoadBalancing
