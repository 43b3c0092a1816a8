/-
Why a configuration is not taken.

An error names its cause; the words for it come from one place. A check of a whole
configuration does not stop at the first problem: its error lists a finding for
every part that is wrong, each with the place of the part.
-/
import LoadBalancing.Balancer.Basic
import LoadBalancing.Check.Settings
import LoadBalancing.Subset.Settings

set_option autoImplicit false

namespace LoadBalancing

/-! ## Findings -/

/-- A part of a cluster's configuration. -/
inductive ClusterPart where
  | name
  | ring
  | choices
  | panicThreshold
  | overprovisioning
  | subset
  | checks
  | check (index : Nat)
  | hostAddress (index : Nat)
  | hostWeight (index : Nat)
  | localityWeight (index : Nat)
  deriving DecidableEq, Repr

namespace ClusterPart

/-- The path of the part within its cluster. -/
def path : ClusterPart → String
  | .name => "name"
  | .ring => "ring_hash"
  | .choices => "least_request.choice_count"
  | .panicThreshold => "common.healthy_panic_threshold"
  | .overprovisioning => "common.overprovisioning_factor"
  | .subset => "subset"
  | .checks => "health_checks"
  | .check index => "health_checks[" ++ toString index ++ "]"
  | .hostAddress index => "hosts[" ++ toString index ++ "].address"
  | .hostWeight index => "hosts[" ++ toString index ++ "].weight"
  | .localityWeight index => "locality_weights[" ++ toString index ++ "]"

end ClusterPart

/-- The words for a problem of check `index`. -/
def CheckProblem.describe (problem : CheckProblem) (index : Nat) : String :=
  "health check " ++ toString index ++ ": " ++ problem.message

/-- What is wrong with a part. -/
inductive Cause where
  | blank
  | repeatedName (name : String)
  | ring (problem : RingProblem)
  | tooFewChoices
  | notPercentage
  | zeroFactor
  | subset (problem : SubsetProblem)
  | tooManyChecks
  | check (index : Nat) (problem : CheckProblem)
  | repeatedHost (address : String)
  | zeroWeight
  | repeatedLocality (locality : Locality)
  deriving DecidableEq

namespace Cause

/-- The cause in words. -/
def message : Cause → String
  | .blank => "must not be empty"
  | .repeatedName name => "duplicate cluster name '" ++ name ++ "'"
  | .ring problem => problem.message
  | .tooFewChoices => "must be at least 2"
  | .notPercentage => "must be between 0 and 100"
  | .zeroFactor => "must be greater than 0"
  | .subset problem => problem.message
  | .tooManyChecks => CheckProblem.tooMany.message
  | .check index problem => problem.describe index
  | .repeatedHost address => "duplicate host '" ++ address ++ "'"
  | .zeroWeight => "must be at least 1"
  | .repeatedLocality locality => "duplicate weight for locality " ++ locality.describe

end Cause

/-- One thing wrong in a configuration (`ValidationError`). -/
structure Finding where
  /-- The number of the cluster, when several are checked. -/
  cluster : Option Nat
  part : ClusterPart
  cause : Cause
  deriving DecidableEq

namespace Finding

/-- The path of the part that is wrong. -/
def field (f : Finding) : String :=
  match f.cluster with
  | some i => "clusters[" ++ toString i ++ "]." ++ f.part.path
  | none => f.part.path

/-- The finding in words. -/
def message (f : Finding) : String :=
  f.cause.message

end Finding

/-! ## Errors -/

/-- Why a configuration is not taken, or not built (`ConfigError`). -/
inductive ConfigError where
  | ring (problem : RingProblem)
  | tooFewChoices
  | subset (problem : SubsetProblem)
  | check (index : Nat) (problem : CheckProblem)
  /-- Nothing can send probes of this kind. -/
  | missingTransport (kind : ProbeKind)
  | invalid (findings : List Finding)
  deriving DecidableEq

namespace ConfigError

/-- A problem of the policy as an error. -/
def ofPolicy : PolicyProblem → ConfigError
  | .ring problem => .ring problem
  | .tooFewChoices => .tooFewChoices

/-- The error in words; findings are listed one after the other. -/
def message : ConfigError → String
  | .ring problem => problem.message
  | .tooFewChoices => PolicyProblem.tooFewChoices.message
  | .subset problem => problem.message
  | .check index problem => problem.describe index
  | .missingTransport kind =>
    "no probe transport registered for " ++ kind.name ++ " health checks"
  | .invalid findings =>
    "Validation failed: "
      ++ ", ".intercalate (findings.map fun f => f.field ++ ": " ++ f.message)

end ConfigError

end LoadBalancing
