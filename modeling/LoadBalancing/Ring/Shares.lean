/-
The share of a ring that each host gets (`normalize_weights`).

Without locality weights a host's share is its weight over the sum of all
weights. With them each locality that has hosts first gets its part of the whole,
by weight among the localities that have hosts, and its hosts split that part.
A locality of weight zero gets nothing, and neither do its hosts. The shares are
all positive and sum to one, unless there are none at all.
-/
import LoadBalancing.Priority.Load

set_option autoImplicit false

namespace LoadBalancing

/-- Hosts with their shares of a whole. -/
structure Shares (α : Type) where
  shares : List (Host × α)
  /-- The smallest share; one if there are no shares. -/
  smallest : α

namespace Shares

variable {α : Type} [Quantity α]

-- Sums of weights begin with the numeral 0, whatever other zeros are in scope.
local instance (priority := high) : Zero Nat := Zero.ofOfNat0

/-- Splits `part` among `hosts` by weight (`normalize_host_weights`). -/
def split (t : HostTable) (part : α) (hosts : List Host) : List (Host × α) :=
  let sum := (hosts.map t.weight).sum
  if sum = 0 then []
  else hosts.map fun h =>
    (h, Quantity.ofNat (t.weight h) * part / Quantity.ofNat sum)

/-- Splits the whole among localities by weight, and each part among its hosts
(`normalize_locality_weights`). -/
def splitByLocality (t : HostTable) (weights : List Nat) (groups : List (List Host)) :
    List (Host × α) :=
  let served := (weights.zip groups).filter fun (w, hosts) => 0 < w && !hosts.isEmpty
  let sum := (served.map (·.1)).sum
  served.flatMap fun (w, hosts) =>
    split t (Quantity.ofNat w / Quantity.ofNat sum) hosts

/-- The shares of one partition of a host set (`normalize_weights`). -/
def ofHostSet (t : HostTable) (s : HostSet) (p : Partition) : Shares α :=
  let shares : List (Host × α) :=
    match s.localityWeights with
    | some (w :: ws) => splitByLocality t (w :: ws) (s.partitionByLocality p).hosts
    | _ => split t (Quantity.ofNat 1) (s.partition p)
  ⟨shares, shares.foldl (fun m (_, w) => Quantity.least m w) (Quantity.ofNat 1)⟩

end Shares

end LoadBalancing
