/-
Which subsets a host belongs to.

There are two ways to ask. `Host.matchesTuple` takes one tuple and tests each of
its pairs against the host. `Host.tuples` takes a set of keys and lists every tuple
of these keys that the host belongs to: one value for each key, where a list stands
for each of its items in turn if the settings say so. A host that lacks one of the
keys belongs to none.
-/
import LoadBalancing.Host.Basic

set_option autoImplicit false

namespace LoadBalancing

namespace Host

/-- Whether the host has every pair of a tuple (`host_matches`). The empty tuple matches every
host. -/
def matchesTuple (h : Host) (listAsAny : Bool) (tuple : Tuple) : Bool :=
  tuple.all fun (key, wanted) =>
    match h.metadata.get? key with
    | some offered => offered.serves wanted listAsAny
    | none => false

/-- The values under which a host with this value is found. -/
def choices (listAsAny : Bool) : Value → List Value
  | .list items => if listAsAny then items else [.list items]
  | v => [v]

/-- Every tuple of `keys` that the host belongs to, the choices of the first key varying slowest
(`extract_subset_metadata`). -/
def tuples (h : Host) (listAsAny : Bool) : List String → List Tuple
  | [] => [[]]
  | key :: rest =>
    match h.metadata.get? key with
    | none => []
    | some value =>
      (choices listAsAny value).flatMap fun v =>
        (tuples h listAsAny rest).map fun tuple => (key, v) :: tuple

end Host

end LoadBalancing
