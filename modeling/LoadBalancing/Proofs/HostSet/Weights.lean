/-
The configured locality weights of each level.

Weights and hosts of a level go their own ways. Weights are set for a level, whether or not it
has hosts, and stay until they are set again; hosts come and go without them.
-/
import LoadBalancing.Proofs.HostSet.Levels

set_option autoImplicit false

namespace LoadBalancing

namespace HostSet

variable (s : HostSet) (t : HostTable)

@[simp] theorem configuredWeights_update (added removed : List Host) :
    (s.update t added removed).configuredWeights = s.configuredWeights := by
  rw [update]
  split <;> rfl

end HostSet

namespace PrioritySet

variable (s : PrioritySet) (t : HostTable)

/-- The configured weights of one level; a level that is missing has none. -/
def weightsAt (priority : Nat) : LocalityWeights :=
  ((s.level? priority).map (·.configuredWeights)).getD ∅

variable {s}

theorem weightsAt_of_level? {p : Nat} {l : HostSet} (h : s.level? p = some l) :
    s.weightsAt p = l.configuredWeights := by
  rw [weightsAt, h, Option.map_some, Option.getD_some]

theorem weightsAt_of_length_le {p : Nat} (h : s.levels.length ≤ p) : s.weightsAt p = ∅ := by
  rw [weightsAt, level?, List.getElem?_eq_none h]
  rfl

@[simp] theorem weightsAt_ensureLevel (p q : Nat) :
    (s.ensureLevel p).weightsAt q = s.weightsAt q :=
  getD_map_ensureLevel (fun _ => rfl) p q

theorem weightsAt_modifyLevel {f : HostSet → HostSet} {keeps : ∀ l, (f l).priority = l.priority}
    (p q : Nat) :
    (s.modifyLevel p f keeps).weightsAt q =
      if q = p then (f ((s.level? p).getD (.empty p s.overprovisioning))).configuredWeights
      else s.weightsAt q :=
  getD_map_modifyLevel (fun _ => rfl) p q

/-- Hosts come and go without the weights. -/
@[simp] theorem weightsAt_updateHosts (p q : Nat) (added removed : List Host) :
    (s.updateHosts t p added removed).weightsAt q = s.weightsAt q := by
  rw [updateHosts, weightsAt_modifyLevel]
  split
  next h =>
    rw [HostSet.configuredWeights_update, h, weightsAt]
    cases s.level? p <;> rfl
  next => rfl

theorem weightsAt_setLocalityWeights (p q : Nat) (weights : LocalityWeights) :
    (s.setLocalityWeights p weights).weightsAt q = if q = p then weights else s.weightsAt q :=
  weightsAt_modifyLevel p q

end PrioritySet

end LoadBalancing
