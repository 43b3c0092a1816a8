/-
Health of a host, one verdict per health check and the aggregate of them.

A host keeps its verdicts in one 32-bit word: bit `i` says that check `i` failed,
bit `16 + i` that it reported the host as degraded. A verdict writes both bits of
its own check and no other, so the checks stay independent, and the aggregate is
read off the word with two masks: any failed check makes the host unhealthy, any
degraded check makes it degraded unless it is unhealthy.
-/

set_option autoImplicit false

namespace LoadBalancing

/-- What a check says about a host, and what all its checks together say (`HealthState`). -/
inductive Health where
  | healthy
  | unhealthy
  | degraded
  deriving DecidableEq, Repr, Inhabited

namespace Health

/-- The name of a health, as reports write it. -/
def name : Health → String
  | .healthy => "healthy"
  | .unhealthy => "unhealthy"
  | .degraded => "degraded"

end Health

/-- How many independent health checks one host can have (`MAX_HEALTH_CHECKS`). -/
def maxHealthChecks : Nat := 16

/-- The verdict word of a host. -/
structure Flags where
  word : UInt32
  deriving DecidableEq

namespace Flags

/-- No check failed, none reported the host as degraded. -/
def clear : Flags := ⟨0⟩

instance : Inhabited Flags := ⟨clear⟩

/-- The bit that says that check `i` failed. -/
def failedBit (i : Nat) : UInt32 :=
  1 <<< i.toUInt32

/-- The bit that says that check `i` reported the host as degraded. -/
def degradedBit (i : Nat) : UInt32 :=
  1 <<< (maxHealthChecks + i).toUInt32

/-- The failed bits of all checks (`failed_mask`). -/
def failedMask : UInt32 := 0x0000ffff

/-- The degraded bits of all checks (`degraded_mask`). -/
def degradedMask : UInt32 := 0xffff0000

/-- The worst of all verdicts. -/
def health (f : Flags) : Health :=
  if f.word &&& failedMask ≠ 0 then .unhealthy
  else if f.word &&& degradedMask ≠ 0 then .degraded
  else .healthy

/-- The verdict of check `i`. -/
def verdict (f : Flags) (i : Nat) : Health :=
  if f.word &&& failedBit i ≠ 0 then .unhealthy
  else if f.word &&& degradedBit i ≠ 0 then .degraded
  else .healthy

/-- The word after check `i` says `h`; the bits of other checks stay (`set_check_state`). -/
def setVerdict (f : Flags) (i : Nat) (h : Health) : Flags :=
  match h with
  | .healthy => ⟨f.word &&& ~~~(failedBit i ||| degradedBit i)⟩
  | .unhealthy => ⟨(f.word ||| failedBit i) &&& ~~~(degradedBit i)⟩
  | .degraded => ⟨(f.word ||| degradedBit i) &&& ~~~(failedBit i)⟩

/-- The word of a host that is not checked and whose health is given from outside:
check 0 holds it, all other verdicts are forgotten. -/
def ofHealth (h : Health) : Flags :=
  clear.setVerdict 0 h

end Flags

end LoadBalancing
