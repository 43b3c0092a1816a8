/-
Host sets by priority, level 0 first (`PrioritySet`).

Levels are dense: asking for level `n` creates every missing level below it, so
the set at position `n` is the set of priority `n`. The type says so, and every
change of one level must keep that level's priority.
-/
import LoadBalancing.HostSet.Basic

set_option autoImplicit false

namespace LoadBalancing

/-- The host sets of a cluster, one per priority level. -/
structure PrioritySet where
  levels : List HostSet
  /-- The factor that new levels get, in percent. -/
  overprovisioning : Nat
  dense : ∀ (p : Nat) (l : HostSet), levels[p]? = some l → l.priority = p
  deriving DecidableEq

namespace PrioritySet

/-- The factor used where none is configured (`DEFAULT_OVERPROVISIONING_FACTOR`). -/
def defaultOverprovisioning : Nat := 140

/-- A priority set without levels. -/
def empty (overprovisioning : Nat) : PrioritySet :=
  ⟨[], overprovisioning, by simp⟩

/-- The level of a priority, if it is there (`host_set`). -/
def level? (s : PrioritySet) (priority : Nat) : Option HostSet :=
  s.levels[priority]?

/-- The levels that are missing up to a priority, without hosts. -/
def missing (s : PrioritySet) (priority : Nat) : List HostSet :=
  (List.range' s.levels.length (priority + 1 - s.levels.length)).map
    fun p => .empty p s.overprovisioning

/-- A level that was missing is without hosts, and has the priority of its position. -/
theorem getElem?_append_missing (s : PrioritySet) (priority p : Nat) :
    (s.levels ++ s.missing priority)[p]? =
      (s.levels[p]?).or (if p ≤ priority then some (.empty p s.overprovisioning) else none) := by
  rcases Nat.lt_or_ge p s.levels.length with h | h
  · rw [List.getElem?_append_left h, List.getElem?_eq_getElem h, Option.some_or]
  · rw [List.getElem?_append_right h, List.getElem?_eq_none h, Option.none_or, missing,
      List.getElem?_map]
    split
    · rw [List.getElem?_range' (by omega), Option.map_some]
      congr 2
      omega
    · rw [List.getElem?_eq_none (by rw [List.length_range']; omega), Option.map_none]

/-- Creates the level and any missing level below it (`get_or_create_host_set`). -/
def ensureLevel (s : PrioritySet) (priority : Nat) : PrioritySet where
  levels := s.levels ++ s.missing priority
  overprovisioning := s.overprovisioning
  -- what is appended counts on from where the levels ended
  dense p l h := by
    rw [getElem?_append_missing] at h
    cases hp : s.levels[p]? with
    | some l' => exact s.dense p l (by simp_all)
    | none =>
      simp only [hp, Option.none_or] at h
      split at h
      · cases h
        rfl
      · cases h

/-- Changes one level, which is created first where it is missing. -/
def modifyLevel (s : PrioritySet) (priority : Nat) (f : HostSet → HostSet)
    (keeps : ∀ l, (f l).priority = l.priority) : PrioritySet where
  levels := (s.ensureLevel priority).levels.modify priority f
  overprovisioning := s.overprovisioning
  -- the change keeps the priority of its level, and all others are as they were
  dense p l h := by
    rw [List.getElem?_modify] at h
    obtain ⟨l', hl', rfl⟩ := Option.map_eq_some_iff.1 h
    have := (s.ensureLevel priority).dense p l' hl'
    split
    · rw [keeps, this]
    · exact this

/-- Membership change at one level (`update_hosts`). -/
def updateHosts (s : PrioritySet) (t : HostTable) (priority : Nat) (added removed : List Host) :
    PrioritySet :=
  s.modifyLevel priority (fun l => l.update t added removed)
    fun l => l.priority_update t added removed

/-- Other configured weights for one level (`set_locality_weights`). -/
def setLocalityWeights (s : PrioritySet) (priority : Nat) (weights : LocalityWeights) :
    PrioritySet :=
  s.modifyLevel priority (fun l => l.setLocalityWeights weights)
    fun l => l.priority_setLocalityWeights weights

/-- Catches up with health at every level. -/
def refreshHealth (s : PrioritySet) (t : HostTable) : PrioritySet where
  levels := s.levels.map fun l => l.refreshHealth t
  overprovisioning := s.overprovisioning
  dense p l h := by
    rw [List.getElem?_map] at h
    obtain ⟨l', hl', rfl⟩ := Option.map_eq_some_iff.1 h
    exact s.dense p l' hl'

/-- All hosts, level 0 first. -/
def hosts (s : PrioritySet) : List Host :=
  s.levels.flatMap (·.hosts)

def isEmpty (s : PrioritySet) : Bool :=
  s.levels.all (·.isEmpty)

/-- The host at `address` and its priority (`find_host`): the lowest level, and in it the first. -/
def find? (s : PrioritySet) (address : String) : Option (Nat × Host) :=
  s.levels.findSome? fun l => (l.find? address).map fun h => (l.priority, h)

/-- The host at `address` at one level. -/
def findAt? (s : PrioritySet) (priority : Nat) (address : String) : Option Host :=
  (s.level? priority).bind fun l => l.find? address

end PrioritySet

end LoadBalancing
