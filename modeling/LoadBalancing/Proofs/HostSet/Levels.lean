/-
What each operation of a priority set does to the hosts of its levels.

Most operations rebuild partitions, align weights or create levels, and leave the
hosts as they are. Only a membership change touches them, and only at its own level.
All of this is said level by level through `hostsAt`, which does not tell a missing
level from an empty one: a level may come into being without any host. Whatever else
is read off a level is read in the same way (`getD_map_ensureLevel`).

The second part is about what holds of every level (`PrioritySet.Everywhere`). What a level
keeps, whatever happens to it (`HostSet.Lasting`), all levels keep, whatever happens to
the set. The first such property is that partitions are sound: they may be out of date,
but a partition never holds a host that its level does not have.
-/
import LoadBalancing.HostSet.PrioritySet

set_option autoImplicit false

namespace LoadBalancing

/-! ## One level -/

namespace HostSet

variable (s : HostSet) (t : HostTable)

/-- Partitions are computed from the hosts of a level, which stay as they are. -/
@[simp] theorem hosts_rebuild : (s.rebuild t).hosts = s.hosts := rfl

@[simp] theorem hosts_refreshHealth : (s.refreshHealth t).hosts = s.hosts := rfl

@[simp] theorem hosts_setLocalityWeights (weights : LocalityWeights) :
    (s.setLocalityWeights weights).hosts = s.hosts := rfl

@[simp] theorem hosts_empty (priority overprovisioning : Nat) :
    (empty priority overprovisioning).hosts = [] := rfl

/-- Nobody leaves if nobody comes or goes. -/
theorem filter_isDropped_nil (hosts : List Host) :
    hosts.filter (fun h => !isDropped [] [] h) = hosts :=
  List.filter_eq_self.2 fun _ _ => rfl

/-- The hosts after a membership change, also after one that changes nothing. -/
theorem hosts_update (added removed : List Host) :
    (s.update t added removed).hosts =
      s.hosts.filter (fun h => !isDropped added removed h) ++ added := by
  rw [update]
  split
  next h =>
    rw [Bool.and_eq_true, List.isEmpty_iff, List.isEmpty_iff] at h
    obtain ⟨rfl, rfl⟩ := h
    rw [filter_isDropped_nil, List.append_nil]
  next => rw [hosts_rebuild]

/-- A host has to go if somebody who goes, or somebody who comes, is at its address. -/
theorem isDropped_iff {added removed : List Host} {h : Host} :
    isDropped added removed h = true ↔
      (∃ o ∈ removed, o.address = h.address) ∨ ∃ o ∈ added, o.address = h.address := by
  rw [isDropped, List.any_append, Bool.or_eq_true, List.any_eq_true, List.any_eq_true]
  simp only [beq_iff_eq]

/-- The partitions hold hosts of the level only. -/
structure Sound : Prop where
  healthy : ∀ h ∈ s.healthy, h ∈ s.hosts
  degraded : ∀ h ∈ s.degraded, h ∈ s.hosts

variable {s}

/-- Nobody is in any partition. -/
theorem sound_empty (priority overprovisioning : Nat) : (empty priority overprovisioning).Sound :=
  ⟨fun _ h => h, fun _ h => h⟩

/-- Partitions that were just computed are sound, whatever they were before. -/
theorem sound_rebuild (s : HostSet) : (s.rebuild t).Sound where
  healthy _ h := (List.mem_filter.1 h).1
  degraded _ h := (List.mem_filter.1 h).1

/-- A property of levels that stays, whatever happens to a level: hosts come and go, weights
are set that are `fit`, and partitions are computed anew. -/
structure Lasting (P : HostSet → Prop) (t : HostTable) (fit : LocalityWeights → Prop) : Prop where
  update : ∀ {l} added removed, P l → P (l.update t added removed)
  setLocalityWeights : ∀ {l weights}, fit weights → P l → P (l.setLocalityWeights weights)
  refreshHealth : ∀ {l}, P l → P (l.refreshHealth t)

/-- What every level has whose partitions were just computed needs no more than that weights
leave it alone. -/
theorem Lasting.of_rebuild {P : HostSet → Prop} {fit : LocalityWeights → Prop}
    (computed : ∀ l : HostSet, P (l.rebuild t))
    (weighed : ∀ {l weights}, fit weights → P l → P (l.setLocalityWeights weights)) :
    Lasting P t fit where
  update {l} added removed h := by
    rw [HostSet.update]
    split
    · exact h
    · exact computed _
  setLocalityWeights := weighed
  refreshHealth {l} _ := computed l

/-- A membership change that changes nothing leaves even partitions that are out of date alone, and
those are sound. -/
theorem lasting_sound : Lasting Sound t fun _ => True :=
  .of_rebuild t (sound_rebuild t) fun _ h => ⟨h.healthy, h.degraded⟩

/-- The first host at an address is a host of the level at that address. -/
theorem find?_eq_some {address : String} {h : Host} (found : s.find? address = some h) :
    h ∈ s.hosts ∧ h.address = address :=
  ⟨List.mem_of_find?_eq_some found, by simpa using List.find?_some found⟩

/-- Nobody is found at an address if nobody is there. -/
theorem find?_eq_none {address : String} :
    s.find? address = none ↔ ∀ h ∈ s.hosts, h.address ≠ address := by
  rw [find?, List.find?_eq_none]
  simp only [beq_iff_eq, ne_eq]

end HostSet

/-! ## All levels -/

namespace PrioritySet

variable (s : PrioritySet) (t : HostTable)

/-- The hosts of one level; a level that is missing has none. -/
def hostsAt (priority : Nat) : List Host :=
  ((s.level? priority).map (·.hosts)).getD []

@[simp] theorem hostsAt_empty (overprovisioning priority : Nat) :
    (empty overprovisioning).hostsAt priority = [] := rfl

variable {s}

/-- Where a level is there, its hosts are those of the level. -/
theorem hostsAt_of_level? {p : Nat} {l : HostSet} (h : s.level? p = some l) :
    s.hostsAt p = l.hosts := by
  rw [hostsAt, h, Option.map_some, Option.getD_some]

/-- Where a host is, there is a level. -/
theorem exists_level_of_mem_hostsAt {p : Nat} {h : Host} (hh : h ∈ s.hostsAt p) :
    ∃ l, s.level? p = some l ∧ h ∈ l.hosts := by
  cases hl : s.level? p with
  | none =>
    rw [hostsAt, hl] at hh
    cases hh
  | some l =>
    rw [hostsAt_of_level? hl] at hh
    exact ⟨l, rfl, hh⟩

/-- A level stands where its priority says. -/
theorem level?_of_mem {l : HostSet} (hl : l ∈ s.levels) : s.level? l.priority = some l := by
  obtain ⟨p, hp⟩ := List.getElem?_of_mem hl
  rw [s.dense p l hp]
  exact hp

/-- The hosts of the set are those of its levels. -/
theorem mem_hosts {h : Host} : h ∈ s.hosts ↔ ∃ p, h ∈ s.hostsAt p := by
  rw [hosts, List.mem_flatMap]
  constructor
  · rintro ⟨l, hl, hh⟩
    obtain ⟨p, hp⟩ := List.getElem?_of_mem hl
    exact ⟨p, by rwa [hostsAt_of_level? hp]⟩
  · rintro ⟨p, hh⟩
    obtain ⟨l, hl, hmem⟩ := exists_level_of_mem_hostsAt hh
    exact ⟨l, List.mem_of_getElem? hl, hmem⟩

/-- A set is empty if it has no host, whatever levels it has. -/
theorem isEmpty_iff : s.isEmpty = true ↔ s.hosts = [] := by
  rw [isEmpty, hosts, List.all_eq_true, List.flatMap_eq_nil_iff]
  simp only [HostSet.isEmpty, List.isEmpty_iff]

/-! ### Looking for an address -/

/-- Whoever is found at an address is there, and at the level that is named. -/
theorem find?_eq_some {address : String} {p : Nat} {h : Host}
    (found : s.find? address = some (p, h)) : h ∈ s.hostsAt p ∧ h.address = address := by
  obtain ⟨l, hl, hfound⟩ := List.exists_of_findSome?_eq_some found
  obtain ⟨h', hfind, heq⟩ := Option.map_eq_some_iff.1 hfound
  cases heq
  obtain ⟨i, hi⟩ := List.getElem?_of_mem hl
  -- the level says which one it is, and it stands where it says
  rw [s.dense i l hi, hostsAt_of_level? hi]
  exact HostSet.find?_eq_some hfind

/-- If nobody is found at an address, nobody is there at any level. -/
theorem find?_eq_none {address : String} :
    s.find? address = none ↔ ∀ h ∈ s.hosts, h.address ≠ address := by
  rw [find?, List.findSome?_eq_none_iff]
  simp only [Option.map_eq_none_iff, HostSet.find?_eq_none, hosts, List.mem_flatMap]
  constructor
  · rintro hnone h ⟨l, hl, hh⟩
    exact hnone l hl h hh
  · intro hnone l hl h hh
    exact hnone h ⟨l, hl, hh⟩

/-! ### Changing one level -/

/-- To make a level is to make all that are missing up to it, each of them empty. -/
theorem level?_ensureLevel (p q : Nat) :
    (s.ensureLevel p).level? q =
      (s.level? q).or (if q ≤ p then some (.empty q s.overprovisioning) else none) :=
  getElem?_append_missing s p q

/-- A change of one level is a change of that level alone, but for empty levels that come
into being below it. -/
theorem level?_modifyLevel {f : HostSet → HostSet} {keeps : ∀ l, (f l).priority = l.priority}
    (p q : Nat) :
    (s.modifyLevel p f keeps).level? q =
      if q = p then some (f ((s.level? p).getD (.empty p s.overprovisioning)))
      else (s.level? q).or (if q ≤ p then some (.empty q s.overprovisioning) else none) := by
  -- the level is made first where it is missing, and then it is changed
  have hmodify : (s.modifyLevel p f keeps).level? q =
      ((s.ensureLevel p).level? q).map fun l => if p = q then f l else l := by
    rw [level?, modifyLevel, List.getElem?_modify]
    rw [level?]
    cases (s.ensureLevel p).levels[q]? with
    | none => rfl
    | some l =>
      by_cases h : p = q
      · simp [h]
      · simp [h]
  rw [hmodify, level?_ensureLevel]
  by_cases hq : q = p
  · subst hq
    cases s.level? q <;> simp
  · have hp : ¬ p = q := fun h => hq h.symm
    simp [hq, hp]

section Reading

variable {α : Type} {read : HostSet → α} {nothing : α}

/-- **A level that comes into being** does not show in what is read off the levels, if a missing
level is taken for an empty one. -/
theorem getD_map_ensureLevel (unset : ∀ q, read (.empty q s.overprovisioning) = nothing)
    (p q : Nat) :
    (((s.ensureLevel p).level? q).map read).getD nothing =
      ((s.level? q).map read).getD nothing := by
  rw [level?_ensureLevel]
  cases s.level? q with
  | some l => rfl
  | none =>
    rw [Option.none_or]
    split
    · exact unset q
    · rfl

/-- So a change of one level shows at that level alone. -/
theorem getD_map_modifyLevel {f : HostSet → HostSet} {keeps : ∀ l, (f l).priority = l.priority}
    (unset : ∀ q, read (.empty q s.overprovisioning) = nothing) (p q : Nat) :
    (((s.modifyLevel p f keeps).level? q).map read).getD nothing =
      if q = p then read (f ((s.level? p).getD (.empty p s.overprovisioning)))
      else ((s.level? q).map read).getD nothing := by
  rw [level?_modifyLevel]
  split
  · rfl
  · rw [← level?_ensureLevel]
    exact getD_map_ensureLevel unset p q

end Reading

/-- No host comes with them. -/
@[simp] theorem hostsAt_ensureLevel (p q : Nat) : (s.ensureLevel p).hostsAt q = s.hostsAt q :=
  getD_map_ensureLevel (fun _ => rfl) p q

/-- A change of one level shows in the hosts of that level alone. -/
theorem hostsAt_modifyLevel {f : HostSet → HostSet} {keeps : ∀ l, (f l).priority = l.priority}
    (p q : Nat) :
    (s.modifyLevel p f keeps).hostsAt q =
      if q = p then (f ((s.level? p).getD (.empty p s.overprovisioning))).hosts
      else s.hostsAt q :=
  getD_map_modifyLevel (fun _ => rfl) p q

/-- **A membership change.** At its level those at the addresses in question leave and the
added hosts come, at the end and in order; at all other levels nothing happens. -/
theorem hostsAt_updateHosts (p q : Nat) (added removed : List Host) :
    (s.updateHosts t p added removed).hostsAt q =
      if q = p then (s.hostsAt p).filter (fun h => !HostSet.isDropped added removed h) ++ added
      else s.hostsAt q := by
  rw [updateHosts, hostsAt_modifyLevel]
  split
  · rw [HostSet.hosts_update, hostsAt]
    cases s.level? p <;> simp
  · rfl

/-- Weights of localities move nobody, also where the level is made for them. -/
@[simp] theorem hostsAt_setLocalityWeights (p q : Nat) (weights : LocalityWeights) :
    (s.setLocalityWeights p weights).hostsAt q = s.hostsAt q := by
  rw [setLocalityWeights, hostsAt_modifyLevel]
  split
  next h =>
    rw [HostSet.hosts_setLocalityWeights, h, hostsAt]
    cases s.level? p <;> simp
  next => rfl

/-- Nor does it when partitions are computed anew. -/
@[simp] theorem hostsAt_refreshHealth (p : Nat) : (s.refreshHealth t).hostsAt p = s.hostsAt p := by
  rw [hostsAt, hostsAt, level?, refreshHealth, List.getElem?_map, level?]
  cases s.levels[p]? <;> simp

/-! ### Building level by level -/

/-- What is built of a set level by level, beginning with empty levels, has at each level
what is made of the hosts there. Each level comes up once, because it stands where its
priority says. -/
theorem hostsAt_foldl_levels {step : PrioritySet → HostSet → PrioritySet} {start : PrioritySet}
    {f : List Host → List Host} (hstart : ∀ p, start.hostsAt p = []) (hnil : f [] = [])
    (hstep : ∀ (s' : PrioritySet) (l : HostSet), s'.hostsAt l.priority = [] →
      ∀ p, (step s' l).hostsAt p = if p = l.priority then f l.hosts else s'.hostsAt p) (p : Nat) :
    (s.levels.foldl step start).hostsAt p = f (s.hostsAt p) := by
  -- the levels that came up have what is made of them, those after them nothing yet
  have built (n : Nat) (hn : n ≤ s.levels.length) (p : Nat) :
      ((s.levels.take n).foldl step start).hostsAt p = if p < n then f (s.hostsAt p) else [] := by
    induction n generalizing p with
    | zero => simp [hstart]
    | succ n ih =>
      have hlevel : s.level? n = some s.levels[n] := List.getElem?_eq_getElem hn
      have hprio : (s.levels[n]).priority = n := s.dense n _ hlevel
      have hempty : ((s.levels.take n).foldl step start).hostsAt (s.levels[n]).priority = [] := by
        rw [hprio, ih (by omega), if_neg (by omega)]
      rw [List.take_add_one, List.getElem?_eq_getElem hn, Option.toList_some, List.foldl_append,
        List.foldl_cons, List.foldl_nil, hstep _ _ hempty, hprio, ih (by omega)]
      -- level n comes up now, those below it came up before, and all others are still to come
      by_cases hp : p = n
      · subst hp
        rw [if_pos rfl, if_pos (by omega), hostsAt_of_level? hlevel]
      · have hlt : p < n + 1 ↔ p < n := by omega
        rw [if_neg hp]
        simp only [hlt]
  have hall := built s.levels.length (Nat.le_refl _) p
  rw [List.take_length] at hall
  rw [hall]
  split
  · rfl
  next hp =>
    rw [hostsAt, level?, List.getElem?_eq_none (Nat.le_of_not_lt hp), Option.map_none,
      Option.getD_none, hnil]

/-! ### What holds of every level -/

/-- All levels have a property, and so has every empty level that may come into being. -/
structure Everywhere (s : PrioritySet) (P : HostSet → Prop) : Prop where
  levels : ∀ p l, s.level? p = some l → P l
  fresh : ∀ p, P (.empty p s.overprovisioning)

section Everywhere

variable {P : HostSet → Prop} {fit : LocalityWeights → Prop} {t}

/-- A set without levels has no level that could lack a property. -/
theorem everywhere_empty {overprovisioning : Nat} (fresh : ∀ p, P (.empty p overprovisioning)) :
    (empty overprovisioning).Everywhere P :=
  ⟨fun p l h => by simp [level?, empty] at h, fresh⟩

/-- The same of the levels as a list. -/
theorem Everywhere.of_mem (h : s.Everywhere P) {l : HostSet} (hl : l ∈ s.levels) : P l := by
  obtain ⟨p, hp⟩ := List.getElem?_of_mem hl
  exact h.levels p l hp

/-- A level that is missing counts as an empty one. -/
theorem Everywhere.getD_level? (h : s.Everywhere P) (p : Nat) :
    P ((s.level? p).getD (.empty p s.overprovisioning)) := by
  cases hp : s.level? p with
  | some l => exact h.levels p l hp
  | none => exact h.fresh p

/-- Levels that come into being are empty ones. -/
theorem Everywhere.ensureLevel (h : s.Everywhere P) (p : Nat) : (s.ensureLevel p).Everywhere P := by
  refine ⟨fun q l hl => ?_, h.fresh⟩
  rw [level?_ensureLevel] at hl
  cases hq : s.level? q with
  | some l' =>
    rw [hq, Option.some_or] at hl
    cases hl
    exact h.levels q l hq
  | none =>
    rw [hq, Option.none_or] at hl
    split at hl
    · cases hl
      exact h.fresh q
    · cases hl

/-- **A change of one level.** All other levels have the property already, and the changed one
has it afterwards, whether it had it before or not. -/
theorem everywhere_modifyLevel {f : HostSet → HostSet}
    {keeps : ∀ l, (f l).priority = l.priority} {p : Nat}
    (others : ∀ q l, q ≠ p → s.level? q = some l → P l)
    (fresh : ∀ q, P (.empty q s.overprovisioning))
    (changed : P (f ((s.level? p).getD (.empty p s.overprovisioning)))) :
    (s.modifyLevel p f keeps).Everywhere P := by
  refine ⟨fun q l hl => ?_, fresh⟩
  rw [level?_modifyLevel] at hl
  split at hl
  · cases hl
    exact changed
  next hq =>
    cases hlevel : s.level? q with
    | some l' =>
      rw [hlevel, Option.some_or] at hl
      cases hl
      exact others q l hq hlevel
    | none =>
      -- the level came into being below the one that was changed
      rw [hlevel, Option.none_or] at hl
      split at hl
      · cases hl
        exact fresh q
      · cases hl

/-- A change that keeps the property at one level keeps it at all of them. -/
theorem Everywhere.modifyLevel (h : s.Everywhere P) {f : HostSet → HostSet}
    {keeps : ∀ l, (f l).priority = l.priority} (same : ∀ l, P l → P (f l)) (p : Nat) :
    (s.modifyLevel p f keeps).Everywhere P :=
  everywhere_modifyLevel (fun q l _ hl => h.levels q l hl) h.fresh (same _ (h.getD_level? p))

/-- What lasts stays when hosts come and go. -/
theorem Everywhere.updateHosts (h : s.Everywhere P) (lasting : HostSet.Lasting P t fit) (p : Nat)
    (added removed : List Host) : (s.updateHosts t p added removed).Everywhere P :=
  h.modifyLevel (fun _ hl => lasting.update added removed hl) p

/-- It stays when weights are set, if these are fit. -/
theorem Everywhere.setLocalityWeights (h : s.Everywhere P) (lasting : HostSet.Lasting P t fit)
    (p : Nat) {weights : LocalityWeights} (hfit : fit weights) :
    (s.setLocalityWeights p weights).Everywhere P :=
  h.modifyLevel (fun _ hl => lasting.setLocalityWeights hfit hl) p

/-- What all levels have once they were computed anew. -/
theorem everywhere_refreshHealth (computed : ∀ p l, s.level? p = some l → P (l.refreshHealth t))
    (fresh : ∀ p, P (.empty p s.overprovisioning)) : (s.refreshHealth t).Everywhere P := by
  refine ⟨fun p l hl => ?_, fresh⟩
  rw [level?, refreshHealth, List.getElem?_map] at hl
  obtain ⟨l', hl', rfl⟩ := Option.map_eq_some_iff.1 hl
  exact computed p l' hl'

/-- And it stays when partitions are computed anew. -/
theorem Everywhere.refreshHealth (h : s.Everywhere P) (lasting : HostSet.Lasting P t fit) :
    (s.refreshHealth t).Everywhere P :=
  everywhere_refreshHealth (fun p l hl => lasting.refreshHealth (h.levels p l hl)) h.fresh

end Everywhere

/-! ### Sound partitions -/

/-- No partition of any level holds a host that the level does not have. -/
def Sound (s : PrioritySet) : Prop :=
  s.Everywhere HostSet.Sound

/-- A set without levels is sound. -/
theorem sound_empty (overprovisioning : Nat) : (empty overprovisioning).Sound :=
  everywhere_empty fun p => HostSet.sound_empty p overprovisioning

/-- Partitions that were just computed are sound. -/
theorem sound_refreshHealth (s : PrioritySet) : (s.refreshHealth t).Sound :=
  everywhere_refreshHealth (fun _ l _ => HostSet.sound_rebuild t l) fun p =>
    HostSet.sound_empty p s.overprovisioning

end PrioritySet

end LoadBalancing
